import FormRespondentRole.JobExclusion

/-!
# The attempts of a job

A claim counts an attempt, and only a dispatch that fails retryably compares the count with its
limit.  A job that the reaper never revives and no shutting-down worker releases is claimed at most
`max_attempts` times, and it is dead for exhausted attempts only after as many failed dispatches
(`claims_bounded`).
-/

namespace FormRespondentRole

open Foundations

/-- What has happened to one job: how often it was claimed, and how many of its dispatches failed,
to be retried or for good. -/
structure Tally where
  claims : Nat := 0
  failures : Nat := 0
  terminals : Nat := 0

def Worker.at (id : Nat) (w : Worker) : Bool := w.phase.current.any fun job => decide (job.id = id)

def noteAttempt (id : Nat) (n : Tally) (s : Fleet) : FleetEvent → Tally
  | .worker _ (.claim skipped _) =>
    if id ∈ s.jobs.picked s.now batchSize skipped then { n with claims := n.claims + 1 } else n
  | .worker i (.returned (.error e)) =>
    if s.workers[i]?.any (Worker.at id) then
      match e with
      | .retry _ => { n with failures := n.failures + 1 }
      | .terminal _ => { n with terminals := n.terminals + 1 }
    else n
  | _ => n

def auditedFleet (serdeError : Value → Text) (id : Nat) : System (Fleet × Tally) FleetEvent :=
  (fleetSystem serdeError).observe (noteAttempt id)

/-- The job is neither revived by the reaper nor released at shutdown.  Before its last attempt
either would do no harm to the bound on the claims, but the job would then be dead after fewer
failures than its limit. -/
def unrevived (id : Nat) (s : Fleet) : FleetEvent → Bool
  | .worker _ (.reap true) =>
    s.jobs.rows.all fun row => decide (row.id = id) →
      !JobTable.stuck (s.now - seconds stuckLockSecs) row
  | .worker i (.release true _) => !s.workers[i]?.any (Worker.at id)
  | _ => true

/-! ### The invariant -/

def Phase.jobs : Phase → List Job
  | .batch _ _ job rest => job :: rest
  | _ => []

private theorem Phase.held_eq (p : Phase) : p.held = p.jobs.map Job.id := by
  cases p <;> rfl

/-- The failures of a job that is claimed, up to the stage of its dispatch. -/
def Stage.Charged (n : Tally) (job : Job) : Stage → Prop
  | .settling (.failDead _) => 0 < n.terminals ∨ job.maxAttempts ≤ n.failures
  | .settling (.failRetry _) => n.failures = job.attempts ∧ job.attempts < job.maxAttempts
  | .settling .complete => True
  | _ => n.failures + 1 = job.attempts

def Phase.Charged (id : Nat) (n : Tally) : Phase → Prop
  | .batch _ stage job rest =>
    (job.id = id → stage.Charged n job) ∧ ∀ job' ∈ rest, job'.id = id →
      n.failures + 1 = job'.attempts
  | _ => True

/-- The attempts of a row are its claims; a pending row has failed as often, and fewer times than it
may. -/
structure JobRow.Charged (n : Tally) (row : JobRow) : Prop where
  claims : row.attempts = n.claims
  limit : row.attempts ≤ row.maxAttempts
  pending : row.status = .pending → n.failures = row.attempts ∧ row.attempts < row.maxAttempts
  dead : row.status = .dead → 0 < n.terminals ∨ row.maxAttempts ≤ n.failures

/-- A worker that holds the job has its row as it was claimed. -/
structure Worker.Charged (id : Nat) (n : Tally) (t : JobTable) (w : Worker) : Prop where
  nodup : w.phase.held.Nodup
  claimed : ∀ job ∈ w.phase.jobs, job.id = id →
    ∃ row ∈ t.rows, row.id = id ∧ row.status = .inProgress ∧ row.toJob = job
  phase : w.phase.Charged id n

def Alone (id : Nat) (u w : Worker) : Prop := id ∈ u.phase.held → id ∉ w.phase.held

structure Fleet.Charged (id : Nat) (n : Tally) (s : Fleet) : Prop where
  row : ∀ row ∈ s.jobs.rows, row.id = id → row.Charged n
  absent : (∀ row ∈ s.jobs.rows, row.id ≠ id) → n.claims = 0 ∧ n.failures = 0
  workers : Parties (Worker.Charged id n s.jobs) (Alone id) s.workers

theorem Alone.symm {id : Nat} {u w : Worker} (h : Alone id u w) : Alone id w u :=
  fun hw hu => h hu hw

section

variable {serdeError : Value → Text} {now now' : Instant} {id : Nat} {n n' : Tally}
  {t t' : JobTable} {w w' : Worker}
  {pre post : List Worker} {e : WorkerEvent}

/-- A worker that does not hold the job. -/
theorem Worker.Charged.of_notMem (hnodup : w.phase.held.Nodup) (h : id ∉ w.phase.held) :
    w.Charged id n t := by
  rw [Phase.held_eq] at h
  refine ⟨hnodup, fun job hjob hid => absurd (hid ▸ List.mem_map_of_mem hjob) h, ?_⟩
  revert h
  cases w.phase with
  | batch claimedAt stage job rest =>
    intro h
    refine ⟨fun hid => absurd (hid ▸ List.mem_cons_self) h, fun job' hjob' hid => ?_⟩
    exact absurd (hid ▸ List.mem_cons_of_mem _ (List.mem_map_of_mem hjob')) h
  | _ => exact fun _ => trivial

theorem Worker.Charged.mono (h : w.Charged id n t)
    (ht : ∀ row ∈ t.rows, row.id = id → row ∈ t'.rows) :
    w.Charged id n t' := by
  refine ⟨h.nodup, fun job hjob hid => ?_, h.phase⟩
  obtain ⟨row, hrow, hrowid, hrest⟩ := h.claimed job hjob hid
  exact ⟨row, ht row hrow hrowid, hrowid, hrest⟩

/-- A step of a worker that leaves the row of the job alone. -/
theorem Fleet.Charged.of_frame (h : Fleet.Charged id n ⟨now, t, pre ++ w :: post⟩)
    (ht : ∀ row ∈ t.rows, row.id = id → row ∈ t'.rows)
    (hids : t'.rows.map JobRow.id = t.rows.map JobRow.id) (hw : w'.Charged id n t')
    (hheld : id ∈ w'.phase.held → id ∈ w.phase.held) :
    Fleet.Charged id n ⟨now', t', pre ++ w' :: post⟩ := by
  have hback : ∀ row' ∈ t'.rows, row'.id = id → row' ∈ t.rows := by
    intro row' hrow' hid
    have hmem : row'.id ∈ t.rows.map JobRow.id := hids ▸ List.mem_map_of_mem hrow'
    obtain ⟨row, hrow, heq⟩ := List.mem_map.1 hmem
    rwa [Table.eq_of_key hrow' (ht row hrow (heq.trans hid)) heq.symm]
  constructor
  · exact fun row hrow hid => h.row row (hback row hrow hid) hid
  · exact fun habsent => h.absent fun row hrow hid => habsent row (ht row hrow hid) hid
  · refine h.workers.replace Alone.symm Alone.symm (fun u _ hu => hu.mono ht)
      (fun _ _ halone => halone) hw ?_
    exact fun u hu hmem => h.workers.apart Alone.symm u hu (hheld hmem)

/-- A step of the one worker that holds the job, or takes it. -/
theorem Fleet.Charged.of_holder (h : Fleet.Charged id n ⟨now, t, pre ++ w :: post⟩)
    (hothers : ∀ u ∈ pre ++ post, id ∉ u.phase.held)
    (hrow : ∀ row ∈ t'.rows, row.id = id → row.Charged n') (hexists : ∃ row ∈ t'.rows, row.id = id)
    (hw : w'.Charged id n' t') :
    Fleet.Charged id n' ⟨now', t', pre ++ w' :: post⟩ := by
  refine ⟨hrow, fun habsent => ?_, ?_⟩
  · obtain ⟨row, hmem, hid⟩ := hexists
    exact absurd hid (habsent row hmem)
  · refine h.workers.replace Alone.symm Alone.symm (fun u hu hcharged => ?_)
      (fun _ _ halone => halone) hw ?_
    · exact .of_notMem hcharged.nodup (hothers u hu)
    · exact fun u hu _ => hothers u hu

/-- The first job of the batch at another stage. -/
theorem Worker.Charged.of_stage {claimedAt : Instant} {stage stage' : Stage} {job : Job}
    {rest : List Job} (h : w.Charged id n t) (hphase : w.phase = .batch claimedAt stage job rest)
    (hphase' : w'.phase = .batch claimedAt stage' job rest)
    (hstage : job.id = id → stage'.Charged n' job) (hsame : job.id ≠ id → n' = n) :
    w'.Charged id n' t := by
  have hjobs : w'.phase.jobs = w.phase.jobs := by
    rw [hphase, hphase']
    rfl
  have hheld : w'.phase.held = w.phase.held := by rw [Phase.held_eq, hjobs, Phase.held_eq]
  have hnodup := h.nodup
  have hrest := h.phase
  refine ⟨hheld ▸ hnodup, hjobs ▸ h.claimed, ?_⟩
  rw [hphase] at hrest hnodup
  rw [hphase']
  refine ⟨hstage, fun job' hjob' hid => ?_⟩
  have hne : job.id ≠ id :=
    fun heq => (List.nodup_cons.1 hnodup).1 (List.mem_map.2 ⟨job', hjob', hid.trans heq.symm⟩)
  rw [hsame hne]
  exact hrest.2 job' hjob' hid

/-- The first job of the batch is done with. -/
theorem Worker.Charged.of_nextPhase {claimedAt : Instant} {stage : Stage} {job : Job}
    {rest : List Job} (h : w.Charged id n t) (hphase : w.phase = .batch claimedAt stage job rest)
    (ht : job.id ≠ id → ∀ row ∈ t.rows, row.id = id → row ∈ t'.rows) :
    (w.goto (nextPhase claimedAt rest)).Charged id n t' ∧
      (id ∈ (nextPhase claimedAt rest).held → id ∈ w.phase.held ∧ job.id ≠ id) := by
  have hnodup := h.nodup
  have hcharged := h.phase
  have hclaimed := h.claimed
  rw [hphase] at hnodup hcharged hclaimed
  have hne : ∀ job' ∈ rest, job'.id = id → job.id ≠ id :=
    fun job' hjob' hid heq => (List.nodup_cons.1 hnodup).1
      (List.mem_map.2 ⟨job', hjob', hid.trans heq.symm⟩)
  have hheld : (nextPhase claimedAt rest).held = rest.map Job.id := held_nextPhase claimedAt rest
  have hjobs : (nextPhase claimedAt rest).jobs = rest := by cases rest <;> rfl
  refine ⟨⟨?_, fun job' hjob' hid => ?_, ?_⟩, fun hmem => ?_⟩
  · rw [Worker.goto_phase, hheld]
    exact (List.nodup_cons.1 hnodup).2
  · rw [Worker.goto_phase, hjobs] at hjob'
    obtain ⟨row, hrow, hrowid, hrest⟩ := hclaimed job' (List.mem_cons_of_mem _ hjob') hid
    exact ⟨row, ht (hne job' hjob' hid) row hrow hrowid, hrowid, hrest⟩
  · cases rest with
    | nil => trivial
    | cons next rest =>
      exact ⟨fun hid => hcharged.2 next List.mem_cons_self hid,
        fun job' hjob' hid => hcharged.2 job' (List.mem_cons_of_mem _ hjob') hid⟩
  · rw [hheld] at hmem
    obtain ⟨job', hjob', hid⟩ := List.mem_map.1 hmem
    rw [hphase]
    exact ⟨List.mem_cons_of_mem _ hmem, hne job' hjob' hid⟩

/-- The worker that is at the job holds it alone, with its row in progress as it was claimed. -/
theorem Fleet.Charged.at_job {claimedAt : Instant} {stage : Stage} {job : Job} {rest : List Job}
    (h : Fleet.Charged id n ⟨now, t, pre ++ w :: post⟩)
    (hphase : w.phase = .batch claimedAt stage job rest) (hid : job.id = id) :
    (∀ u ∈ pre ++ post, id ∉ u.phase.held) ∧ stage.Charged n job ∧
      ∃ row ∈ t.rows, row.id = id ∧ row.status = .inProgress ∧ row.toJob = job := by
  have hw := h.workers.each w (List.mem_append_right _ List.mem_cons_self)
  have hcharged := hw.phase
  have hclaimed := hw.claimed
  rw [hphase] at hcharged hclaimed
  refine ⟨fun u hu => h.workers.apart Alone.symm u hu ?_, hcharged.1 hid,
    hclaimed job List.mem_cons_self hid⟩
  rw [hphase]
  exact hid ▸ List.mem_cons_self

private theorem noteAttempt_returned {result : Except JobError Unit} {s : Fleet} {i : Nat}
    (hi : s.workers[i]? = some w) (hat : w.at id = false) :
    noteAttempt id n s (.worker i (.returned result)) = n := by
  cases result with
  | ok => rfl
  | error e => simp [noteAttempt, hi, hat]

/-- Writing the job back accounts for its attempt. -/
theorem charged_settle (now : Instant) (jitterMs : Nat) {how : Settlement} {job : Job}
    {row : JobRow} (hrow : row ∈ t.rows) (hcharged : row.Charged n) (hjob : row.toJob = job)
    (hstage : (Stage.settling how).Charged n job) :
    ∀ row' ∈ (how.apply t now job jitterMs).rows, row'.id = job.id → row'.Charged n := by
  subst hjob
  intro row' hrow' hid
  cases how with
  | complete =>
    rw [JobTable.eq_set_of_mem_update hrow (decide_eq_true rfl) hrow' hid]
    exact ⟨hcharged.claims, hcharged.limit, fun h => (by cases h), fun h => (by cases h)⟩
  | failDead msg =>
    rw [JobTable.eq_set_of_mem_update hrow (decide_eq_true rfl) hrow' hid]
    exact ⟨hcharged.claims, hcharged.limit, fun h => (by cases h), fun _ => hstage⟩
  | failRetry msg =>
    rw [JobTable.eq_set_of_mem_update hrow (decide_eq_true rfl) hrow' hid]
    exact ⟨hcharged.claims, hcharged.limit, fun _ => hstage, fun h => (by cases h)⟩

/-- What a returned dispatch is charged with. -/
theorem charged_settlement {job : Job} {since : Instant} {s : Fleet} {i : Nat}
    (result : Except JobError Unit) (hi : s.workers[i]? = some w) (hat : w.at id = true)
    (hstage : (Stage.dispatching since).Charged n job) :
    (Stage.settling (settlement job result)).Charged
    (noteAttempt id n s (.worker i (.returned result))) job ∧
      (noteAttempt id n s (.worker i (.returned result))).claims = n.claims := by
  match result with
  | .ok () => exact ⟨trivial, rfl⟩
  | .error (.terminal msg) =>
    simp only [noteAttempt, hi, Option.any_some, hat, if_true]
    exact ⟨Or.inl (Nat.succ_pos _), trivial⟩
  | .error (.retry msg) =>
    simp only [noteAttempt, hi, Option.any_some, hat, if_true, settlement]
    refine ⟨?_, trivial⟩
    have hfailures : n.failures + 1 = job.attempts := hstage
    split
    · exact Or.inr (by simp only; omega)
    · exact ⟨hfailures, by omega⟩

private theorem Worker.at_of_batch {claimedAt : Instant} {stage : Stage} {job : Job}
    {rest : List Job} (hphase : w.phase = .batch claimedAt stage job rest) :
    w.at id = decide (job.id = id) := by
  rw [Worker.at, hphase]
  rfl

/-- A claim counts when it takes the job. -/
theorem charged_claim (h : Fleet.Charged id n ⟨now, t, pre ++ w :: post⟩) (skipped : List Nat)
    (rank : Nat → Nat) :
    Fleet.Charged id (noteAttempt id n ⟨now, t, pre ++ w :: post⟩
      (.worker pre.length (.claim skipped rank)))
      ⟨now, (t.claimBatch now w.workerId batchSize skipped rank).2,
        pre ++ w.goto (afterClaim now (t.claimBatch now w.workerId batchSize skipped rank).1) ::
          post⟩ := by
  have hheld : (afterClaim now (t.claimBatch now w.workerId batchSize skipped rank).1).held =
      (t.claimBatch now w.workerId batchSize skipped rank).1.map Job.id := held_afterClaim now _
  have hjobs : (afterClaim now (t.claimBatch now w.workerId batchSize skipped rank).1).jobs =
      (t.claimBatch now w.workerId batchSize skipped rank).1 := by
    cases (t.claimBatch now w.workerId batchSize skipped rank).1 <;> rfl
  by_cases hpicked : id ∈ t.picked now batchSize skipped
  · -- the row was pending, so that no worker held it
    obtain ⟨row, hrow, hid, hpending⟩ := JobTable.mem_picked hpicked
    have hrowcharged := h.row row hrow hid
    obtain ⟨hfailures, hlimit⟩ := hrowcharged.pending hpending
    have hstamped : ∀ row' ∈ (t.claimBatch now w.workerId batchSize skipped rank).2.rows,
      row'.id = id →
        row' = (JobTable.claimSet now w.workerId).set row := fun row' hrow' hid' =>
      JobTable.eq_set_of_mem_update hrow (decide_eq_true (hid ▸ hpicked)) hrow'
        (hid'.trans hid.symm)
    rw [show noteAttempt id n ⟨now, t, pre ++ w :: post⟩
      (.worker pre.length (.claim skipped rank)) =
      { n with claims := n.claims + 1 } from if_pos hpicked]
    refine h.of_holder (fun u hu hmem => ?_) (fun row' hrow' hid' => ?_) ?_
      ⟨?_, fun job hjob hid' => ?_, ?_⟩
    · rw [Phase.held_eq] at hmem
      obtain ⟨job, hjob, hid'⟩ := List.mem_map.1 hmem
      obtain ⟨row', hrow', hid', hstatus, -⟩ :=
        (h.workers.each u (Parties.mem_of_others hu)).claimed job hjob hid'
      rw [Table.eq_of_key hrow' hrow (hid'.trans hid.symm), hpending] at hstatus
      cases hstatus
    · rw [hstamped row' hrow' hid']
      exact ⟨congrArg (· + 1) hrowcharged.claims, hlimit, fun h => (by cases h), fun h =>
        (by cases h)⟩
    · refine ⟨_, Table.mem_update.2 ⟨row, hrow, rfl⟩, ?_⟩
      rw [if_pos (decide_eq_true (hid ▸ hpicked))]
      exact hid
    · rw [Worker.goto_phase, hheld]
      exact JobTable.claimBatch_nodup
    · rw [Worker.goto_phase, hjobs] at hjob
      obtain ⟨_, -, -, -, hrow', rfl⟩ := JobTable.exists_of_mem_claimBatch hjob
      exact ⟨_, hrow', hid', rfl, rfl⟩
    · have hall : ∀ job ∈ (t.claimBatch now w.workerId batchSize skipped rank).1, job.id = id →
          n.failures + 1 = job.attempts := by
        intro job hjob hid'
        obtain ⟨_, -, -, -, hrow', rfl⟩ := JobTable.exists_of_mem_claimBatch hjob
        rw [hstamped _ hrow' hid', hfailures]
        rfl
      rw [Worker.goto_phase]
      revert hall
      cases (t.claimBatch now w.workerId batchSize skipped rank).1 with
      | nil => exact fun _ => trivial
      | cons job rest =>
        exact fun hall => ⟨hall job List.mem_cons_self, fun job' hjob' =>
          hall job' (List.mem_cons_of_mem _ hjob')⟩
  · rw [show noteAttempt id n ⟨now, t, pre ++ w :: post⟩
      (.worker pre.length (.claim skipped rank)) = n from
      if_neg hpicked]
    have hnone : id ∉ (afterClaim now
        (t.claimBatch now w.workerId batchSize skipped rank).1).held := by
      rw [hheld]
      intro hmem
      obtain ⟨job, hjob, rfl⟩ := List.mem_map.1 hmem
      exact hpicked (JobTable.mem_claimBatch hjob).1
    refine h.of_frame (fun row hrow hid => ?_) (JobTable.update_ids _ _ _) (.of_notMem ?_ hnone)
      fun hmem => absurd hmem hnone
    · exact JobTable.mem_update_of_not hrow (decide_eq_false (hid ▸ hpicked))
    · rw [Worker.goto_phase, hheld]
      exact JobTable.claimBatch_nodup

/-- A returned dispatch is charged to the job that was dispatched. -/
theorem charged_returned (h : Fleet.Charged id n ⟨now, t, pre ++ w :: post⟩)
    {claimedAt since : Instant} {job : Job} {rest : List Job}
    (hphase : w.phase = .batch claimedAt (.dispatching since) job rest)
    (result : Except JobError Unit) :
    Fleet.Charged id (noteAttempt id n ⟨now, t, pre ++ w :: post⟩
      (.worker pre.length (.returned result)))
      ⟨now, t, pre ++ w.goto (.batch claimedAt (.settling (settlement job result)) job rest) ::
        post⟩ := by
  have hi : (⟨now, t, pre ++ w :: post⟩ : Fleet).workers[pre.length]? = some w := by simp
  have hw := h.workers.each w (List.mem_append_right _ List.mem_cons_self)
  by_cases hid : job.id = id
  · obtain ⟨hothers, hcharged, row, hrow, hrowid, hstatus, hjob⟩ := h.at_job hphase hid
    have hsettle := charged_settlement result hi
      (by rw [Worker.at_of_batch hphase, hid]; exact decide_eq_true rfl) hcharged
    refine h.of_holder hothers (fun row' hrow' hid' => ?_) ⟨row, hrow, hrowid⟩
      (hw.of_stage hphase rfl (fun _ => hsettle.1) fun hne => absurd hid hne)
    rw [Table.eq_of_key hrow' hrow (hid'.trans hrowid.symm)]
    have hrowcharged := h.row row hrow hrowid
    refine ⟨hsettle.2 ▸ hrowcharged.claims, hrowcharged.limit, fun hpending => ?_, fun hdead => ?_⟩
    · rw [hstatus] at hpending
      cases hpending
    · rw [hstatus] at hdead
      cases hdead
  · rw [noteAttempt_returned hi (by rw [Worker.at_of_batch hphase]; exact decide_eq_false hid)]
    refine h.of_frame (fun row hrow _ => hrow) rfl
      (hw.of_stage hphase rfl (fun heq => absurd heq hid) fun _ => rfl) fun hmem => ?_
    rw [hphase]
    exact hmem

/-- A settlement, written or lost, leaves the account as it is. -/
theorem charged_settled (h : Fleet.Charged id n ⟨now, t, pre ++ w :: post⟩) {claimedAt : Instant}
    {how : Settlement} {job : Job} {rest : List Job}
    (hphase : w.phase = .batch claimedAt (.settling how) job rest) (succeeds : Bool)
    (jitterMs : Nat) :
    Fleet.Charged id n ⟨now, if succeeds then how.apply t now job jitterMs else t,
      pre ++ w.goto (nextPhase claimedAt rest) :: post⟩ := by
  have hw := h.workers.each w (List.mem_append_right _ List.mem_cons_self)
  by_cases hid : job.id = id ∧ succeeds = true
  · obtain ⟨hid, rfl⟩ := hid
    obtain ⟨hothers, hcharged, row, hrow, hrowid, -, hjob⟩ := h.at_job hphase hid
    have hsettled := charged_settle now jitterMs hrow (h.row row hrow hrowid) hjob hcharged
    have hothersKept : job.id ≠ id → ∀ row ∈ t.rows, row.id = id →
        row ∈ (how.apply t now job jitterMs).rows :=
      fun hne => absurd hid hne
    obtain ⟨hnext, hheld⟩ := hw.of_nextPhase hphase hothersKept
    refine h.of_holder hothers (fun row' hrow' hid' => hsettled row' hrow' (hid'.trans hid.symm)) ?_
      hnext
    have hids : (how.apply t now job jitterMs).rows.map JobRow.id = t.rows.map JobRow.id := by
      cases how <;> exact JobTable.update_ids _ _ _
    exact List.mem_map.1 (hids ▸ List.mem_map.2 ⟨row, hrow, hrowid⟩)
  · have hframe : ∀ row ∈ t.rows, row.id = id →
        row ∈ (if succeeds then how.apply t now job jitterMs else t).rows := by
      intro row hrow hrowid
      cases succeeds with
      | false => exact hrow
      | true =>
        have hne : row.id ≠ job.id := fun heq => hid ⟨heq ▸ hrowid, rfl⟩
        cases how <;> exact JobTable.mem_update_of_not hrow (decide_eq_false hne)
    obtain ⟨hnext, hheld⟩ := hw.of_nextPhase hphase fun _ => hframe
    refine h.of_frame hframe ?_ hnext fun hmem => (hheld hmem).1
    cases succeeds with
    | false => rfl
    | true => cases how <;> exact JobTable.update_ids _ _ _

/-- A step of a worker keeps the account of the job, unless it revives or releases it. -/
theorem charged_worker (h : Fleet.Charged id n ⟨now, t, pre ++ w :: post⟩)
    (hcond : unrevived id ⟨now, t, pre ++ w :: post⟩ (.worker pre.length e) = true)
    (hstep : workerStep serdeError now t w e = some (t', w')) :
    Fleet.Charged id (noteAttempt id n ⟨now, t, pre ++ w :: post⟩ (.worker pre.length e))
    ⟨now, t', pre ++ w' :: post⟩ := by
  have hi : (⟨now, t, pre ++ w :: post⟩ : Fleet).workers[pre.length]? = some w := by simp
  have hw := h.workers.each w (List.mem_append_right _ List.mem_cons_self)
  -- a worker that lets go of its batch
  have hidle : ∀ u : Worker, u.phase.held = [] →
      Fleet.Charged id n ⟨now, t, pre ++ u :: post⟩ := by
    intro u hu
    have hnone : id ∉ u.phase.held := hu ▸ List.not_mem_nil
    exact h.of_frame (fun row hrow _ => hrow) rfl (.of_notMem (hu ▸ List.nodup_nil) hnone)
      fun hmem => absurd hmem hnone
  cases e with
  | check =>
    obtain ⟨-, heq⟩ := workerStep_check.1 hstep
    cases heq
    refine hidle _ ?_
    rw [Worker.goto_phase]
    split
    · rfl
    · split <;> rfl
  | reap succeeds =>
    obtain ⟨-, heq⟩ := workerStep_reap.1 hstep
    cases heq
    cases succeeds with
    | false => exact hidle _ rfl
    | true =>
      refine h.of_frame (fun row hrow hid => JobTable.mem_update_of_not hrow ?_)
        (JobTable.update_ids _ _ _)
        (.of_notMem List.nodup_nil List.not_mem_nil) fun hmem => absurd hmem List.not_mem_nil
      -- the row of the job is not stuck
      have hfresh := List.all_eq_true.1 hcond row hrow
      simpa [hid] using hfresh
  | claim skipped rank =>
    obtain ⟨-, heq⟩ := workerStep_claim.1 hstep
    obtain ⟨rfl, rfl⟩ := Prod.mk.inj heq
    exact charged_claim h skipped rank
  | claimFails =>
    obtain ⟨-, heq⟩ := workerStep_claimFails.1 hstep
    cases heq
    exact hidle _ rfl
  | wake =>
    obtain ⟨_, _, -, -, heq⟩ := workerStep_wake.1 hstep
    cases heq
    exact hidle _ rfl
  | wakeForShutdown =>
    obtain ⟨_, _, -, -, heq⟩ := workerStep_wakeForShutdown.1 hstep
    cases heq
    exact hidle _ rfl
  | next =>
    obtain ⟨claimedAt, job, rest, hphase, heq⟩ := workerStep_next.1 hstep
    obtain ⟨rfl, rfl⟩ := Prod.mk.inj heq
    refine h.of_frame (fun row hrow _ => hrow) rfl (hw.of_stage hphase rfl (fun hid => ?_) fun _ =>
      rfl) fun hmem => ?_
    · have hcharged := (h.at_job hphase hid).2.1
      split <;> exact hcharged
    · rw [hphase]
      exact hmem
  | returned result =>
    obtain ⟨claimedAt, since, job, rest, hphase, -, heq⟩ := workerStep_returned.1 hstep
    obtain ⟨rfl, rfl⟩ := Prod.mk.inj heq
    exact charged_returned h hphase result
  | settle succeeds jitterMs =>
    obtain ⟨claimedAt, how, job, rest, hphase, heq⟩ := workerStep_settle.1 hstep
    obtain ⟨rfl, rfl⟩ := Prod.mk.inj heq
    exact charged_settled h hphase succeeds jitterMs
  | release succeeds jitterMs =>
    obtain ⟨claimedAt, job, rest, hphase, heq⟩ := workerStep_release.1 hstep
    obtain ⟨rfl, rfl⟩ := Prod.mk.inj heq
    have hframe : ∀ row ∈ t.rows, row.id = id →
        row ∈ (if succeeds then t.failRetry now job jitterMs "worker shutting down".toList
            else t).rows := by
      intro row hrow hrowid
      cases succeeds with
      | false => exact hrow
      | true =>
        -- what is released is another job
        have hne : row.id ≠ job.id := by
          intro heq
          rw [unrevived, hi, Option.any_some, Worker.at_of_batch hphase, ← heq, hrowid] at hcond
          simp at hcond
        exact JobTable.mem_update_of_not hrow (decide_eq_false hne)
    obtain ⟨hnext, hheld⟩ := hw.of_nextPhase hphase fun _ => hframe
    refine h.of_frame hframe ?_ hnext fun hmem => (hheld hmem).1
    cases succeeds with
    | false => rfl
    | true => exact JobTable.update_ids _ _ _

end

private theorem charged_step {serdeError : Value → Text} {id : Nat} {n : Tally} {s s' : Fleet}
    {e : FleetEvent} (h : s.Charged id n) (hcond : unrevived id s e = true)
    (hstep : fleetStep serdeError s e = some s') :
    s'.Charged id (noteAttempt id n s e) := by
  cases e with
  | tick dt =>
    simp only [fleetStep, Option.some.injEq] at hstep
    subst hstep
    exact ⟨h.row, h.absent, h.workers⟩
  | enqueue kind payload delaySecs =>
    simp only [fleetStep, Option.some.injEq] at hstep
    subst hstep
    refine ⟨fun row hrow hid => ?_, fun habsent => h.absent fun row hrow =>
      habsent row (List.mem_append_left _ hrow),
      h.workers.mono (fun u _ hu => hu.mono fun row hrow _ => List.mem_append_left _ hrow)
        fun _ _ halone => halone⟩
    rcases List.mem_append.1 hrow with hrow | hrow
    · exact h.row row hrow hid
    · -- the new row has the next id, which no row has
      rw [List.mem_singleton.1 hrow] at hid ⊢
      have hnone := h.absent fun row' hrow' hid' => by
        have hlt := s.jobs.fresh row' hrow'
        simp only at hid
        omega
      exact ⟨hnone.1.symm, Nat.zero_le _, fun _ => ⟨hnone.2, Nat.succ_pos _⟩, fun h => (by cases h)⟩
  | spawn workerId replica =>
    simp only [fleetStep, Option.some.injEq] at hstep
    subst hstep
    refine ⟨h.row, h.absent, fun u hu => ?_,
      List.pairwise_cons.2 ⟨fun u _ hmem => ?_, h.workers.pairwise⟩⟩
    · rcases List.mem_cons.1 hu with rfl | hu
      · exact .of_notMem List.nodup_nil List.not_mem_nil
      · exact h.workers.each u hu
    · exact absurd hmem List.not_mem_nil
  | crash i =>
    obtain ⟨pre, w, post, hworkers, -, rfl⟩ := fleetStep_crash hstep
    have hs : Fleet.Charged id n ⟨s.now, s.jobs, pre ++ w :: post⟩ := hworkers ▸ h
    exact hs.of_frame (fun row hrow _ => hrow) rfl (.of_notMem List.nodup_nil List.not_mem_nil)
      fun hmem => absurd hmem List.not_mem_nil
  | trigger replica =>
    simp only [fleetStep, Option.some.injEq] at hstep
    subst hstep
    refine ⟨h.row, h.absent, h.workers.map _ (fun u hu => ?_) fun u v halone => ?_⟩
    · split
      · exact ⟨hu.nodup, hu.claimed, hu.phase⟩
      · exact hu
    · split <;> split <;> exact halone
  | worker i e =>
    obtain ⟨pre, w, post, t', w', hworkers, rfl, hworker, rfl⟩ := fleetStep_worker hstep
    obtain ⟨now, t, workers⟩ := s
    obtain rfl : workers = pre ++ w :: post := hworkers
    exact charged_worker h hcond hworker

/-- In a run in which the job is neither revived by the reaper nor released at shutdown, it is
claimed no more often than its limit, and if it is dead without a terminal failure, that many of its
dispatches have failed. -/
theorem claims_bounded (serdeError : Value → Text) (id : Nat) {s t : Fleet} {n : Tally}
    {es : List FleetEvent} (hs : s.workers = [])
    (hqueued : ∀ row ∈ s.jobs.rows, row.id = id → row.status = .pending ∧ row.attempts = 0 ∧
      1 ≤ row.maxAttempts)
    (hrun : (auditedFleet serdeError id).Run (fun s e _ => unrevived id s.1 e = true) (s, {}) es
      (t, n)) :
    ∀ row ∈ t.jobs.rows, row.id = id → row.attempts = n.claims ∧ n.claims ≤ row.maxAttempts ∧
      (row.status = .dead → n.terminals = 0 → row.maxAttempts ≤ n.failures) := by
  have hinit : s.Charged id {} := by
    refine ⟨fun row hrow hid => ?_, fun _ => ⟨rfl, rfl⟩, ?_⟩
    · obtain ⟨hpending, hattempts, hlimit⟩ := hqueued row hrow hid
      refine ⟨hattempts, by omega, fun _ => ⟨hattempts.symm, by omega⟩, fun hdead => ?_⟩
      rw [hpending] at hdead
      cases hdead
    · rw [hs]
      exact ⟨fun u hu => absurd hu List.not_mem_nil, List.Pairwise.nil⟩
  have hcharged : t.Charged id n := by
    refine hrun.invariant (P := fun s => s.1.Charged id s.2) (fun _ _ _ h hcond hstep => ?_) hinit
    obtain ⟨hstep, hnote⟩ := System.observe_step.1 hstep
    rw [hnote]
    exact charged_step h hcond hstep
  intro row hrow hid
  have h := hcharged.row row hrow hid
  refine ⟨h.claims, h.claims ▸ h.limit, fun hdead hterminals => ?_⟩
  exact (h.dead hdead).resolve_left (by omega)

/-! ### A job claimed too often -/

/-- A worker claims the job and crashes in its dispatch, the next one finds its lock too old. -/
def crashCycle : List FleetEvent :=
  [.spawn "job-worker-0".toList 0, .tick 2701000000000, .worker 0 .check, .worker 0 (.reap true),
    .worker 0 (.claim [] id), .worker 0 .next, .crash 0]

/-- A job that every worker crashes on. -/
def poisonJob : List FleetEvent :=
  .enqueue .playerSync (PlayerSyncPayload.updated "ann".toList).toValue 0 ::
    (List.replicate 9 crashCycle).flatten

theorem not_claims_bounded :
    ¬ ∀ (serdeError : Value → Text) (id : Nat) (s t : Fleet) (n : Tally) (es : List FleetEvent),
      s.workers = [] →
      (∀ row ∈ s.jobs.rows, row.id = id → row.status = .pending ∧ row.attempts = 0 ∧
        1 ≤ row.maxAttempts) →
      (auditedFleet serdeError id).Run (fun _ _ _ => True) (s, {}) es (t, n) →
      ∀ row ∈ t.jobs.rows, row.id = id → n.claims ≤ row.maxAttempts ∧
        (row.status = .dead → n.terminals = 0 → row.maxAttempts ≤ n.failures) := by
  intro h
  have hpoison : ((auditedFleet (fun _ => []) 1).exec (emptyFleet, {}) poisonJob).any (fun t =>
      t.1.jobs.rows.any fun row => decide (row.id = 1 ∧ row.maxAttempts < t.2.claims)) =
        true := by decide +kernel
  obtain ⟨t, ht, hpoison⟩ := (Option.any_eq_true _ _).1 hpoison
  obtain ⟨row, hrow, hmore⟩ := List.any_eq_true.1 hpoison
  obtain ⟨hid, hmore⟩ := of_decide_eq_true hmore
  have hbounded := h (fun _ => []) 1 emptyFleet t.1 t.2 poisonJob rfl
    (fun row hrow => absurd hrow List.not_mem_nil)
    (System.Run.of_exec ht fun _ _ _ _ => trivial) row hrow hid
  omega

/-- A job that fails once and is completed at its second claim. -/
def retryOnce : List FleetEvent :=
  [.enqueue .playerSync (PlayerSyncPayload.updated "ann".toList).toValue 0,
    .spawn "job-worker-0".toList 0,
    .worker 0 .check, .worker 0 (.claim [] id), .worker 0 .next,
      .worker 0 (.returned (.error (.retry []))),
    .worker 0 (.settle true 0), .tick 2000000000, .worker 0 .check, .worker 0 (.claim [] id),
      .worker 0 .next,
    .worker 0 (.returned (.ok ())), .worker 0 (.settle true 0)]

theorem claims_bounded_retryOnce :
    ∃ t, (auditedFleet (fun _ => []) 1).exec (emptyFleet, {}) retryOnce = some t ∧ t.2.claims = 2 ∧
      ∀ row ∈ t.1.jobs.rows, row.id = 1 → row.attempts = t.2.claims ∧ t.2.claims ≤ row.maxAttempts ∧
        (row.status = .dead → t.2.terminals = 0 → row.maxAttempts ≤ t.2.failures) := by
  have honce : ((auditedFleet (fun _ => []) 1).check (fun s e _ => unrevived 1 s.1 e)
    (emptyFleet, {}) retryOnce).any
      (fun t => t.2.claims = 2) = true := by decide
  obtain ⟨t, ht, honce⟩ := (Option.any_eq_true _ _).1 honce
  have hrun := System.Run.of_check ht
  exact ⟨t, hrun.exec_eq, of_decide_eq_true honce,
    claims_bounded (fun _ => []) 1 rfl (fun row hrow => absurd hrow List.not_mem_nil) hrun⟩

end FormRespondentRole
