import FormRespondentRole.Database
import FormRespondentRole.JobExclusion

/-!
# Bursts of saves

`enqueue_config_sync` inserts a job that is due five seconds later, whatever jobs of the link are
waiting already.  So a burst of saves leads to as many runs as it has calls, and they coalesce into
one run after the last call just when there is a single call (`saves_coalesce_iff`).
-/

namespace FormRespondentRole

open Foundations

/-- The payload names the link, as a dispatch reads it. -/
def namesLink (key : LinkKey) (payload : Value) : Bool :=
  decide ((payload.get "guild_id".toList).bind Value.asStr = some key.1 ∧
    (payload.get "role_id".toList).bind Value.asStr = some key.2)

/-- A re-sync of the link that has not been claimed yet. -/
def JobRow.unstarted (key : LinkKey) (row : JobRow) : Bool :=
  decide (row.kind = JobKind.configSync.asStr ∧ row.attempts = 0) && namesLink key row.payload

/-- The times at which the link was saved, and the re-syncs that have started, with the times of
their first claims. -/
structure Burst where
  saves : List Instant := []
  starts : List (Nat × Instant) := []

def noteBurst (key : LinkKey) (b : Burst) (s : Fleet) : FleetEvent → Burst
  | .enqueue kind payload _ =>
    if kind = .configSync ∧ namesLink key payload = true then { b with saves := b.saves ++ [s.now] }
      else b
  | .worker _ (.claim skipped _) =>
    { b with
      starts := b.starts ++ ((s.jobs.rows.filter (·.unstarted key)).filter fun row =>
        row.id ∈ s.jobs.picked s.now batchSize skipped).map fun row => (row.id, s.now) }
  | _ => b

def burstFleet (serdeError : Value → Text) (key : LinkKey) : System (Fleet × Burst) FleetEvent :=
  (fleetSystem serdeError).observe (noteBurst key)

/-- The re-syncs of the link are all enqueued by `enqueue_config_sync`. -/
def savesOnly (key : LinkKey) : FleetEvent → Bool
  | .enqueue kind payload delaySecs =>
    decide (kind = .configSync ∧ namesLink key payload = true → delaySecs = configSyncDelaySecs)
  | _ => true

namespace Burst

/-- Consecutive calls are less than the debounce apart. -/
def Rapid (b : Burst) : Prop := b.saves.IsChain fun τ τ' => τ' < τ + seconds configSyncDelaySecs

/-- One run results, five seconds after the last call or later. -/
def Coalesced (b : Burst) : Prop :=
  ∃ id start, b.starts = [(id, start)] ∧ ∀ τ ∈ b.saves, τ + seconds configSyncDelaySecs ≤ start

end Burst

/-- The row has been claimed. -/
def JobTable.Started (t : JobTable) (id : Nat) : Prop :=
  ∃ row ∈ t.rows, row.id = id ∧ 0 < row.attempts

namespace Fleet

/-- No re-sync of the link waits for its first claim. -/
def Drained (key : LinkKey) (s : Fleet) : Prop := s.jobs.rows.filter (·.unstarted key) = []

/-- What the workers hold has been claimed. -/
def Claimed (s : Fleet) : Prop := ∀ w ∈ s.workers, ∀ id ∈ w.phase.held, s.jobs.Started id

/-- The invariant of a burst: every call has its re-sync, waiting or started. -/
structure Awaits (key : LinkKey) (b : Burst) (s : Fleet) : Prop where
  claimed : s.Claimed
  count : b.starts.length + (s.jobs.rows.filter (·.unstarted key)).length = b.saves.length
  waiting : ∀ row ∈ s.jobs.rows.filter (·.unstarted key), row.status = .pending ∧
    ∃ τ ∈ b.saves, row.nextRunAt = τ + seconds configSyncDelaySecs
  started : ∀ start ∈ b.starts, ∃ τ ∈ b.saves, τ + seconds configSyncDelaySecs ≤ start.2

end Fleet

section

variable {serdeError : Value → Text} {now : Instant} {t t' : JobTable} {w w' : Worker}
  {e : WorkerEvent}

/-- An `UPDATE` that does not change what a job is for, or how often it was claimed. -/
structure Administers (c : SetClause JobRow.id) : Prop where
  kind : ∀ row, (c.set row).kind = row.kind
  payload : ∀ row, (c.set row).payload = row.payload
  attempts : ∀ row, (c.set row).attempts = row.attempts

private theorem administers_finishSet (status : JobStatus) (lastError : Option Text) :
    Administers (JobTable.finishSet status now lastError) :=
  ⟨fun _ => rfl, fun _ => rfl, fun _ => rfl⟩

private theorem administers_retrySet (err : Text) : Administers (JobTable.retrySet now err) :=
  ⟨fun _ => rfl, fun _ => rfl, fun _ => rfl⟩

/-- What a step of a worker does: it claims, or at most it writes back a job that it holds, or jobs
in progress. -/
theorem workerStep_writes (h : workerStep serdeError now t w e = some (t', w')) :
    (∃ skipped rank, e = .claim skipped rank ∧
      t' = (t.claimBatch now w.workerId batchSize skipped rank).2 ∧
        w'.phase.held = (t.claimBatch now w.workerId batchSize skipped rank).1.map Job.id) ∨
      (∀ skipped rank, e ≠ .claim skipped rank) ∧ (∀ id ∈ w'.phase.held, id ∈ w.phase.held) ∧
        (t' = t ∨ ∃ p c, t' = t.update p c ∧ Administers c ∧
          ∀ row ∈ t.rows, p row = true → row.status = .inProgress ∨ row.id ∈ w.phase.held) := by
  cases e with
  | claim skipped rank =>
    obtain ⟨-, h⟩ := workerStep_claim.1 h
    cases h
    exact Or.inl ⟨skipped, rank, rfl, rfl, held_afterClaim now _⟩
  | check =>
    obtain ⟨-, h⟩ := workerStep_check.1 h
    cases h
    refine Or.inr ⟨fun _ _ => WorkerEvent.noConfusion, fun id hid => ?_, Or.inl rfl⟩
    rw [Worker.goto_phase] at hid
    split at hid
    · exact absurd hid List.not_mem_nil
    · split at hid <;> exact absurd hid List.not_mem_nil
  | reap succeeds =>
    obtain ⟨-, h⟩ := workerStep_reap.1 h
    cases h
    refine Or.inr ⟨fun _ _ => WorkerEvent.noConfusion, fun id hid => absurd hid List.not_mem_nil,
      ?_⟩
    cases succeeds
    · exact Or.inl rfl
    · -- what is reaped is in progress
      refine Or.inr ⟨_, _, rfl, ⟨fun _ => rfl, fun _ => rfl, fun _ => rfl⟩, fun row _ hstuck =>
        Or.inl ?_⟩
      exact of_decide_eq_true (Bool.and_eq_true_iff.1 hstuck).1
  | claimFails =>
    obtain ⟨-, h⟩ := workerStep_claimFails.1 h
    cases h
    exact Or.inr ⟨fun _ _ => WorkerEvent.noConfusion, fun id hid => absurd hid List.not_mem_nil,
      Or.inl rfl⟩
  | wake =>
    obtain ⟨_, _, -, -, h⟩ := workerStep_wake.1 h
    cases h
    exact Or.inr ⟨fun _ _ => WorkerEvent.noConfusion, fun id hid => absurd hid List.not_mem_nil,
      Or.inl rfl⟩
  | wakeForShutdown =>
    obtain ⟨_, _, -, -, h⟩ := workerStep_wakeForShutdown.1 h
    cases h
    exact Or.inr ⟨fun _ _ => WorkerEvent.noConfusion, fun id hid => absurd hid List.not_mem_nil,
      Or.inl rfl⟩
  | next =>
    obtain ⟨_, job, rest, hphase, h⟩ := workerStep_next.1 h
    cases h
    refine Or.inr ⟨fun _ _ => WorkerEvent.noConfusion, fun id hid => ?_, Or.inl rfl⟩
    rw [hphase]
    exact hid
  | returned result =>
    obtain ⟨_, _, job, rest, hphase, -, h⟩ := workerStep_returned.1 h
    cases h
    refine Or.inr ⟨fun _ _ => WorkerEvent.noConfusion, fun id hid => ?_, Or.inl rfl⟩
    rw [hphase]
    exact hid
  | settle succeeds jitterMs =>
    obtain ⟨claimedAt, how, job, rest, hphase, h⟩ := workerStep_settle.1 h
    cases h
    have hheld : ∀ row : JobRow, decide (row.id = job.id) = true → row.id ∈ w.phase.held :=
        fun row hid => by
      rw [of_decide_eq_true hid, hphase]
      exact List.mem_cons_self
    refine Or.inr ⟨fun _ _ => WorkerEvent.noConfusion, fun id hid => ?_, ?_⟩
    · rw [Worker.goto_phase, held_nextPhase] at hid
      rw [hphase]
      exact List.mem_cons_of_mem _ hid
    · cases succeeds with
      | false => exact Or.inl rfl
      | true =>
        cases how with
        | complete => exact Or.inr ⟨_, _, rfl, administers_finishSet _ _, fun row _ hid =>
          Or.inr (hheld row hid)⟩
        | failDead => exact Or.inr ⟨_, _, rfl, administers_finishSet _ _, fun row _ hid =>
          Or.inr (hheld row hid)⟩
        | failRetry => exact Or.inr ⟨_, _, rfl, administers_retrySet _, fun row _ hid =>
          Or.inr (hheld row hid)⟩
  | release succeeds jitterMs =>
    obtain ⟨claimedAt, job, rest, hphase, h⟩ := workerStep_release.1 h
    cases h
    refine Or.inr ⟨fun _ _ => WorkerEvent.noConfusion, fun id hid => ?_, ?_⟩
    · rw [Worker.goto_phase, held_nextPhase] at hid
      rw [hphase]
      exact List.mem_cons_of_mem _ hid
    · cases succeeds with
      | false => exact Or.inl rfl
      | true =>
        refine Or.inr ⟨_, _, rfl, administers_retrySet _, fun row _ hid => Or.inr ?_⟩
        rw [of_decide_eq_true hid, hphase]
        exact List.mem_cons_self

/-! ### Steps -/

variable {key : LinkKey} {id : Nat} {b : Burst} {s s' : Fleet}

private theorem unstarted_set {c : SetClause JobRow.id} (hc : Administers c) (row : JobRow) :
    (c.set row).unstarted key = row.unstarted key := by
  rw [JobRow.unstarted, hc.kind, hc.payload, hc.attempts, JobRow.unstarted]

theorem JobTable.Started.update {p : JobRow → Bool} {c : SetClause JobRow.id}
    (hc : ∀ row, row.attempts ≤ (c.set row).attempts) (h : t.Started id) :
    (t.update p c).Started id := by
  obtain ⟨row, hrow, hid, hattempts⟩ := h
  refine ⟨_, Table.mem_update.2 ⟨row, hrow, rfl⟩, ?_⟩
  split
  · exact ⟨(c.key_set row).trans hid, lt_of_lt_of_le hattempts (hc row)⟩
  · exact ⟨hid, hattempts⟩

theorem JobTable.Started.enqueue {kind : JobKind} {payload : Value} {delaySecs : Nat}
    (h : t.Started id) :
    (t.enqueue now kind payload delaySecs).Started id := by
  obtain ⟨row, hrow, h⟩ := h
  exact ⟨row, List.mem_append_left _ hrow, h⟩

/-- A job that has been claimed is not one that waits for its first claim. -/
theorem JobTable.Started.unstarted {row : JobRow} (h : t.Started row.id) (hrow : row ∈ t.rows) :
    row.unstarted key = false := by
  obtain ⟨row', hrow', hid, hattempts⟩ := h
  rw [Table.eq_of_key hrow' hrow hid] at hattempts
  rw [JobRow.unstarted, decide_eq_false fun h => (Nat.ne_of_gt hattempts) h.2, Bool.false_and]

/-- The job of a claimed row is due. -/
theorem due_of_picked {skipped : List Nat} {row : JobRow} (hrow : row ∈ t.rows)
    (h : row.id ∈ t.picked now batchSize skipped) : row.nextRunAt ≤ now := by
  have hmem := (List.mem_insertionSort _).1 (List.mem_of_mem_take h)
  obtain ⟨row', hrow', hid⟩ := List.mem_map.1 hmem
  obtain ⟨hrow', hclaimable⟩ := List.mem_filter.1 hrow'
  rw [Table.eq_of_key hrow' hrow hid] at hclaimable
  exact (of_decide_eq_true hclaimable).2.1

/-- A claim starts what it picks. -/
theorem unstarted_claimBatch (skipped : List Nat) (rank : Nat → Nat) (workerId : Text) :
    (t.claimBatch now workerId batchSize skipped rank).2.rows.filter (·.unstarted key) =
      (t.rows.filter (·.unstarted key)).filter fun row =>
        !decide (row.id ∈ t.picked now batchSize skipped) := by
  change (List.map (fun row => if decide (row.id ∈ t.picked now batchSize skipped) = true then
    (JobTable.claimSet now workerId).set row else row) t.rows).filter _ = _
  rw [List.filter_map, List.filter_filter]
  have hselects : ((·.unstarted key) ∘ fun row : JobRow =>
    if decide (row.id ∈ t.picked now batchSize skipped) = true then
      (JobTable.claimSet now workerId).set row else row) =
      fun row => !decide (row.id ∈ t.picked now batchSize skipped) && row.unstarted key := by
    funext row
    by_cases hpicked : row.id ∈ t.picked now batchSize skipped
    · simp [hpicked, JobRow.unstarted, JobTable.claimSet]
    · simp [hpicked]
  rw [hselects]
  refine (List.map_congr_left fun row hrow => ?_).trans (List.map_id _)
  have hnot := (Bool.and_eq_true_iff.1 (List.mem_filter.1 hrow).2).1
  rw [if_neg (by simpa using hnot)]
  rfl

/-- A step that leaves alone the re-syncs that wait. -/
theorem Fleet.Awaits.of_frame (h : s.Awaits key b) (hclaimed : s'.Claimed)
    (hrows : s'.jobs.rows.filter (·.unstarted key) = s.jobs.rows.filter (·.unstarted key)) :
    s'.Awaits key b :=
  ⟨hclaimed, by rw [hrows]; exact h.count, by rw [hrows]; exact h.waiting, h.started⟩

/-- What the workers hold stays claimed. -/
theorem claimed_worker {pre post : List Worker} (h : s.Claimed)
    (hworkers : s.workers = pre ++ w :: post)
    (hstep : workerStep serdeError s.now s.jobs w e = some (t', w')) :
    Fleet.Claimed { s with jobs := t', workers := pre ++ w' :: post } := by
  have hw : w ∈ s.workers := hworkers ▸ List.mem_append_right _ List.mem_cons_self
  have hall : (∀ id, s.jobs.Started id → t'.Started id) ∧ ∀ id ∈ w'.phase.held, t'.Started id := by
    rcases workerStep_writes hstep with ⟨skipped, rank, rfl, rfl, hheld⟩ |
      ⟨-, hheld, rfl | ⟨p, c, rfl, hc, -⟩⟩
    · refine ⟨fun id hid => hid.update fun _ => Nat.le_succ _, fun id hid => ?_⟩
      rw [hheld] at hid
      obtain ⟨job, hjob, rfl⟩ := List.mem_map.1 hid
      obtain ⟨row, -, -, -, hrow, rfl⟩ := JobTable.exists_of_mem_claimBatch hjob
      exact ⟨_, hrow, rfl, Nat.succ_pos _⟩
    · exact ⟨fun _ hid => hid, fun id hid => h w hw id (hheld id hid)⟩
    · have hmono : ∀ id, s.jobs.Started id → (s.jobs.update p c).Started id :=
        fun id hid => hid.update fun row => (hc.attempts row).ge
      exact ⟨hmono, fun id hid => hmono id (h w hw id (hheld id hid))⟩
  intro u hu id hid
  rcases List.mem_append.1 hu with hu | hu
  · exact hall.1 id (h u (hworkers ▸ List.mem_append_left _ hu) id hid)
  · rcases List.mem_cons.1 hu with rfl | hu
    · exact hall.2 id hid
    · exact hall.1 id (h u (hworkers ▸ List.mem_append_right _ (List.mem_cons_of_mem _ hu)) id hid)

private theorem claimed_step {e : FleetEvent} (h : s.Claimed)
    (hstep : fleetStep serdeError s e = some s') : s'.Claimed := by
  cases e with
  | tick dt =>
    cases hstep
    exact h
  | enqueue kind payload delaySecs =>
    cases hstep
    exact fun w hw id hid => (h w hw id hid).enqueue
  | spawn workerId replica =>
    cases hstep
    exact List.forall_mem_cons.2 ⟨fun id hid => absurd hid List.not_mem_nil, h⟩
  | crash i =>
    obtain ⟨pre, w, post, hworkers, -, rfl⟩ := fleetStep_crash hstep
    intro u hu id hid
    rcases List.mem_append.1 hu with hu | hu
    · exact h u (hworkers ▸ List.mem_append_left _ hu) id hid
    · rcases List.mem_cons.1 hu with rfl | hu
      · exact absurd hid List.not_mem_nil
      · exact h u (hworkers ▸ List.mem_append_right _ (List.mem_cons_of_mem _ hu)) id hid
  | trigger replica =>
    cases hstep
    intro u hu id hid
    obtain ⟨w, hw, rfl⟩ := List.mem_map.1 hu
    refine h w hw id ?_
    split at hid <;> exact hid
  | worker i e =>
    obtain ⟨pre, w, post, t', w', hworkers, -, hworker, rfl⟩ := fleetStep_worker hstep
    exact claimed_worker h hworkers hworker

/-- A fleet that started without workers. -/
theorem claimed_run {s₀ : Fleet} {es : List FleetEvent} (hstart : s₀.workers = [])
    (h : (fleetSystem serdeError).Run (fun _ _ _ => True) s₀ es s) : s.Claimed := by
  have hnone : s₀.Claimed := by
    rw [Fleet.Claimed, hstart]
    exact fun w hw => absurd hw List.not_mem_nil
  exact h.invariant (P := Fleet.Claimed) (fun _ _ _ hs _ hstep => claimed_step hs hstep) hnone

private theorem JobKind.asStr_inj {kind kind' : JobKind} (h : kind.asStr = kind'.asStr) :
    kind = kind' := by
  have hread := congrArg JobKind.fromDb h
  rw [fromDb_asStr, fromDb_asStr] at hread
  exact Option.some.inj hread

private theorem awaits_enqueue {kind : JobKind} {payload : Value} {delaySecs : Nat}
    (h : s.Awaits key b) (honly : savesOnly key (.enqueue kind payload delaySecs) = true) :
    Fleet.Awaits key (noteBurst key b s (.enqueue kind payload delaySecs))
      { s with jobs := s.jobs.enqueue s.now kind payload delaySecs } := by
  have hclaimed : Fleet.Claimed { s with jobs := s.jobs.enqueue s.now kind payload delaySecs } :=
    fun w hw id hid => (h.claimed w hw id hid).enqueue
  have hrows : (s.jobs.enqueue s.now kind payload delaySecs).rows.filter (·.unstarted key) =
      s.jobs.rows.filter (·.unstarted key) ++ [(⟨s.jobs.nextId, kind.asStr, payload, .pending, 0, 8,
        s.now + seconds delaySecs, none, none, none, none⟩ : JobRow)].filter (·.unstarted key) :=
          List.filter_append _ _
  by_cases hlink : kind = .configSync ∧ namesLink key payload = true
  · obtain ⟨rfl, hnames⟩ := hlink
    have hdelay : delaySecs = configSyncDelaySecs := of_decide_eq_true honly ⟨rfl, hnames⟩
    subst hdelay
    have hnew : JobRow.unstarted key
        ⟨s.jobs.nextId, JobKind.configSync.asStr, payload, .pending, 0, 8,
          s.now + seconds configSyncDelaySecs, none, none, none, none⟩ = true := by
      rw [JobRow.unstarted, hnames, decide_eq_true ⟨rfl, rfl⟩]
      rfl
    rw [List.filter_cons_of_pos hnew, List.filter_nil] at hrows
    have hnote : noteBurst key b s (.enqueue .configSync payload configSyncDelaySecs) =
        { b with saves := b.saves ++ [s.now] } := if_pos ⟨rfl, hnames⟩
    rw [hnote]
    refine ⟨hclaimed, ?_, ?_, fun start hstart => ?_⟩
    · rw [hrows, List.length_append, List.length_append, ← Nat.add_assoc, h.count]
      rfl
    · rw [hrows]
      refine List.forall_mem_append.2 ⟨fun row hrow => ?_,
        List.forall_mem_singleton.2 ⟨rfl, s.now, ?_, rfl⟩⟩
      · obtain ⟨hpending, τ, hτ, hdue⟩ := h.waiting row hrow
        exact ⟨hpending, τ, List.mem_append_left _ hτ, hdue⟩
      · exact List.mem_append_right _ (List.mem_singleton_self _)
    · obtain ⟨τ, hτ, hstart⟩ := h.started start hstart
      exact ⟨τ, List.mem_append_left _ hτ, hstart⟩
  · have hnew : JobRow.unstarted key ⟨s.jobs.nextId, kind.asStr, payload, .pending, 0, 8,
      s.now + seconds delaySecs, none,
        none, none, none⟩ ≠ true := by
      rw [JobRow.unstarted, ne_eq, Bool.and_eq_true, decide_eq_true_eq]
      exact fun hboth => hlink ⟨JobKind.asStr_inj hboth.1.1, hboth.2⟩
    rw [List.filter_cons_of_neg hnew, List.filter_nil, List.append_nil] at hrows
    have hnote : noteBurst key b s (.enqueue kind payload delaySecs) = b := if_neg hlink
    rw [hnote]
    exact h.of_frame hclaimed hrows

private theorem awaits_worker {pre post : List Worker} (h : s.Awaits key b)
    (hworkers : s.workers = pre ++ w :: post)
    (hstep : workerStep serdeError s.now s.jobs w e = some (t', w')) :
    Fleet.Awaits key (noteBurst key b s (.worker pre.length e))
    { s with jobs := t', workers := pre ++ w' :: post } := by
  have hw : w ∈ s.workers := hworkers ▸ List.mem_append_right _ List.mem_cons_self
  have hclaimed := claimed_worker h.claimed hworkers hstep
  rcases workerStep_writes hstep with ⟨skipped, rank, rfl, rfl, hheld⟩ | ⟨hnoclaim, hheld, hwrites⟩
  · refine ⟨hclaimed, ?_, ?_, ?_⟩
    · change (b.starts ++ List.map _ _).length + (List.filter _ _).length = b.saves.length
      rw [unstarted_claimBatch, List.length_append, List.length_map, Nat.add_assoc, ← h.count]
      congr 1
      exact (List.length_eq_length_filter_add _).symm
    · rw [unstarted_claimBatch]
      exact fun row hrow => h.waiting row (List.mem_filter.1 hrow).1
    · refine List.forall_mem_append.2 ⟨h.started, fun start hstart => ?_⟩
      obtain ⟨row, hrow, rfl⟩ := List.mem_map.1 hstart
      obtain ⟨hunstarted, hpicked⟩ := List.mem_filter.1 hrow
      obtain ⟨-, τ, hτ, hdue⟩ := h.waiting row hunstarted
      refine ⟨τ, hτ, ?_⟩
      rw [← hdue]
      exact due_of_picked (List.mem_filter.1 hunstarted).1 (of_decide_eq_true hpicked)
  · have hnote : noteBurst key b s (.worker pre.length e) = b := by
      cases e with
      | claim skipped rank => exact absurd rfl (hnoclaim skipped rank)
      | _ => rfl
    rw [hnote]
    rcases hwrites with rfl | ⟨p, c, rfl, hc, hp⟩
    · exact h.of_frame hclaimed rfl
    · refine h.of_frame hclaimed ?_
      refine Table.filter_update_of_not (unstarted_set hc) fun row hrow hunstarted =>
        Bool.eq_false_iff.2 fun hwritten => ?_
      rcases hp row hrow hwritten with hstatus | hholds
      · rw [(h.waiting row (List.mem_filter.2 ⟨hrow, hunstarted⟩)).1] at hstatus
        cases hstatus
      · rw [(h.claimed w hw row.id hholds).unstarted hrow] at hunstarted
        cases hunstarted

/-- The step lemma. -/
theorem awaits_step {e : FleetEvent} (h : s.Awaits key b) (honly : savesOnly key e = true)
    (hstep : fleetStep serdeError s e = some s') : s'.Awaits key (noteBurst key b s e) := by
  have hclaimed := claimed_step h.claimed hstep
  cases e with
  | enqueue kind payload delaySecs =>
    cases hstep
    exact awaits_enqueue h honly
  | worker i e =>
    obtain ⟨pre, w, post, t', w', hworkers, rfl, hworker, rfl⟩ := fleetStep_worker hstep
    exact awaits_worker h hworkers hworker
  | crash i =>
    obtain ⟨pre, w, post, -, -, rfl⟩ := fleetStep_crash hstep
    exact h.of_frame hclaimed rfl
  | tick | spawn | trigger =>
    cases hstep
    exact h.of_frame hclaimed rfl

/-- The run lemma. -/
theorem awaits_run {s₀ : Fleet} {es : List FleetEvent} (hclaimed : s₀.Claimed)
    (hdrained : s₀.Drained key)
    (h : (burstFleet serdeError key).Run (fun _ e _ => savesOnly key e = true) (s₀, {}) es (s, b)) :
    s.Awaits key b := by
  refine h.invariant (P := fun r => r.1.Awaits key r.2) (fun _ _ _ hr honly hstep => ?_) ?_
  · obtain ⟨hstep, hnote⟩ := System.observe_step.1 hstep
    rw [hnote]
    exact awaits_step hr honly hstep
  · have hnone : s₀.jobs.rows.filter (·.unstarted key) = [] := hdrained
    refine ⟨hclaimed, ?_, ?_, fun start hstart => absurd hstart List.not_mem_nil⟩
    · rw [hnone]
      rfl
    · rw [hnone]
      exact fun row hrow => absurd hrow List.not_mem_nil

end

/-- From any reachable state in which no re-sync of the link waits, to any in which those of the
burst have all been claimed: one run results, after the last call and the debounce, just when there
was one call. -/
theorem saves_coalesce_iff (serdeError : Value → Text) (key : LinkKey) {s₀ s : Fleet} {b : Burst}
    {es : List FleetEvent} {start : Fleet} {before : List FleetEvent} (hstart : start.workers = [])
    (hreached : (fleetSystem serdeError).Run (fun _ _ _ => True) start before s₀)
    (hdrained : s₀.Drained key)
    (hrun : (burstFleet serdeError key).Run (fun _ e _ => savesOnly key e = true) (s₀, {}) es
      (s, b))
    (hend : s.Drained key) : b.Coalesced ↔ b.saves.length = 1 := by
  have h := awaits_run (claimed_run hstart hreached) hdrained hrun
  have hnone : s.jobs.rows.filter (·.unstarted key) = [] := hend
  have hcount : b.starts.length = b.saves.length := by
    have hcount := h.count
    rwa [hnone] at hcount
  constructor
  · rintro ⟨id, start, hstarts, -⟩
    rw [← hcount, hstarts]
    rfl
  · intro hone
    obtain ⟨⟨id, start⟩, hstarts⟩ := List.length_eq_one_iff.1 (hcount.trans hone)
    obtain ⟨τ, hsaves⟩ := List.length_eq_one_iff.1 hone
    obtain ⟨τ', hτ', hdue⟩ := h.started (id, start) (hstarts ▸ List.mem_singleton_self _)
    rw [hsaves, List.mem_singleton] at hτ'
    refine ⟨id, start, hstarts, ?_⟩
    rw [hsaves]
    exact List.forall_mem_singleton.2 (hτ' ▸ hdue)

/-- A save of the link, after a while. -/
def saveAfter (dt : Nat) : List FleetEvent :=
  [.tick dt, .enqueue .configSync (configSyncPayload "g".toList "r".toList) configSyncDelaySecs]

/-- A worker that claims when the debounce is over. -/
def claimLater : List FleetEvent :=
  [.tick 5000000000, .spawn "job-worker-0".toList 0, .worker 0 .check, .worker 0 (.claim [] id)]

private theorem drained_emptyFleet (key : LinkKey) : emptyFleet.Drained key := rfl

/-- One save, and one run. -/
theorem saves_coalesce_iff_once :
    ∃ t, (burstFleet (fun _ => []) ("g".toList, "r".toList)).exec (emptyFleet, {})
    (saveAfter 0 ++ claimLater) = some t ∧ t.2.Coalesced := by
  have hruns : ((burstFleet (fun _ => []) ("g".toList, "r".toList)).check
      (fun _ e _ => savesOnly ("g".toList, "r".toList) e) (emptyFleet, {})
        (saveAfter 0 ++ claimLater)).any
      (fun t => decide (t.2.saves.length = 1 ∧
        (t.1.jobs.rows.filter (·.unstarted ("g".toList, "r".toList))).length = 0)) =
      true := by decide
  obtain ⟨t, ht, hlast⟩ := (Option.any_eq_true _ _).1 hruns
  obtain ⟨hone, hnone⟩ := of_decide_eq_true hlast
  have hrun := System.Run.of_check ht
  exact ⟨t, hrun.exec_eq,
    (saves_coalesce_iff (fun _ => []) ("g".toList, "r".toList) rfl (System.Run.nil emptyFleet)
      (drained_emptyFleet _) hrun (List.length_eq_zero_iff.1 hnone)).2 hone⟩

/-- Two saves a second apart, and two runs. -/
theorem not_saves_coalesce :
    ¬∀ (serdeError : Value → Text) (key : LinkKey) (start s₀ s : Fleet) (b : Burst)
      (before es : List FleetEvent),
      start.workers = [] → (fleetSystem serdeError).Run (fun _ _ _ => True) start before s₀ →
      s₀.Drained key →
      (burstFleet serdeError key).Run (fun _ e _ => savesOnly key e = true) (s₀, {}) es (s, b) →
      s.Drained key → b.saves ≠ [] → b.Rapid → b.Coalesced := by
  intro h
  have hruns : ((burstFleet (fun _ => []) ("g".toList, "r".toList)).check
      (fun _ e _ => savesOnly ("g".toList, "r".toList) e) (emptyFleet, {})
      (saveAfter 0 ++ saveAfter 1000000000 ++ claimLater)).any
      (fun t => decide (t.2.saves = [0, 1000000000] ∧ t.2.starts.length = 2 ∧
        (t.1.jobs.rows.filter (·.unstarted ("g".toList, "r".toList))).length = 0)) =
          true := by decide
  obtain ⟨t, ht, hlast⟩ := (Option.any_eq_true _ _).1 hruns
  obtain ⟨hsaves, htwo, hnone⟩ := of_decide_eq_true hlast
  have hrapid : t.2.Rapid := by
    rw [Burst.Rapid, hsaves]
    exact List.isChain_pair.2 (by decide)
  obtain ⟨id, start, hstarts, -⟩ :=
    h (fun _ => []) ("g".toList, "r".toList) emptyFleet emptyFleet t.1 t.2 [] _ rfl
    (System.Run.nil emptyFleet) (drained_emptyFleet _) (System.Run.of_check ht)
      (List.length_eq_zero_iff.1 hnone)
    (by rw [hsaves]; exact List.cons_ne_nil _ _) hrapid
  rw [hstarts] at htwo
  cases htwo

end FormRespondentRole
