import FormRespondentRole.JobExclusion

/-!
# Terminal jobs and the owners of locks

`complete`, `fail_retry` and `fail_dead` select their row by its id alone.  As long as no worker
writes back a job whose lock was reaped meanwhile, every write is made by the holder of the lock,
and a completed or dead row is never touched again (`jobs_owned`).
-/

namespace FormRespondentRole

open Foundations

def JobStatus.terminal : JobStatus → Bool
  | completed | dead => true
  | pending | inProgress => false

/-- The rows that are completed or dead are so later. -/
def TerminalKept (t t' : JobTable) : Prop :=
  ∀ row ∈ t.rows, row.status.terminal = true → ∃ row' ∈ t'.rows, row'.id = row.id ∧
    row'.status.terminal = true

/-- The row is in progress under the lock that the worker took. -/
def Worker.Owns (w : Worker) (row : JobRow) : Prop :=
  row.status = .inProgress ∧ row.lockedBy = some w.workerId ∧ row.lockedAt = w.phase.claimedAt

/-- A job in progress is written back by the holder of its lock. -/
def WrittenByOwner (s : Fleet) : FleetEvent → Prop
  | .worker i e => e.writesBack = true → ∀ w job row, s.workers[i]? = some w →
    w.phase.current = some job →
      row ∈ s.jobs.rows → row.id = job.id → row.status = .inProgress → w.Owns row
  | _ => True

/-- The times such that the locks taken before them have been reaped. -/
def noteReap (reaped : List Instant) (s : Fleet) : FleetEvent → List Instant
  | .worker _ (.reap true) => (s.now - seconds stuckLockSecs) :: reaped
  | _ => reaped

/-- The locks of the worker's batch were taken before one of the times. -/
def Worker.reaped (reaped : List Instant) (w : Worker) : Bool :=
  w.phase.claimedAt.any fun claimedAt => reaped.any fun before => decide (claimedAt < before)

/-- No worker writes back a job of a batch that was reaped after its claim. -/
def unreaped (reaped : List Instant) (s : Fleet) : FleetEvent → Bool
  | .worker i e => !e.writesBack || s.workers[i]?.all fun w => !w.reaped reaped
  | _ => true

def watchedFleet (serdeError : Value → Text) : System (Fleet × List Instant) FleetEvent :=
  (fleetSystem serdeError).observe noteReap

/-! ### The invariant -/

/-- What the worker holds and has not lost to a reaping. -/
def Worker.kept (reaped : List Instant) (w : Worker) : List Nat :=
  if w.reaped reaped then [] else w.phase.held

structure Worker.Keeps (reaped : List Instant) (t : JobTable) (w : Worker) : Prop where
  nodup : (w.kept reaped).Nodup
  owns : ∀ id ∈ w.kept reaped, ∃ row ∈ t.rows, row.id = id ∧ w.Owns row

def Apart (reaped : List Instant) (u w : Worker) : Prop := ∀ id ∈ u.kept reaped, id ∉ w.kept reaped

def Fleet.Kept (reaped : List Instant) (s : Fleet) : Prop :=
  Parties (Worker.Keeps reaped s.jobs) (Apart reaped) s.workers

theorem Apart.symm {reaped : List Instant} {u w : Worker} (h : Apart reaped u w) :
    Apart reaped w u :=
  fun id hw hu => h id hu hw

section

variable {serdeError : Value → Text} {now : Instant} {reaped reaped' : List Instant}
  {t t' : JobTable} {w w' : Worker}
  {e : WorkerEvent} {row : JobRow}

private theorem kept_subset (reaped : List Instant) (w : Worker) :
    ∀ id ∈ w.kept reaped, id ∈ w.phase.held := by
  intro id hid
  rw [Worker.kept] at hid
  split at hid
  · exact absurd hid List.not_mem_nil
  · exact hid

private theorem kept_of_held (h : w.phase.held = []) : w.kept reaped = [] := by
  rw [Worker.kept, h, ite_self]

/-- A worker without a batch keeps nothing. -/
theorem Worker.Keeps.of_held (h : w.phase.held = []) : w.Keeps reaped t := by
  refine ⟨?_, fun id hid => ?_⟩
  · rw [kept_of_held h]
    exact List.nodup_nil
  · rw [kept_of_held h] at hid
    exact absurd hid List.not_mem_nil

/-- What is kept after more reapings was kept before. -/
theorem kept_mono (hsub : reaped ⊆ reaped') (w : Worker) :
    w.kept reaped' = [] ∨ (w.reaped reaped' = false ∧ w.kept reaped' = w.kept reaped) := by
  rw [Worker.kept]
  cases hafter : w.reaped reaped' with
  | true => exact Or.inl rfl
  | false =>
    have hbefore : w.reaped reaped = false := by
      by_contra hbefore
      obtain ⟨claimedAt, hclaim, hany⟩ := (Option.any_eq_true _ _).1 (Bool.of_not_eq_false hbefore)
      obtain ⟨before, hmem, hlt⟩ := List.any_eq_true.1 hany
      have hreaped : w.reaped reaped' = true :=
        (Option.any_eq_true _ _).2 ⟨claimedAt, hclaim, List.any_eq_true.2 ⟨before, hsub hmem, hlt⟩⟩
      rw [hafter] at hreaped
      cases hreaped
    refine Or.inr ⟨rfl, ?_⟩
    rw [Worker.kept, hbefore]

theorem Apart.mono (hsub : reaped ⊆ reaped') {u : Worker} (h : Apart reaped u w) :
    Apart reaped' u w := by
  intro id hu hw
  rcases kept_mono hsub u with hnone | ⟨-, hkept⟩
  · exact absurd (hnone ▸ hu) List.not_mem_nil
  rcases kept_mono hsub w with hnone | ⟨-, hkept'⟩
  · exact absurd (hnone ▸ hw) List.not_mem_nil
  exact h id (hkept ▸ hu) (hkept' ▸ hw)

/-- Another worker keeps what it kept, unless a reaping takes it. -/
theorem Worker.Keeps.of_step {u : Worker} (h : u.Keeps reaped t) (hsub : reaped ⊆ reaped')
    (hstep : workerStep serdeError now t w e = some (t', w'))
    (hreap : e = .reap true → now - seconds stuckLockSecs ∈ reaped')
    (hwrite : e.writesBack = true → ∀ job, w.phase.current = some job → job.id ∉ u.kept reaped) :
    u.Keeps reaped' t' := by
  rcases kept_mono hsub u with hnone | ⟨hfresh, hkept⟩
  · refine ⟨?_, fun id hid => ?_⟩
    · rw [hnone]
      exact List.nodup_nil
    · rw [hnone] at hid
      exact absurd hid List.not_mem_nil
  refine ⟨hkept ▸ h.nodup, fun id hid => ?_⟩
  rw [hkept] at hid
  obtain ⟨row, hrow, hrowid, hown⟩ := h.owns id hid
  have hpending : row.status ≠ .pending := by simp [hown.1]
  refine ⟨row, mem_rows_workerStep hstep hrow (fun _ _ _ =>
    JobTable.notMem_picked hrow hpending) ?_ ?_, hrowid, hown⟩
  · -- the reaper finds the lock too young
    intro he
    rw [JobTable.stuck, hown.2.2, Bool.and_eq_false_iff]
    right
    rw [Worker.reaped, Option.any_eq_false] at hfresh
    cases hclaim : u.phase.claimedAt with
    | none => rfl
    | some claimedAt =>
      have hnot := List.any_eq_false.1 (hfresh claimedAt hclaim) _ (hreap he)
      exact Bool.eq_false_iff.2 hnot
  · intro he job hjob heq
    exact hwrite he job hjob (heq ▸ hrowid ▸ hid)

/-- The same batch at another stage. -/
theorem Worker.Keeps.of_stage {claimedAt : Instant} {stage stage' : Stage} {job : Job}
    {rest : List Job} (h : w.Keeps reaped t) (hphase : w.phase = .batch claimedAt stage job rest)
    (hphase' : w'.phase = .batch claimedAt stage' job rest) (hid : w'.workerId = w.workerId) :
    w'.Keeps reaped t ∧ w'.kept reaped = w.kept reaped := by
  have hreaped : w'.reaped reaped = w.reaped reaped := by
    rw [Worker.reaped, Worker.reaped, hphase, hphase']
    rfl
  have hkept : w'.kept reaped = w.kept reaped := by
    rw [Worker.kept, Worker.kept, hreaped, hphase, hphase']
    rfl
  refine ⟨⟨hkept ▸ h.nodup, fun id hmem => ?_⟩, hkept⟩
  obtain ⟨row, hrow, hrowid, hstatus, hby, hat⟩ := h.owns id (hkept ▸ hmem)
  refine ⟨row, hrow, hrowid, hstatus, hid ▸ hby, ?_⟩
  rw [hat, hphase, hphase']
  rfl

/-- The first job of the batch is done with. -/
theorem Worker.Keeps.of_nextPhase {claimedAt : Instant} {stage : Stage} {job : Job}
    {rest : List Job} (h : w.Keeps reaped t) (hphase : w.phase = .batch claimedAt stage job rest)
    (hframe : ∀ row ∈ t.rows, row.id ≠ job.id → w.Owns row → row ∈ t'.rows) :
    (w.goto (nextPhase claimedAt rest)).Keeps reaped t' ∧
      ∀ id ∈ (w.goto (nextPhase claimedAt rest)).kept reaped, id ∈ w.kept reaped := by
  cases rest with
  | nil =>
    have hnone : (w.goto (nextPhase claimedAt [])).kept reaped = [] := kept_of_held rfl
    exact ⟨.of_held rfl, fun id hid => absurd (hnone ▸ hid) List.not_mem_nil⟩
  | cons next rest =>
    have hreaped : (w.goto (.batch claimedAt .waiting next rest)).reaped reaped =
        w.reaped reaped := by
      rw [Worker.reaped, Worker.reaped, hphase]
      rfl
    cases hlost : w.reaped reaped with
    | true =>
      have hnone : (w.goto (nextPhase claimedAt (next :: rest))).kept reaped = [] := by
        rw [Worker.kept, nextPhase, hreaped, hlost, if_pos rfl]
      refine ⟨⟨?_, fun id hid => ?_⟩, fun id hid => ?_⟩
      · rw [hnone]
        exact List.nodup_nil
      · exact absurd (hnone ▸ hid) List.not_mem_nil
      · exact absurd (hnone ▸ hid) List.not_mem_nil
    | false =>
      have hkept : w.kept reaped = job.id :: (next :: rest).map Job.id := by
        rw [Worker.kept, hlost, hphase]
        rfl
      have hkept' : (w.goto (nextPhase claimedAt (next :: rest))).kept reaped =
          (next :: rest).map Job.id := by
        rw [Worker.kept, nextPhase, hreaped, hlost]
        rfl
      have hnodup := List.nodup_cons.1 (hkept ▸ h.nodup)
      refine ⟨⟨hkept' ▸ hnodup.2, fun id hid => ?_⟩, fun id hid => ?_⟩
      · rw [hkept'] at hid
        obtain ⟨row, hrow, hrowid, hown⟩ := h.owns id (hkept ▸ List.mem_cons_of_mem _ hid)
        have hne : row.id ≠ job.id := fun heq => hnodup.1 (heq ▸ hrowid ▸ hid)
        refine ⟨row, hframe row hrow hne hown, hrowid, hown.1, hown.2.1, ?_⟩
        rw [hown.2.2, hphase]
        rfl
      · rw [hkept'] at hid
        rw [hkept]
        exact List.mem_cons_of_mem _ hid

/-- A worker keeps what it kept, or has claimed it. -/
theorem Worker.Keeps.own_step (h : w.Keeps reaped t)
    (hstep : workerStep serdeError now t w e = some (t', w'))
    (hreaped : reaped' = reaped ∨ e = .reap true) :
    w'.Keeps reaped' t' ∧ ∀ id ∈ w'.kept reaped', id ∈ w.kept reaped ∨ ∃ row ∈ t.rows, row.id = id ∧
      row.status = .pending := by
  -- a worker without a batch
  have hnone : ∀ u : Worker, u.phase.held = [] →
      u.Keeps reaped' t' ∧ ∀ id ∈ u.kept reaped', id ∈ w.kept reaped ∨ ∃ row ∈ t.rows, row.id = id ∧
          row.status = .pending :=
    fun u hu => ⟨.of_held hu, fun id hid => absurd (kept_of_held hu ▸ hid) List.not_mem_nil⟩
  have hid := workerStep_workerId hstep
  -- what is written back is the job at hand
  have hframe : ∀ job, w.phase.current = some job → ∀ row ∈ t.rows, row.id ≠ job.id →
      e ≠ .reap true → w.Owns row → row ∈ t'.rows := by
    intro job hjob row hrow hne he hown
    have hpending : row.status ≠ .pending := by simp [hown.1]
    refine mem_rows_workerStep hstep hrow (fun _ _ _ => JobTable.notMem_picked hrow hpending)
      (fun he' => absurd he' he) fun _ job' hjob' => ?_
    rw [hjob, Option.some.injEq] at hjob'
    exact hjob' ▸ hne
  cases e with
  | check =>
    obtain ⟨-, h⟩ := workerStep_check.1 hstep
    cases h
    refine hnone _ ?_
    rw [Worker.goto_phase]
    split
    · rfl
    · split <;> rfl
  | reap succeeds =>
    obtain ⟨-, h⟩ := workerStep_reap.1 hstep
    cases h
    exact hnone _ rfl
  | claim skipped rank =>
    obtain ⟨-, h⟩ := workerStep_claim.1 hstep
    cases h
    have hheld := held_afterClaim now (t.claimBatch now w.workerId batchSize skipped rank).1
    constructor
    · constructor
      · rw [Worker.kept]
        split
        · exact List.nodup_nil
        · rw [Worker.goto_phase, hheld]
          exact JobTable.claimBatch_nodup
      · intro id hmem
        have hmem := kept_subset _ _ id hmem
        rw [Worker.goto_phase, hheld] at hmem
        obtain ⟨job, hjob, rfl⟩ := List.mem_map.1 hmem
        obtain ⟨row, -, -, -, hrow, rfl⟩ := JobTable.exists_of_mem_claimBatch hjob
        refine ⟨_, hrow, rfl, rfl, rfl, ?_⟩
        rw [Worker.goto_phase]
        revert hjob
        cases (t.claimBatch now w.workerId batchSize skipped rank).1 with
        | nil => exact fun hjob => absurd hjob List.not_mem_nil
        | cons first rest => exact fun _ => rfl
    · intro id hmem
      have hmem := kept_subset _ _ id hmem
      rw [Worker.goto_phase, hheld] at hmem
      obtain ⟨job, hjob, rfl⟩ := List.mem_map.1 hmem
      obtain ⟨row, hrow, -, hpending, -, rfl⟩ := JobTable.exists_of_mem_claimBatch hjob
      exact Or.inr ⟨row, hrow, rfl, hpending⟩
  | claimFails =>
    obtain ⟨-, h⟩ := workerStep_claimFails.1 hstep
    cases h
    exact hnone _ rfl
  | wake =>
    obtain ⟨_, _, -, -, h⟩ := workerStep_wake.1 hstep
    cases h
    exact hnone _ rfl
  | wakeForShutdown =>
    obtain ⟨_, _, -, -, h⟩ := workerStep_wakeForShutdown.1 hstep
    cases h
    exact hnone _ rfl
  | next =>
    obtain ⟨claimedAt, job, rest, hphase, heq⟩ := workerStep_next.1 hstep
    cases heq
    obtain rfl := hreaped.resolve_right (by simp)
    obtain ⟨hkeeps, hkept⟩ := h.of_stage hphase rfl hid
    exact ⟨hkeeps, fun id hmem => Or.inl (hkept ▸ hmem)⟩
  | returned result =>
    obtain ⟨claimedAt, since, job, rest, hphase, -, heq⟩ := workerStep_returned.1 hstep
    cases heq
    obtain rfl := hreaped.resolve_right (by simp)
    obtain ⟨hkeeps, hkept⟩ := h.of_stage hphase rfl hid
    exact ⟨hkeeps, fun id hmem => Or.inl (hkept ▸ hmem)⟩
  | settle succeeds jitterMs =>
    obtain ⟨claimedAt, how, job, rest, hphase, heq⟩ := workerStep_settle.1 hstep
    obtain rfl := hreaped.resolve_right (by simp)
    obtain ⟨rfl, rfl⟩ := Prod.mk.inj heq
    obtain ⟨hkeeps, hkept⟩ := h.of_nextPhase hphase fun row hrow hne hown =>
      hframe job (by rw [hphase]; rfl) row hrow hne (by simp) hown
    exact ⟨hkeeps, fun id hmem => Or.inl (hkept id hmem)⟩
  | release succeeds jitterMs =>
    obtain ⟨claimedAt, job, rest, hphase, heq⟩ := workerStep_release.1 hstep
    obtain rfl := hreaped.resolve_right (by simp)
    obtain ⟨rfl, rfl⟩ := Prod.mk.inj heq
    obtain ⟨hkeeps, hkept⟩ := h.of_nextPhase hphase fun row hrow hne hown =>
      hframe job (by rw [hphase]; rfl) row hrow hne (by simp) hown
    exact ⟨hkeeps, fun id hmem => Or.inl (hkept id hmem)⟩

/-- A worker that has not lost its batch owns the job it is at. -/
theorem Worker.Keeps.current (h : w.Keeps reaped t) (hkeeps : w.reaped reaped = false) {job : Job}
    (hjob : w.phase.current = some job) :
    job.id ∈ w.kept reaped ∧ ∀ row ∈ t.rows, row.id = job.id → w.Owns row := by
  have hmem : job.id ∈ w.kept reaped := by
    rw [Worker.kept, hkeeps]
    revert hjob
    cases w.phase with
    | batch claimedAt stage first rest =>
      intro hjob
      cases hjob
      exact List.mem_cons_self
    | _ => exact fun hjob => by cases hjob
  refine ⟨hmem, fun row hrow hid => ?_⟩
  obtain ⟨row', hrow', hid', hown⟩ := h.owns job.id hmem
  rwa [Table.eq_of_key hrow hrow' (hid.trans hid'.symm)]

/-- What the condition says of a step of a worker. -/
theorem unreaped_worker {s : Fleet} {i : Nat} (h : unreaped reaped s (.worker i e) = true)
    (hi : s.workers[i]? = some w) (hwrite : e.writesBack = true) : w.reaped reaped = false := by
  rw [unreaped, hwrite, hi] at h
  simpa using h

end

section

variable {serdeError : Value → Text} {reaped : List Instant} {s s' : Fleet} {e : FleetEvent}

private theorem kept_step (h : s.Kept reaped) (hunreaped : unreaped reaped s e = true)
    (hstep : fleetStep serdeError s e = some s') : s'.Kept (noteReap reaped s e) := by
  cases e with
  | tick dt =>
    simp only [fleetStep, Option.some.injEq] at hstep
    subst hstep
    exact h
  | enqueue kind payload delaySecs =>
    simp only [fleetStep, Option.some.injEq] at hstep
    subst hstep
    refine h.mono (fun u _ hu => ⟨hu.nodup, fun id hid => ?_⟩) fun _ _ hapart => hapart
    obtain ⟨row, hrow, hown⟩ := hu.owns id hid
    exact ⟨row, List.mem_append_left _ hrow, hown⟩
  | spawn workerId replica =>
    simp only [fleetStep, Option.some.injEq] at hstep
    subst hstep
    constructor
    · intro u hu
      rcases List.mem_cons.1 hu with rfl | hu
      · exact .of_held rfl
      · exact h.each u hu
    · refine List.pairwise_cons.2 ⟨fun u _ id hid => ?_, h.pairwise⟩
      rw [kept_of_held rfl] at hid
      exact absurd hid List.not_mem_nil
  | crash i =>
    obtain ⟨pre, w, post, hworkers, -, rfl⟩ := fleetStep_crash hstep
    rw [Fleet.Kept, hworkers] at h
    refine h.replace Apart.symm Apart.symm (fun _ _ hu => hu) (fun _ _ hapart => hapart)
      (.of_held rfl) ?_
    intro u _ id hid
    rw [kept_of_held rfl] at hid
    exact absurd hid List.not_mem_nil
  | trigger replica =>
    simp only [fleetStep, Option.some.injEq] at hstep
    subst hstep
    refine h.map _ (fun u hu => ?_) fun u v hapart => ?_
    · split
      · exact ⟨hu.nodup, hu.owns⟩
      · exact hu
    · split <;> split <;> exact hapart
  | worker i e =>
    obtain ⟨pre, w, post, t', w', hworkers, hlength, hworker, rfl⟩ := fleetStep_worker hstep
    have hi : s.workers[i]? = some w := by
      rw [hworkers, ← hlength]
      simp
    -- the record grows at a reap only
    have hnote : (noteReap reaped s (.worker i e) = reaped ∧ e ≠ .reap true) ∨
        (e = .reap true ∧ noteReap reaped s (.worker i e) = (s.now - seconds stuckLockSecs) ::
            reaped) := by
      cases e with
      | reap succeeds =>
        cases succeeds
        · exact Or.inl ⟨rfl, by simp⟩
        · exact Or.inr ⟨rfl, rfl⟩
      | _ => exact Or.inl ⟨rfl, by simp⟩
    have hsub : reaped ⊆ noteReap reaped s (.worker i e) := by
      rcases hnote with ⟨hsame, -⟩ | ⟨-, hmore⟩
      · rw [hsame]
        exact List.Subset.refl _
      · rw [hmore]
        exact List.subset_cons_self _ _
    have hreap : e = .reap true → s.now - seconds stuckLockSecs ∈
        noteReap reaped s (.worker i e) := by
      rintro rfl
      exact List.mem_cons_self
    rw [Fleet.Kept, hworkers] at h
    have hw := h.each w (List.mem_append_right _ List.mem_cons_self)
    have hown := hw.own_step hworker (hnote.imp And.left And.left)
    have hapart := h.apart Apart.symm
    refine h.replace Apart.symm Apart.symm (fun u hu hkeeps => ?_)
      (fun _ _ hapart => hapart.mono hsub) hown.1 ?_
    · refine hkeeps.of_step hsub hworker hreap fun hwrite job hjob hmem => ?_
      have hcurrent := hw.current (unreaped_worker hunreaped hi hwrite) hjob
      exact hapart u hu job.id hcurrent.1 hmem
    · -- what is claimed was pending, what the others keep is in progress
      intro u hu id hid hid'
      rcases kept_mono hsub u with hnone | ⟨-, hkept⟩
      · exact absurd (hnone ▸ hid') List.not_mem_nil
      rw [hkept] at hid'
      rcases hown.2 id hid with hid | ⟨row, hrow, rfl, hpending⟩
      · exact hapart u hu id hid hid'
      · obtain ⟨row', hrow', hid', hstatus, -⟩ := (h.each u (Parties.mem_of_others hu)).owns _ hid'
        rw [Table.eq_of_key hrow hrow' hid'.symm, hstatus] at hpending
        cases hpending

/-- A row that is completed or dead stays as it is. -/
theorem terminal_step (h : s.Kept reaped) (hunreaped : unreaped reaped s e = true)
    (hstep : fleetStep serdeError s e = some s') {row : JobRow} (hrow : row ∈ s.jobs.rows)
    (hterminal : row.status.terminal = true) : row ∈ s'.jobs.rows := by
  cases e with
  | tick dt =>
    simp only [fleetStep, Option.some.injEq] at hstep
    subst hstep
    exact hrow
  | enqueue kind payload delaySecs =>
    simp only [fleetStep, Option.some.injEq] at hstep
    subst hstep
    exact List.mem_append_left _ hrow
  | spawn workerId replica =>
    simp only [fleetStep, Option.some.injEq] at hstep
    subst hstep
    exact hrow
  | crash i =>
    obtain ⟨pre, w, post, -, -, rfl⟩ := fleetStep_crash hstep
    exact hrow
  | trigger replica =>
    simp only [fleetStep, Option.some.injEq] at hstep
    subst hstep
    exact hrow
  | worker i e =>
    obtain ⟨pre, w, post, t', w', hworkers, hlength, hworker, rfl⟩ := fleetStep_worker hstep
    have hi : s.workers[i]? = some w := by
      rw [hworkers, ← hlength]
      simp
    have hw := h.each w (hworkers ▸ List.mem_append_right _ List.mem_cons_self)
    refine mem_rows_workerStep hworker hrow (fun _ _ _ =>
      JobTable.notMem_picked hrow fun hpending => ?_) ?_ ?_
    · rw [hpending] at hterminal
      cases hterminal
    · intro _
      rw [JobTable.stuck]
      cases hstatus : row.status with
      | inProgress =>
        rw [hstatus] at hterminal
        cases hterminal
      | _ => rfl
    · intro hwrite job hjob hid
      have hcurrent := hw.current (unreaped_worker hunreaped hi hwrite) hjob
      rw [(hcurrent.2 row hrow hid).1] at hterminal
      cases hterminal

end

/-- In a run in which no worker writes back a job of a batch that was reaped after its claim, every
write is made by the owner of the lock, and completed and dead jobs stay so. -/
theorem jobs_owned (serdeError : Value → Text) {s t u : Fleet} {reaped reaped' : List Instant}
    {es fs : List FleetEvent} (hs : s.workers = [])
    (hbefore : (watchedFleet serdeError).Run (fun s e _ => unreaped s.2 s.1 e = true) (s, []) es
      (t, reaped))
    (hafter : (watchedFleet serdeError).Run (fun s e _ => unreaped s.2 s.1 e = true) (t, reaped) fs
      (u, reaped')) :
    TerminalKept t.jobs u.jobs ∧ ∀ e, unreaped reaped t e = true → WrittenByOwner t e := by
  have hkept : t.Kept reaped := by
    refine hbefore.invariant (P := fun s => s.1.Kept s.2) (fun _ _ _ h hunreaped hstep => ?_) ?_
    · obtain ⟨hstep, hnote⟩ := System.observe_step.1 hstep
      rw [hnote]
      exact kept_step h hunreaped hstep
    · rw [Fleet.Kept, hs]
      exact ⟨fun w hw => absurd hw List.not_mem_nil, List.Pairwise.nil⟩
  constructor
  · intro row hrow hterminal
    have hrun : u.Kept reaped' ∧ row ∈ u.jobs.rows := by
      refine hafter.invariant (P := fun s => s.1.Kept s.2 ∧ row ∈ s.1.jobs.rows)
        (fun _ _ _ h hunreaped hstep => ?_) ⟨hkept, hrow⟩
      obtain ⟨hstep, hnote⟩ := System.observe_step.1 hstep
      rw [hnote]
      exact ⟨kept_step h.1 hunreaped hstep, terminal_step h.1 hunreaped hstep h.2 hterminal⟩
    exact ⟨row, hrun.2, rfl, hterminal⟩
  · intro e hunreaped
    cases e with
    | worker i e =>
      intro hwrite w job row hi hjob hrow hid _
      have hw := hkept.each w (List.mem_of_getElem? hi)
      exact (hw.current (unreaped_worker hunreaped hi hwrite) hjob).2 row hrow hid
    | _ => trivial

/-! ### A completed job that is queued again -/

/-- The worker that took the second job over completes it. -/
def completeTwice : List FleetEvent :=
  dispatchTwice ++ [.worker 0 (.returned (.ok ())), .worker 0 (.settle true 0)]

/-- The worker whose lock was reaped fails with the same job, and queues it again. -/
def requeue : List FleetEvent :=
  [.worker 1 (.returned (.error (.retry []))), .worker 1 (.settle true 0)]

theorem not_jobs_owned :
    ¬ ∀ (serdeError : Value → Text) (s t u : Fleet) (es fs : List FleetEvent), s.workers = [] →
      (fleetSystem serdeError).Run (fun _ _ _ => True) s es t →
      (fleetSystem serdeError).Run (fun _ _ _ => True) t fs u →
      TerminalKept t.jobs u.jobs ∧ ∀ e, WrittenByOwner t e := by
  intro h
  have hrequeued : ((fleetSystem fun _ => []).exec emptyFleet completeTwice).any (fun t =>
      ((fleetSystem fun _ => []).exec t requeue).any fun u =>
        t.jobs.rows.map JobRow.status = [.pending, .completed] ∧
          u.jobs.rows.all fun row => !row.status.terminal) = true := by decide
  obtain ⟨t, ht, hrequeued⟩ := (Option.any_eq_true _ _).1 hrequeued
  obtain ⟨u, hu, hrequeued⟩ := (Option.any_eq_true _ _).1 hrequeued
  obtain ⟨hstatus, hall⟩ := of_decide_eq_true hrequeued
  have hmem : JobStatus.completed ∈ t.jobs.rows.map JobRow.status := by
    rw [hstatus]
    decide
  obtain ⟨row, hrow, hcompleted⟩ := List.mem_map.1 hmem
  have hkept := (h (fun _ => []) emptyFleet t u completeTwice requeue rfl
    (System.Run.of_exec ht fun _ _ _ _ => trivial) (System.Run.of_exec hu fun _ _ _ _ => trivial)).1
  obtain ⟨row', hrow', -, hterminal⟩ := hkept row hrow (by rw [hcompleted]; rfl)
  have hnot := List.all_eq_true.1 hall row' hrow'
  rw [hterminal] at hnot
  cases hnot

/-- The same jobs written back by their owner. -/
theorem jobs_owned_once :
    ∃ t u, (watchedFleet fun _ => []).exec (emptyFleet, [])
        (claimPair ++ [.worker 1 (.returned (.ok ())), .worker 1 (.settle true 0),
          .worker 1 .next]) = some t ∧
      (watchedFleet fun _ => []).exec t requeue = some u ∧
      u.1.jobs.rows.map JobRow.status = [.completed, .pending] ∧
      TerminalKept t.1.jobs u.1.jobs ∧ ∀ e, unreaped t.2 t.1 e = true → WrittenByOwner t.1 e := by
  have honce : ((watchedFleet fun _ => []).check (fun s e _ => unreaped s.2 s.1 e) (emptyFleet, [])
      (claimPair ++ [.worker 1 (.returned (.ok ())), .worker 1 (.settle true 0),
          .worker 1 .next])).any (fun t =>
        ((watchedFleet fun _ => []).check (fun s e _ => unreaped s.2 s.1 e) t requeue).any fun u =>
          u.1.jobs.rows.map JobRow.status = [.completed, .pending]) = true := by decide
  obtain ⟨t, ht, honce⟩ := (Option.any_eq_true _ _).1 honce
  obtain ⟨u, hu, honce⟩ := (Option.any_eq_true _ _).1 honce
  have hbefore := System.Run.of_check ht
  have hafter := System.Run.of_check hu
  exact ⟨t, u, hbefore.exec_eq, hafter.exec_eq, of_decide_eq_true honce,
    jobs_owned (fun _ => []) rfl hbefore hafter⟩

end FormRespondentRole
