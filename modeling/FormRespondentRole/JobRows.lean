import FormRespondentRole.JobWorker

/-!
# The rows of the queue

`JobCall` is one call of an operation on `jobs`, by anyone and at any time: a worker may come late,
and write back a job that was reaped and claimed again.  None of them deletes a row, none but an
`enqueue` says what a job is, and all of them keep status and lock together.  So a job that is not
done is pending, or locked and reaped in time.
-/

namespace FormRespondentRole

open Foundations

inductive JobCall
  | enqueue (kind : JobKind) (payload : Value) (delaySecs : Nat)
  | claimBatch (workerId : Text) (batchSize : Nat) (skipped : List Nat) (rank : Nat → Nat)
  | complete (id : Nat)
  | failRetry (job : Job) (jitterMs : Nat) (err : Text)
  | failDead (id : Nat) (err : Text)
  | reapStuck (maxLockSecs : Nat)

def JobCall.enqueues : JobCall → Bool
  | enqueue .. => true
  | _ => false

namespace JobTable

def call (t : JobTable) (now : Instant) : JobCall → JobTable
  | .enqueue kind payload delaySecs => t.enqueue now kind payload delaySecs
  | .claimBatch workerId batchSize skipped rank =>
    (t.claimBatch now workerId batchSize skipped rank).2
  | .complete id => t.complete now id
  | .failRetry job jitterMs err => t.failRetry now job jitterMs err
  | .failDead id err => t.failDead now id err
  | .reapStuck maxLockSecs => t.reapStuck now maxLockSecs

end JobTable

/-- The queue under calls, each with the instant at which it is carried out. -/
def jobSystem : System JobTable (Instant × JobCall) := ⟨fun t e => some (t.call e.1 e.2)⟩

/-! ### Workers -/

/-- A worker does to the table what one call does that is not an `enqueue`, or nothing. -/
theorem workerStep_call {serdeError : Value → Text} {now : Instant} {t t' : JobTable}
    {w w' : Worker} {e : WorkerEvent} (h : workerStep serdeError now t w e = some (t', w')) :
    t' = t ∨
    ∃ c : JobCall, c.enqueues = false ∧ t' = t.call now c := by
  cases e with
  | check =>
    obtain ⟨-, h⟩ := workerStep_check.1 h
    cases h
    exact Or.inl rfl
  | reap succeeds =>
    obtain ⟨-, h⟩ := workerStep_reap.1 h
    cases h
    cases succeeds
    · exact Or.inl rfl
    · exact Or.inr ⟨.reapStuck stuckLockSecs, rfl, rfl⟩
  | claim skipped rank =>
    obtain ⟨-, h⟩ := workerStep_claim.1 h
    cases h
    exact Or.inr ⟨.claimBatch w.workerId batchSize skipped rank, rfl, rfl⟩
  | claimFails =>
    obtain ⟨-, h⟩ := workerStep_claimFails.1 h
    cases h
    exact Or.inl rfl
  | wake =>
    obtain ⟨_, _, -, -, h⟩ := workerStep_wake.1 h
    cases h
    exact Or.inl rfl
  | wakeForShutdown =>
    obtain ⟨_, _, -, -, h⟩ := workerStep_wakeForShutdown.1 h
    cases h
    exact Or.inl rfl
  | next =>
    obtain ⟨_, _, _, -, h⟩ := workerStep_next.1 h
    cases h
    exact Or.inl rfl
  | returned result =>
    obtain ⟨_, _, _, _, -, -, h⟩ := workerStep_returned.1 h
    cases h
    exact Or.inl rfl
  | settle succeeds jitterMs =>
    obtain ⟨_, how, job, _, -, h⟩ := workerStep_settle.1 h
    cases h
    cases succeeds
    · exact Or.inl rfl
    · cases how with
      | complete => exact Or.inr ⟨.complete job.id, rfl, rfl⟩
      | failDead msg => exact Or.inr ⟨.failDead job.id msg, rfl, rfl⟩
      | failRetry msg => exact Or.inr ⟨.failRetry job jitterMs msg, rfl, rfl⟩
  | release succeeds jitterMs =>
    obtain ⟨_, job, _, -, h⟩ := workerStep_release.1 h
    cases h
    cases succeeds
    · exact Or.inl rfl
    · exact Or.inr ⟨.failRetry job jitterMs "worker shutting down".toList, rfl, rfl⟩

/-- The table of a fleet makes a run of the queue. -/
theorem fleet_jobs_run {serdeError : Value → Text} {s s' : Fleet} {es : List FleetEvent}
    (h : (fleetSystem serdeError).Run (fun _ _ _ => True) s es s') :
    ∃ calls, jobSystem.Run (fun _ _ _ => True) s.jobs calls s'.jobs := by
  induction h with
  | nil s => exact ⟨[], System.Run.nil _⟩
  | @cons s m u e es hstep _ _ ih =>
    obtain ⟨calls, hcalls⟩ := ih
    have hm : m.jobs = s.jobs ∨ ∃ c, m.jobs = s.jobs.call s.now c := by
      cases e with
      | tick dt =>
        cases hstep
        exact Or.inl rfl
      | enqueue kind payload delaySecs =>
        cases hstep
        exact Or.inr ⟨.enqueue kind payload delaySecs, rfl⟩
      | spawn workerId replica =>
        cases hstep
        exact Or.inl rfl
      | crash i =>
        have hcrash : fleetStep serdeError s (.crash i) = some m := hstep
        obtain ⟨_, _, _, -, -, rfl⟩ := fleetStep_crash hcrash
        exact Or.inl rfl
      | trigger replica =>
        cases hstep
        exact Or.inl rfl
      | worker i e =>
        obtain ⟨_, _, _, _, _, -, -, hworker, rfl⟩ := fleetStep_worker hstep
        rcases workerStep_call hworker with hsame | ⟨c, -, hcall⟩
        · exact Or.inl hsame
        · exact Or.inr ⟨c, hcall⟩
    rcases hm with hm | ⟨c, hm⟩
    · exact ⟨calls, hm ▸ hcalls⟩
    · exact ⟨(s.now, c) :: calls, System.Run.cons (congrArg some hm.symm) trivial hcalls⟩

/-! ### What a call does to the rows -/

/-- Status and lock say the same. -/
structure JobRow.Sound (row : JobRow) : Prop where
  lockedAt_iff : row.lockedAt.isSome ↔ row.status = .inProgress
  lockedBy_iff : row.lockedBy.isSome ↔ row.lockedAt.isSome

/-- The rows hold the same job. -/
structure JobRow.Same (row row' : JobRow) : Prop where
  id : row'.id = row.id
  kind : row'.kind = row.kind
  payload : row'.payload = row.payload
  maxAttempts : row'.maxAttempts = row.maxAttempts

theorem JobRow.Same.refl (row : JobRow) : row.Same row := ⟨rfl, rfl, rfl, rfl⟩

theorem JobRow.Same.trans {row row' row'' : JobRow} (h : row.Same row') (h' : row'.Same row'') :
    row.Same row'' :=
  ⟨h'.id.trans h.id, h'.kind.trans h.kind, h'.payload.trans h.payload,
    h'.maxAttempts.trans h.maxAttempts⟩

namespace JobTable

variable {t : JobTable} {now : Instant} {c : JobCall}

/-- A call enqueues a job, or it is an `UPDATE` that writes status and lock together and leaves the
job as it is. -/
theorem call_cases (t : JobTable) (now : Instant) (c : JobCall) :
    (∃ kind payload delaySecs, c = .enqueue kind payload delaySecs) ∨
      ∃ p s, t.call now c = t.update p s ∧ ∀ row, (s.set row).Sound ∧ row.Same (s.set row) := by
  have hsame : ∀ row : JobRow, ∀ status attempts nextRunAt lastError lockedBy lockedAt completedAt,
    row.Same
      { row with
        status := status
        attempts := attempts
        nextRunAt := nextRunAt
        lastError := lastError
        lockedBy := lockedBy
        lockedAt := lockedAt
        completedAt := completedAt } := fun row _ _ _ _ _ _ _ => ⟨rfl, rfl, rfl, rfl⟩
  cases c with
  | enqueue kind payload delaySecs => exact Or.inl ⟨kind, payload, delaySecs, rfl⟩
  | claimBatch workerId batchSize skipped rank =>
    exact Or.inr ⟨_, claimSet now workerId, rfl, fun row =>
      ⟨⟨by simp [claimSet], by simp [claimSet]⟩, hsame row _ _ _ _ _ _ _⟩⟩
  | complete id =>
    exact Or.inr ⟨_, finishSet .completed now none, rfl,
      fun row => ⟨⟨by simp [finishSet], by simp [finishSet]⟩, hsame row _ _ _ _ _ _ _⟩⟩
  | failRetry job jitterMs err =>
    exact Or.inr ⟨_, retrySet (now + backoffDelay job.attempts jitterMs) err, rfl,
      fun row => ⟨⟨by simp [retrySet], by simp [retrySet]⟩, hsame row _ _ _ _ _ _ _⟩⟩
  | failDead id err =>
    exact Or.inr ⟨_, finishSet .dead now (some err), rfl,
      fun row => ⟨⟨by simp [finishSet], by simp [finishSet]⟩, hsame row _ _ _ _ _ _ _⟩⟩
  | reapStuck maxLockSecs =>
    exact Or.inr ⟨_, reapSet now, rfl, fun row =>
      ⟨⟨by simp [reapSet], by simp [reapSet]⟩, hsame row _ _ _ _ _ _ _⟩⟩

private theorem sound_call (h : ∀ row ∈ t.rows, row.Sound) :
    ∀ row ∈ (t.call now c).rows, row.Sound := by
  rcases call_cases t now c with ⟨kind, payload, delaySecs, rfl⟩ | ⟨p, s, hcall, hs⟩
  · intro row hrow
    rcases List.mem_append.1 hrow with hrow | hrow
    · exact h row hrow
    · rw [List.mem_singleton.1 hrow]
      exact ⟨by simp, by simp⟩
  · rw [hcall]
    intro row hrow
    obtain ⟨row', hrow', rfl⟩ := Table.mem_update.1 hrow
    by_cases hp : p row' = true
    · rw [if_pos hp]
      exact (hs row').1
    · rw [if_neg hp]
      exact h row' hrow'

theorem same_call {row : JobRow} (hrow : row ∈ t.rows) (now : Instant) (c : JobCall) :
    ∃ row' ∈ (t.call now c).rows, row.Same row' := by
  rcases call_cases t now c with ⟨kind, payload, delaySecs, rfl⟩ | ⟨p, s, hcall, hs⟩
  · exact ⟨row, List.mem_append_left _ hrow, JobRow.Same.refl row⟩
  · rw [hcall]
    refine ⟨_, Table.mem_update.2 ⟨row, hrow, rfl⟩, ?_⟩
    by_cases hp : p row = true
    · rw [if_pos hp]
      exact (hs row).2
    · rw [if_neg hp]
      exact JobRow.Same.refl row

end JobTable

/-! ### Runs -/

theorem sound_run {t t' : JobTable} {calls : List (Instant × JobCall)}
    (h : jobSystem.Run (fun _ _ _ => True) t calls t') (ht : ∀ row ∈ t.rows, row.Sound) :
    ∀ row ∈ t'.rows, row.Sound := by
  refine System.Run.invariant (P := fun t : JobTable => ∀ row ∈ t.rows, row.Sound)
    (fun s e s' hs _ hstep => ?_) h ht
  obtain rfl := Option.some.inj hstep
  exact JobTable.sound_call hs

private theorem same_run {t t' : JobTable} {calls : List (Instant × JobCall)}
    (h : jobSystem.Run (fun _ _ _ => True) t calls t') {row : JobRow} (hrow : row ∈ t.rows) :
    ∃ row' ∈ t'.rows, row.Same row' := by
  refine System.Run.invariant (P := fun t : JobTable => ∃ row' ∈ t.rows, row.Same row')
    (fun s e s' hs _ hstep => ?_) h
    ⟨row, hrow, JobRow.Same.refl row⟩
  obtain rfl := Option.some.inj hstep
  obtain ⟨row', hrow', hsame⟩ := hs
  obtain ⟨row'', hrow'', hsame'⟩ := JobTable.same_call hrow' e.1 e.2
  exact ⟨row'', hrow'', hsame.trans hsame'⟩

private theorem mem_take_of_sorted {l : List Nat} {x n : Nat} (hsorted : l.Pairwise (· ≤ ·))
    (hx : x ∈ l) (hn : (l.filter fun y => decide (y < x)).length < n) : x ∈ l.take n := by
  induction l generalizing n with
  | nil => exact absurd hx List.not_mem_nil
  | cons a l ih =>
    obtain ⟨hle, hsorted⟩ := List.pairwise_cons.1 hsorted
    cases n with
    | zero => exact absurd hn (Nat.not_lt_zero _)
    | succ n =>
      rw [List.take_succ_cons]
      rcases List.mem_cons.1 hx with rfl | hx
      · exact List.mem_cons_self
      · rcases Nat.eq_or_lt_of_le (hle x hx) with rfl | hlt
        · exact List.mem_cons_self
        · rw [List.filter_cons, if_pos (decide_eq_true hlt), List.length_cons] at hn
          exact List.mem_cons_of_mem _ (ih hsorted hx (Nat.lt_of_succ_lt_succ hn))

/-- Rows that a claim prefers to this one. -/
def JobTable.before (t : JobTable) (now : Instant) (skipped : List Nat) (row : JobRow) :
    List JobRow :=
  t.rows.filter fun other => JobTable.claimable now skipped other && decide (other.id < row.id)

/-- A claim picks a pending row whose time has come, if those before it leave room in its batch. -/
theorem picked_of_pending {t : JobTable} {row : JobRow} {now : Instant} {skipped : List Nat}
    {batchSize : Nat} (hrow : row ∈ t.rows) (hstatus : row.status = .pending)
    (hnow : row.nextRunAt ≤ now) (hskipped : row.id ∉ skipped)
    (hroom : (t.before now skipped row).length < batchSize) :
    row.id ∈ t.picked now batchSize skipped := by
  have hclaimable : JobTable.claimable now skipped row = true :=
    decide_eq_true ⟨hstatus, hnow, hskipped⟩
  have hid : row.id ∈ (t.rows.filter (JobTable.claimable now skipped)).map JobRow.id :=
    List.mem_map_of_mem (List.mem_filter.2 ⟨hrow, hclaimable⟩)
  refine mem_take_of_sorted (List.pairwise_insertionSort _ _) ((List.mem_insertionSort _).2 hid) ?_
  rw [((List.perm_insertionSort _ _).filter _).length_eq, List.filter_map, List.length_map,
    List.filter_filter]
  refine lt_of_eq_of_lt (congrArg List.length (List.filter_congr fun other _ => ?_)) hroom
  exact Bool.and_comm _ _

/-- A claim returns the rows that it picks, and locks them. -/
theorem claimed_of_picked {t : JobTable} {row : JobRow} {now : Instant} {skipped : List Nat}
    {batchSize : Nat} (hrow : row ∈ t.rows) (hpicked : row.id ∈ t.picked now batchSize skipped)
    (workerId : Text) (rank : Nat → Nat) :
    let stamped := (JobTable.claimSet now workerId).set row
    stamped.toJob ∈ (t.claimBatch now workerId batchSize skipped rank).1 ∧
      stamped ∈ (t.claimBatch now workerId batchSize skipped rank).2.rows := by
  have hstamped : (JobTable.claimSet now workerId).set row ∈
      (t.claimBatch now workerId batchSize skipped rank).2.rows := by
    refine Table.mem_update.2 ⟨row, hrow, ?_⟩
    rw [if_pos (decide_eq_true hpicked)]
  refine ⟨(List.mem_insertionSort _).2 (List.mem_map_of_mem (List.mem_filter.2 ⟨hstamped, ?_⟩)),
    hstamped⟩
  exact decide_eq_true hpicked

/-- A reaper that comes late enough after a lock was taken finds it and makes its row pending. -/
theorem reaped_of_locked {t : JobTable} {row : JobRow} {since now : Instant} {maxLockSecs : Nat}
    (hrow : row ∈ t.rows) (hstatus : row.status = .inProgress) (hsince : row.lockedAt = some since)
    (hlate : since + seconds maxLockSecs < now) :
    ∃ row' ∈ (t.reapStuck now maxLockSecs).rows, row.Same row' ∧ row'.status = .pending ∧
      row'.nextRunAt = now := by
  have hstuck : JobTable.stuck (now - seconds maxLockSecs) row = true := by
    have hlt : since < now - seconds maxLockSecs := lt_sub_iff_add_lt.2 hlate
    simp [JobTable.stuck, hstatus, hsince, hlt]
  refine ⟨_, Table.mem_update.2 ⟨row, hrow, rfl⟩, ?_⟩
  rw [if_pos hstuck]
  exact ⟨⟨rfl, rfl, rfl, rfl⟩, rfl, rfl⟩

/-- In every state of the queue, status and lock of a row agree, the rows stay with their jobs from
then on, and a row that is neither completed nor dead is pending, and claimed from its time on, or
locked and reaped after a time. -/
theorem no_job_stranded {t : JobTable} {calls : List (Instant × JobCall)}
    (h : jobSystem.Run (fun _ _ _ => True) JobTable.empty calls t) :
    (∀ row ∈ t.rows, (row.status = .inProgress ↔ row.lockedAt.isSome) ∧
      (row.lockedAt.isSome ↔ row.lockedBy.isSome)) ∧
    (∀ later t', jobSystem.Run (fun _ _ _ => True) t later t' → ∀ row ∈ t.rows, ∃ row' ∈ t'.rows,
      row'.id = row.id ∧ row'.kind = row.kind ∧ row'.payload = row.payload ∧
        row'.maxAttempts = row.maxAttempts) ∧
    ∀ row ∈ t.rows, row.status ≠ .completed → row.status ≠ .dead →
      (row.status = .pending ∧
        ∀ now workerId batchSize skipped rank, row.nextRunAt ≤ now → row.id ∉ skipped →
          (t.before now skipped row).length < batchSize →
            (∃ job ∈ (t.claimBatch now workerId batchSize skipped rank).1,
              job.id = row.id ∧ job.kind = row.kind ∧ job.payload = row.payload) ∧
            ∃ row' ∈ (t.claimBatch now workerId batchSize skipped rank).2.rows,
              row'.id = row.id ∧ row'.status = .inProgress ∧ row'.lockedAt = some now ∧
                row'.lockedBy = some workerId) ∨
      (row.status = .inProgress ∧ ∃ since, row.lockedAt = some since ∧
        ∀ now (maxLockSecs : Nat), since + seconds maxLockSecs < now →
          ∃ row' ∈ (t.reapStuck now maxLockSecs).rows,
          row'.id = row.id ∧ row'.status = .pending ∧ row'.nextRunAt = now) := by
  have hsound := sound_run h fun row hrow => absurd hrow List.not_mem_nil
  refine ⟨fun row hrow => ⟨(hsound row hrow).lockedAt_iff.symm,
    (hsound row hrow).lockedBy_iff.symm⟩, ?_, ?_⟩
  · intro later t' hlater row hrow
    obtain ⟨row', hrow', hsame⟩ := same_run hlater hrow
    exact ⟨row', hrow', hsame.id, hsame.kind, hsame.payload, hsame.maxAttempts⟩
  · intro row hrow hcompleted hdead
    cases hstatus : row.status with
    | completed => exact absurd hstatus hcompleted
    | dead => exact absurd hstatus hdead
    | pending =>
      refine Or.inl ⟨rfl, fun now workerId batchSize skipped rank hnow hskipped hroom => ?_⟩
      obtain ⟨hjob, hlocked⟩ :=
        claimed_of_picked hrow (picked_of_pending hrow hstatus hnow hskipped hroom) workerId rank
      exact ⟨⟨_, hjob, rfl, rfl, rfl⟩, _, hlocked, rfl, rfl, rfl, rfl⟩
    | inProgress =>
      obtain ⟨since, hsince⟩ :=
        Option.isSome_iff_exists.1 ((hsound row hrow).lockedAt_iff.2 hstatus)
      refine Or.inr ⟨rfl, since, hsince, fun now maxLockSecs hlate => ?_⟩
      obtain ⟨row', hrow', hsame, hpending, hnext⟩ := reaped_of_locked hrow hstatus hsince hlate
      exact ⟨row', hrow', hsame.id, hpending, hnext⟩

def enqueuedOnce : JobTable := JobTable.empty.call 0 (.enqueue .webhook .null 0)

def enqueuedRow : JobRow :=
  { id := 1, kind := JobKind.webhook.asStr, payload := .null, nextRunAt := 0 }

/-- A job is enqueued and claimed. -/
def claimedOnce : JobTable := enqueuedOnce.call 0 (.claimBatch ['w'] 8 [] id)

def claimedRow : JobRow := (JobTable.claimSet 0 ['w']).set enqueuedRow

/-- The job can be claimed by a batch of one, and when it is claimed it can be reaped. -/
theorem no_job_stranded_claimed :
    (∃ job ∈ (enqueuedOnce.claimBatch 0 ['w'] 1 [] id).1, job.id = 1) ∧
    (∃ row ∈ (enqueuedOnce.claimBatch 0 ['w'] 1 [] id).2.rows,
      row.id = 1 ∧ row.status = .inProgress ∧ row.lockedAt = some 0 ∧ row.lockedBy = some ['w']) ∧
    ∃ since, claimedRow.lockedAt = some since ∧
      ∃ row' ∈ (claimedOnce.reapStuck (since + seconds 601) 600).rows,
      row'.id = claimedRow.id ∧ row'.status = .pending := by
  have henqueued : jobSystem.Run (fun _ _ _ => True) JobTable.empty
      [(0, .enqueue .webhook .null 0)] enqueuedOnce :=
    System.Run.cons rfl trivial (System.Run.nil _)
  have hclaimed : jobSystem.Run (fun _ _ _ => True) JobTable.empty
      [(0, .enqueue .webhook .null 0), (0, .claimBatch ['w'] 8 [] id)] claimedOnce :=
    System.Run.cons rfl trivial (System.Run.cons rfl trivial (System.Run.nil _))
  have hpendingRow : enqueuedRow ∈ enqueuedOnce.rows := List.mem_cons_self
  have hclaimedRow : claimedRow ∈ claimedOnce.rows := List.mem_cons_self
  rcases (no_job_stranded henqueued).2.2 enqueuedRow hpendingRow (by decide)
    (by decide) with ⟨-, hclaim⟩ | ⟨hlocked, -⟩
  · obtain ⟨⟨job, hjob, hid, -⟩, hrow⟩ := hclaim 0 ['w'] 1 [] id le_rfl List.not_mem_nil (by decide)
    refine ⟨⟨job, hjob, hid⟩, hrow, ?_⟩
    rcases (no_job_stranded hclaimed).2.2 claimedRow hclaimedRow (by decide) (by decide) with
      ⟨hpending, -⟩ | ⟨-, since, hsince, hreaped⟩
    · cases hpending
    · obtain ⟨row', hrow', hid', hstatus, -⟩ :=
        hreaped (since + seconds 601) 600 (by simp [seconds])
      exact ⟨since, hsince, row', hrow', hid', hstatus⟩
  · cases hlocked

end FormRespondentRole
