import FormRespondentRole.Tables
import FormRespondentRole.Foundations.Table

/-!
# The job queue

The `jobs` table and the statements on it.  A statement is applied at one instant, which is also its
`now()`.  Ids are taken from a sequence, so those of the rows are below the next one.
-/

namespace FormRespondentRole

open Foundations

inductive JobKind
  | playerSync
  | configSync
  | webhook
deriving DecidableEq

def JobKind.asStr : JobKind → Text
  | playerSync => "player_sync".toList
  | configSync => "config_sync".toList
  | webhook => "webhook".toList

def JobKind.fromDb (s : Text) : Option JobKind :=
  if s = "player_sync".toList then some playerSync
  else if s = "config_sync".toList then some configSync
  else if s = "webhook".toList then some webhook
  else none

theorem JobKind.fromDb_asStr (kind : JobKind) : fromDb kind.asStr = some kind := by
  cases kind <;> decide

inductive PlayerSyncPayload
  | updated (discordId : Text)
  | unlinked (discordId : Text)

namespace PlayerSyncPayload

/-- The serialised payload, tagged by its `event`. -/
def toValue : PlayerSyncPayload → Value
  | updated discordId =>
    .object [("discord_id".toList, .string discordId), ("event".toList, .string "updated".toList)]
  | unlinked discordId =>
    .object [("discord_id".toList, .string discordId), ("event".toList, .string "unlinked".toList)]

def ofTag (event discordId : Text) : Option PlayerSyncPayload :=
  if event = "updated".toList then some (updated discordId)
  else if event = "unlinked".toList then some (unlinked discordId)
  else none

/-- A tagged payload may also be given as the array of its tag and its one field. -/
def fromValue : Value → Option PlayerSyncPayload
  | .array [.string event, .string discordId] => ofTag event discordId
  | v => do
    let event ← (v.get "event".toList).bind Value.asStr
    let discordId ← (v.get "discord_id".toList).bind Value.asStr
    ofTag event discordId

theorem fromValue_toValue (p : PlayerSyncPayload) : fromValue p.toValue = some p := by
  cases p <;> rfl

end PlayerSyncPayload

inductive JobStatus
  | pending
  | inProgress
  | completed
  | dead
deriving DecidableEq

/-- A row of `jobs`. -/
structure JobRow where
  id : Nat
  kind : Text
  payload : Value
  status : JobStatus := .pending
  attempts : Nat := 0
  maxAttempts : Nat := 8
  nextRunAt : Instant
  lastError : Option Text := none
  lockedBy : Option Text := none
  lockedAt : Option Instant := none
  completedAt : Option Instant := none

/-- What a claim returns of a row. -/
structure Job where
  id : Nat
  kind : Text
  payload : Value
  attempts : Nat
  maxAttempts : Nat

def JobRow.toJob (row : JobRow) : Job :=
  ⟨row.id, row.kind, row.payload, row.attempts, row.maxAttempts⟩

structure JobTable extends Table JobRow.id where
  nextId : Nat
  fresh : ∀ row ∈ rows, row.id < nextId

namespace JobTable

def empty : JobTable := ⟨Table.empty, 1, fun _ h => absurd h List.not_mem_nil⟩

/-- An `UPDATE` of the table, which leaves the sequence of ids alone. -/
def update (t : JobTable) (p : JobRow → Bool) (c : SetClause JobRow.id) : JobTable where
  toTable := t.toTable.update p c
  nextId := t.nextId
  fresh := by
    intro row hrow
    obtain ⟨row', hrow', rfl⟩ := Table.mem_update.1 hrow
    split
    · rw [c.key_set]
      exact t.fresh row' hrow'
    · exact t.fresh row' hrow'

private theorem nextId_notMem (t : JobTable) : t.nextId ∉ t.rows.map JobRow.id := by
  intro h
  obtain ⟨row, hrow, hid⟩ := List.mem_map.1 h
  have hlt := t.fresh row hrow
  rw [hid] at hlt
  exact lt_irrefl _ hlt

def enqueue (t : JobTable) (now : Instant) (kind : JobKind) (payload : Value) (delaySecs : Nat) :
    JobTable where
  toTable := t.toTable.insert
    { id := t.nextId, kind := kind.asStr, payload := payload,
      nextRunAt := now + seconds delaySecs } t.nextId_notMem
  nextId := t.nextId + 1
  fresh := by
    intro row hrow
    rcases List.mem_append.1 hrow with hrow | hrow
    · exact Nat.lt_succ_of_lt (t.fresh row hrow)
    · rw [List.mem_singleton.1 hrow]
      exact Nat.lt_succ_self _

/-! ### Claiming -/

/-- A row that a claim may take; `skipped` are the rows that other transactions hold locked. -/
def claimable (now : Instant) (skipped : List Nat) (row : JobRow) : Bool :=
  decide (row.status = .pending ∧ row.nextRunAt ≤ now ∧ row.id ∉ skipped)

def picked (t : JobTable) (now : Instant) (batchSize : Nat) (skipped : List Nat) : List Nat :=
  (((t.rows.filter (claimable now skipped)).map JobRow.id).insertionSort (· ≤ ·)).take batchSize

def claimSet (now : Instant) (workerId : Text) : SetClause JobRow.id where
  set row :=
    { row with
      status := .inProgress
      lockedBy := some workerId
      lockedAt := some now
      attempts := row.attempts + 1 }
  key_set _ := rfl

/-- The claimed jobs, and the table with their rows stamped.  The statement may return its rows in
any order, and `rank` is the order of this one. -/
def claimBatch (t : JobTable) (now : Instant) (workerId : Text) (batchSize : Nat)
    (skipped : List Nat) (rank : Nat → Nat) : List Job × JobTable :=
  let ids := t.picked now batchSize skipped
  let t' := t.update (fun row => row.id ∈ ids) (claimSet now workerId)
  (((t'.rows.filter fun row => row.id ∈ ids).map JobRow.toJob).insertionSort fun a b =>
    rank a.id ≤ rank b.id, t')

/-! ### Finishing and reaping -/

def finishSet (status : JobStatus) (now : Instant) (lastError : Option Text) :
    SetClause JobRow.id where
  set row :=
    { row with
      status := status
      completedAt := some now
      lastError := lastError.or row.lastError
      lockedBy := none
      lockedAt := none }
  key_set _ := rfl

def complete (t : JobTable) (now : Instant) (id : Nat) : JobTable :=
  t.update (·.id = id) (finishSet .completed now none)

def failDead (t : JobTable) (now : Instant) (id : Nat) (err : Text) : JobTable :=
  t.update (·.id = id) (finishSet .dead now (some err))

/-- Exponential backoff with up to a second of jitter. -/
def backoffDelay (attempt : Nat) (jitterMs : Nat) : Instant :=
  seconds (2 ^ max 1 (min attempt 8)) + (jitterMs % 1000 : Nat) * 1000000

def retrySet (nextRunAt : Instant) (err : Text) : SetClause JobRow.id where
  set row :=
    { row with
      status := .pending
      nextRunAt := nextRunAt
      lastError := some err
      lockedBy := none
      lockedAt := none }
  key_set _ := rfl

def failRetry (t : JobTable) (now : Instant) (job : Job) (jitterMs : Nat) (err : Text) : JobTable :=
  t.update (·.id = job.id) (retrySet (now + backoffDelay job.attempts jitterMs) err)

/-- In progress and locked before the given time. -/
def stuck (before : Instant) (row : JobRow) : Bool :=
  decide (row.status = .inProgress) && row.lockedAt.any fun t => decide (t < before)

def reapSet (now : Instant) : SetClause JobRow.id where
  set row :=
    { row with
      status := .pending
      nextRunAt := now
      lockedBy := none
      lockedAt := none }
  key_set _ := rfl

def reapStuck (t : JobTable) (now : Instant) (maxLockSecs : Nat) : JobTable :=
  t.update (stuck (now - seconds maxLockSecs)) (reapSet now)

/-- A row that the condition of an `UPDATE` does not meet stays. -/
theorem mem_update_of_not {t : JobTable} {p : JobRow → Bool} {c : SetClause JobRow.id}
    {row : JobRow} (h : row ∈ t.rows) (hp : p row = false) : row ∈ (t.update p c).rows := by
  refine Table.mem_update.2 ⟨row, h, ?_⟩
  rw [hp]
  rfl

theorem update_ids (t : JobTable) (p : JobRow → Bool) (c : SetClause JobRow.id) :
    (t.update p c).rows.map JobRow.id = t.rows.map JobRow.id := by
  have hid : (JobRow.id ∘ fun row => if p row then c.set row else row) = JobRow.id := by
    funext row
    simp only [Function.comp]
    split
    · exact c.key_set row
    · rfl
  exact (List.map_map (l := t.rows)).trans (by rw [hid])

/-- The row that an `UPDATE` writes. -/
theorem eq_set_of_mem_update {t : JobTable} {p : JobRow → Bool} {c : SetClause JobRow.id}
    {row row' : JobRow} (hrow : row ∈ t.rows) (hp : p row = true)
    (hrow' : row' ∈ (t.update p c).rows) (hid : row'.id = row.id) :
    row' = c.set row := by
  obtain ⟨row'', hmem, rfl⟩ := Table.mem_update.1 hrow'
  have hid' : row''.id = row.id := by
    rw [← hid]
    split
    · exact (c.key_set row'').symm
    · rfl
  rw [Table.eq_of_key hmem hrow hid', if_pos hp]

/-! ### Locked rows -/

/-- The row of the job is in progress, under a lock taken at the given time. -/
def Locked (t : JobTable) (id : Nat) (since : Instant) : Prop :=
  ∃ row ∈ t.rows, row.id = id ∧ row.status = .inProgress ∧ row.lockedAt = some since

variable {t : JobTable} {now since : Instant} {id : Nat}

/-- A row has one lock. -/
theorem Locked.unique {since' : Instant} (h : t.Locked id since) (h' : t.Locked id since') :
    since = since' := by
  obtain ⟨row, hrow, hid, -, hsince⟩ := h
  obtain ⟨row', hrow', hid', -, hsince'⟩ := h'
  rw [Table.eq_of_key hrow hrow' (hid.trans hid'.symm), hsince', Option.some.injEq] at hsince
  exact hsince.symm

/-- A lock survives the statements whose condition its row does not meet. -/
theorem Locked.update {p : JobRow → Bool} {c : SetClause JobRow.id} (h : t.Locked id since)
    (hp : ∀ row, row.id = id → row.status = .inProgress → row.lockedAt = some since →
      p row = false) :
    (t.update p c).Locked id since := by
  obtain ⟨row, hrow, hid, hstatus, hsince⟩ := h
  exact ⟨row, mem_update_of_not hrow (hp row hid hstatus hsince), hid, hstatus, hsince⟩

theorem Locked.enqueue {kind : JobKind} {payload : Value} {delaySecs : Nat}
    (h : t.Locked id since) :
    (t.enqueue now kind payload delaySecs).Locked id since := by
  obtain ⟨row, hrow, h⟩ := h
  exact ⟨row, List.mem_append_left _ hrow, h⟩

theorem Locked.reapStuck {maxLockSecs : Nat} (h : t.Locked id since)
    (hfresh : now - seconds maxLockSecs ≤ since) :
    (t.reapStuck now maxLockSecs).Locked id since := by
  refine h.update fun row _ _ hsince => ?_
  rw [stuck, hsince]
  simp only [Option.any_some, Bool.and_eq_false_imp, decide_eq_false_iff_not]
  exact fun _ => not_lt.2 hfresh

theorem mem_picked {batchSize : Nat} {skipped : List Nat}
    (h : id ∈ t.picked now batchSize skipped) :
    ∃ row ∈ t.rows, row.id = id ∧ row.status = .pending := by
  have hmem := (List.mem_insertionSort _).1 (List.mem_of_mem_take h)
  obtain ⟨row, hrow, hid⟩ := List.mem_map.1 hmem
  obtain ⟨hrow, hclaimable⟩ := List.mem_filter.1 hrow
  exact ⟨row, hrow, hid, (of_decide_eq_true hclaimable).1⟩

/-- A claim takes pending rows only. -/
theorem notMem_picked {batchSize : Nat} {skipped : List Nat} {row : JobRow} (hrow : row ∈ t.rows)
    (hstatus : row.status ≠ .pending) : row.id ∉ t.picked now batchSize skipped := by
  intro hpicked
  obtain ⟨row', hrow', hid, hpending⟩ := mem_picked hpicked
  rw [Table.eq_of_key hrow' hrow hid] at hpending
  exact hstatus hpending

section

variable {workerId : Text} {batchSize : Nat} {skipped : List Nat} {rank : Nat → Nat}

/-- A claimed job is a pending row with the stamp of the claim. -/
theorem exists_of_mem_claimBatch {job : Job}
    (h : job ∈ (t.claimBatch now workerId batchSize skipped rank).1) :
    ∃ row ∈ t.rows, row.id ∈ t.picked now batchSize skipped ∧ row.status = .pending ∧
      (claimSet now workerId).set row ∈ (t.claimBatch now workerId batchSize skipped rank).2.rows ∧
      job = ((claimSet now workerId).set row).toJob := by
  obtain ⟨row, hrow, rfl⟩ := List.mem_map.1 ((List.mem_insertionSort _).1 h)
  obtain ⟨hrow, hid⟩ := List.mem_filter.1 hrow
  have hid := of_decide_eq_true hid
  obtain ⟨row', hrow', heq⟩ := Table.mem_update.1 hrow
  by_cases hpicked : row'.id ∈ t.picked now batchSize skipped
  · rw [if_pos (decide_eq_true hpicked)] at heq
    obtain ⟨pending, hpending, hid', hstatus⟩ := mem_picked hpicked
    rw [Table.eq_of_key hpending hrow' hid'] at hstatus
    exact ⟨row', hrow', hpicked, hstatus, heq ▸ hrow, by rw [heq]⟩
  · rw [if_neg fun h => hpicked (of_decide_eq_true h)] at heq
    exact absurd (heq ▸ hid) hpicked

theorem mem_claimBatch {job : Job}
    (h : job ∈ (t.claimBatch now workerId batchSize skipped rank).1) :
    job.id ∈ t.picked now batchSize skipped ∧
      (t.claimBatch now workerId batchSize skipped rank).2.Locked job.id now := by
  obtain ⟨row, -, hid, -, hrow, rfl⟩ := exists_of_mem_claimBatch h
  exact ⟨hid, _, hrow, rfl, rfl, rfl⟩

theorem claimBatch_nodup :
    ((t.claimBatch now workerId batchSize skipped rank).1.map Job.id).Nodup := by
  have hperm := List.perm_insertionSort (fun a b : Job => rank a.id ≤ rank b.id)
    (((t.claimBatch now workerId batchSize skipped rank).2.rows.filter fun row =>
      row.id ∈ t.picked now batchSize skipped).map JobRow.toJob)
  refine (hperm.map Job.id).nodup_iff.2 ?_
  rw [List.map_map]
  exact (t.claimBatch now workerId batchSize skipped rank).2.nodup.sublist
    (List.filter_sublist.map _)

theorem Locked.notMem_picked (h : t.Locked id since) : id ∉ t.picked now batchSize skipped := by
  obtain ⟨row, hrow, hid, hstatus, -⟩ := h
  have hpending : row.status ≠ .pending := by simp [hstatus]
  exact hid ▸ JobTable.notMem_picked hrow hpending

theorem Locked.claimBatch (h : t.Locked id since) :
    (t.claimBatch now workerId batchSize skipped rank).2.Locked id since :=
  h.update fun _ hrow _ _ => decide_eq_false (hrow ▸ h.notMem_picked)

end

end JobTable

end FormRespondentRole
