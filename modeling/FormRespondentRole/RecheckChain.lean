import FormRespondentRole.Database
import FormRespondentRole.JobWorker
import FormRespondentRole.SyncFailure

/-!
# Held writes and their re-checks

When RoleLogic holds a write of a link, `sync_for_role_link` ends with `recheck_held`, a single
statement that inserts a config sync unless one is pending.  Its test reads the snapshot of the
statement, which other workers' inserts may have outdated.  A held run always leaves a config sync
behind; two of them stay behind when two of the statements overlap that both find nothing pending,
and at most one does when none do (`recheck_chain`).
-/

namespace FormRespondentRole

open Foundations

/-! ### The run -/

section

open Program

variable {libs : Libs} {guildId roleId : Text} {tr : List SyncExchange} {res : Except AppError Unit}

/-- The upload of a set was held. -/
def UploadHeld (tr : List SyncExchange) : Prop :=
  ∃ guildId roleId userIds token,
    ⟨.uploadUsers guildId roleId userIds token, .error .removalHeld⟩ ∈ tr

/-- The last statement is the one of the re-check, and the run returns what it answers. -/
def EndsInRecheck (guildId roleId : Text) (tr : List SyncExchange)
    (res : Except AppError Unit) : Prop :=
  ∃ before, tr = before ++ [⟨.enqueueConfigSyncUnlessQueued guildId roleId heldRecheckSecs, res⟩]

theorem EndsInRecheck.cons {x : SyncExchange} (h : EndsInRecheck guildId roleId tr res) :
    EndsInRecheck guildId roleId (x :: tr) res := by
  obtain ⟨before, rfl⟩ := h
  exact ⟨x :: before, rfl⟩

theorem EndsInRecheck.append {tr' : List SyncExchange} (h : EndsInRecheck guildId roleId tr res) :
    EndsInRecheck guildId roleId (tr' ++ tr) res := by
  obtain ⟨before, rfl⟩ := h
  exact ⟨tr' ++ before, (List.append_assoc _ _ _).symm⟩

private theorem trace_recheckHeld (h : Trace (recheckHeld guildId roleId).run tr res) :
    EndsInRecheck guildId roleId tr res := by
  obtain ⟨answer, tr', rfl, hend⟩ := trace_call.1 h
  obtain ⟨rfl, rfl⟩ := trace_pure.1 hend
  exact ⟨[], rfl⟩

/-- An upload that is held is followed by the re-check, if nothing but that looks at it. -/
theorem trace_upload_held {userIds : List Text} {token : Text}
    {f : Except AppError Nat → SyncM Unit}
    (hheld : f (.error .removalHeld) = recheckHeld guildId roleId)
    (hother : ∀ answer tr, answer ≠ .error .removalHeld → Trace (f answer).run tr res →
      UploadHeld tr →
      EndsInRecheck guildId roleId tr res)
    (h : Trace (attempt (.uploadUsers guildId roleId userIds token) >>= f).run tr res)
    (hupload : UploadHeld tr) :
    EndsInRecheck guildId roleId tr res := by
  rw [run_attempt_bind, trace_call] at h
  obtain ⟨answer, tail, rfl, h⟩ := h
  by_cases hanswer : answer = .error .removalHeld
  · rw [hanswer, hheld] at h
    exact (trace_recheckHeld h).cons
  · refine (hother answer tail hanswer h ?_).cons
    obtain ⟨g, r, ids, t, hmem⟩ := hupload
    rcases List.mem_cons.1 hmem with heq | hmem
    · cases heq
      exact absurd rfl hanswer
    · exact ⟨g, r, ids, t, hmem⟩

/-- A single call that is no upload. -/
theorem not_uploadHeld_single {c : SyncCall} {answer : Except AppError c.Answer}
    (hc : ∀ g r ids t, c ≠ .uploadUsers g r ids t) : ¬UploadHeld [⟨c, answer⟩] := by
  rintro ⟨g, r, ids, t, hmem⟩
  exact hc g r ids t (congrArg Exchange.call (List.mem_singleton.1 hmem)).symm

private theorem not_uploadHeld_ask {c : SyncCall} {r : Except AppError c.Answer}
    (hc : ∀ g r ids t, c ≠ .uploadUsers g r ids t) (h : Trace (ask c).run tr r) :
    ¬UploadHeld tr := by
  obtain ⟨answer, tr', rfl, hend⟩ := trace_call.1 h
  obtain ⟨rfl, -⟩ := trace_pure.1 hend
  exact not_uploadHeld_single hc

private theorem not_uploadHeld_pure {r : Except AppError Unit} (h : Trace (.pure r) tr res) :
    ¬UploadHeld tr := by
  obtain ⟨rfl, -⟩ := trace_pure.1 h
  rintro ⟨_, _, _, _, hmem⟩
  exact List.not_mem_nil hmem

private theorem not_uploadHeld_deleteOrphan {g r : Text}
    (h : Trace (deleteOrphanRoleLink g r).run tr res) : ¬UploadHeld tr := by
  rw [deleteOrphanRoleLink, run_attempt_bind, trace_call] at h
  obtain ⟨answer, tr', rfl, h⟩ := h
  obtain ⟨rfl, -⟩ := trace_pure.1 h
  exact not_uploadHeld_single fun _ _ _ _ => SyncCall.noConfusion

private theorem trace_drainLink_held {token : Text}
    (h : Trace (drainLink guildId roleId token).run tr res) (hheld : UploadHeld tr) :
    EndsInRecheck guildId roleId tr res := by
  refine trace_upload_held rfl (fun answer tr hne h hheld => ?_) h hheld
  split at h
  · exact absurd hheld (not_uploadHeld_ask (fun _ _ _ _ => SyncCall.noConfusion) h)
  · exact absurd hheld (not_uploadHeld_deleteOrphan h)
  · exact absurd hheld (not_uploadHeld_pure h)
  · exact absurd rfl hne
  · exact absurd hheld (not_uploadHeld_pure h)

private theorem not_uploadHeld_queryQualifying {formId : Text} {optoutIds : List Text}
    {grantAny : Bool} {conditions : List Condition} {limit : Option Nat}
    {r : Except AppError (List Text)}
    (h : Trace (queryQualifying libs formId optoutIds grantAny conditions limit).run tr r) :
    ¬UploadHeld tr := by
  rcases trace_ask_bind.1 h with ⟨e, rfl, -⟩ | ⟨rows, tr', rfl, hrest⟩
  · exact not_uploadHeld_single fun _ _ _ _ => SyncCall.noConfusion
  · obtain ⟨rfl, -⟩ := trace_pure.1 hrest
    exact not_uploadHeld_single fun _ _ _ _ => SyncCall.noConfusion

/-- A sequence whose first part uploads nothing. -/
theorem trace_bind_held {α : Type} {x : SyncM α} {f : α → SyncM Unit}
    (hfirst : ∀ tr r, Trace x.run tr r → ¬UploadHeld tr)
    (hrest : ∀ a tr, Trace (f a).run tr res → UploadHeld tr → EndsInRecheck guildId roleId tr res)
    (h : Trace (x >>= f).run tr res) (hheld : UploadHeld tr) :
    EndsInRecheck guildId roleId tr res := by
  rcases trace_except_bind.1 h with ⟨e, -, h₁⟩ | ⟨a, tr₁, tr₂, rfl, h₁, h₂⟩
  · exact absurd hheld (hfirst _ _ h₁)
  · refine (hrest a tr₂ h₂ ?_).append
    obtain ⟨g, r, ids, t, hmem⟩ := hheld
    rcases List.mem_append.1 hmem with hmem | hmem
    · exact absurd ⟨g, r, ids, t, hmem⟩ (hfirst _ _ h₁)
    · exact ⟨g, r, ids, t, hmem⟩

private theorem trace_uploadCapped_held {token formId : Text} {optoutIds : List Text}
    {grantAny : Bool} {conditions : List Condition} {limit : Nat}
    (h : Trace (uploadCapped libs guildId roleId token formId optoutIds grantAny
      conditions limit).run tr res)
    (hheld : UploadHeld tr) : EndsInRecheck guildId roleId tr res := by
  refine trace_bind_held (fun _ _ => not_uploadHeld_queryQualifying)
    (fun capped tr h hheld => ?_) h hheld
  refine trace_upload_held rfl (fun answer tr hne h hheld => ?_) h hheld
  split at h
  · exact absurd hheld (not_uploadHeld_ask (fun _ _ _ _ => SyncCall.noConfusion) h)
  · exact absurd hheld (not_uploadHeld_deleteOrphan h)
  · exact absurd hheld (not_uploadHeld_pure h)
  · exact absurd rfl hne
  · exact absurd hheld (not_uploadHeld_pure h)

private theorem trace_syncConfigured_held {token formId : Text} {grantAny : Bool}
    {conditions : List Condition}
    (h : Trace (syncConfigured libs guildId roleId token formId grantAny conditions).run tr res)
    (hheld : UploadHeld tr) : EndsInRecheck guildId roleId tr res := by
  have hask : ∀ c : SyncCall, (∀ g r ids t, c ≠ .uploadUsers g r ids t) →
      ∀ tr r, Trace (ask c).run tr r → ¬UploadHeld tr :=
    fun c hc _ _ => not_uploadHeld_ask hc
  refine trace_bind_held (hask _ fun _ _ _ _ => SyncCall.noConfusion)
    (fun optoutIds tr h hheld => ?_) h hheld
  refine trace_bind_held (fun _ _ => not_uploadHeld_queryQualifying)
    (fun qualifyingIds tr h hheld => ?_) h hheld
  refine trace_bind_held (hask _ fun _ _ _ _ => SyncCall.noConfusion)
    (fun current tr h hheld => ?_) h hheld
  split at h
  · exact absurd hheld (not_uploadHeld_pure h)
  refine trace_upload_held rfl (fun answer tr hne h hheld => ?_) h hheld
  split at h
  · exact absurd hheld (not_uploadHeld_ask (fun _ _ _ _ => SyncCall.noConfusion) h)
  · exact absurd hheld (not_uploadHeld_deleteOrphan h)
  · exact absurd hheld (not_uploadHeld_pure h)
  · exact absurd rfl hne
  · exact trace_uploadCapped_held h hheld
  · exact absurd hheld (not_uploadHeld_pure h)

/-- A run whose upload is held ends in the re-check. -/
theorem trace_syncForRoleLink_held (h : Trace (syncForRoleLink libs guildId roleId).run tr res)
    (hheld : UploadHeld tr) :
    EndsInRecheck guildId roleId tr res := by
  refine trace_bind_held (fun _ _ => not_uploadHeld_ask fun _ _ _ _ => SyncCall.noConfusion)
    (fun link tr h hheld => ?_) h
    hheld
  cases link with
  | none => exact absurd hheld (not_uploadHeld_pure h)
  | some link =>
    dsimp only at h
    split at h
    · exact absurd hheld (not_uploadHeld_pure h)
    · split at h
      · exact trace_drainLink_held h hheld
      · exact trace_syncConfigured_held h hheld

end

/-! ### The statement -/

/-- The payload is that of the link's config sync, whose fields are always written in this order. -/
def samePayload (key : LinkKey) : Value → Bool
  | .object [(a, .string g), (b, .string r)] =>
    decide (a = "guild_id".toList ∧ g = key.1 ∧ b = "role_id".toList ∧ r = key.2)
  | _ => false

private theorem samePayload_iff {key : LinkKey} {payload : Value} :
    samePayload key payload = true ↔ payload = configSyncPayload key.1 key.2 := by
  constructor
  · intro h
    unfold samePayload at h
    split at h
    · obtain ⟨rfl, rfl, rfl, rfl⟩ := of_decide_eq_true h
      rfl
    · cases h
  · rintro rfl
    exact decide_eq_true ⟨rfl, rfl, rfl, rfl⟩

/-- A config sync of the link. -/
def JobRow.resyncs (key : LinkKey) (row : JobRow) : Bool :=
  decide (row.kind = JobKind.configSync.asStr) && samePayload key row.payload

def JobTable.queued (key : LinkKey) (t : JobTable) : Bool :=
  t.rows.any fun row => row.resyncs key && decide (row.status = .pending)

/-- `INSERT … WHERE NOT EXISTS`: the test reads the snapshot of the statement, whose time is also
its `now()`. -/
def JobTable.enqueueConfigSyncUnlessQueued (t : JobTable) (snapshot : JobTable) (now : Instant)
    (key : LinkKey) (delaySecs : Nat) : JobTable :=
  if snapshot.queued key then t
    else t.enqueue now .configSync (configSyncPayload key.1 key.2) delaySecs

/-! ### Several workers -/

/-- Where a worker is with the first job of its batch. -/
inductive HeldStage
  | running
  /-- RoleLogic has held the write, and the statement of the re-check is under way. -/
  | checking (snapshot : JobTable) (since : Instant)
  | ended

/-- A worker, all of whose runs on the link are held. -/
structure HeldWorker where
  workerId : Text
  batch : List Job := []
  stage : HeldStage := .running

structure Chain where
  now : Instant
  jobs : JobTable
  workers : List HeldWorker
  /-- The rows that re-checks have inserted. -/
  created : List Nat := []
  /-- The snapshots of the re-checks that the ended runs have made. -/
  ended : List JobTable := []

inductive HeldEvent
  | claim (skipped : List Nat) (rank : Nat → Nat)
  /-- The statement of the re-check takes its snapshot. -/
  | begin
  /-- It commits. -/
  | insert
  | complete

inductive ChainEvent
  | tick (dt : Nat)
  | enqueue (kind : JobKind) (payload : Value) (delaySecs : Nat)
  | worker (i : Nat) (e : HeldEvent)

section

variable (key : LinkKey)

def Job.resyncs (job : Job) : Bool :=
  decide (job.kind = JobKind.configSync.asStr) && samePayload key job.payload

def Chain.recheck (s : Chain) (snapshot : JobTable) (since : Instant) : Chain :=
  { s with
    jobs := s.jobs.enqueueConfigSyncUnlessQueued snapshot since key heldRecheckSecs
    created := if snapshot.queued key then s.created else s.jobs.nextId :: s.created
    ended := snapshot :: s.ended }

def heldStep (s : Chain) (w : HeldWorker) : HeldEvent → Option (Chain × HeldWorker)
  | .claim skipped rank =>
    match w.batch with
    | [] =>
      let (claimed, jobs) := s.jobs.claimBatch s.now w.workerId batchSize skipped rank
      some ({ s with jobs := jobs }, { w with batch := claimed, stage := .running })
    | _ :: _ => none
  | .begin =>
    match w.batch, w.stage with
    | job :: _, .running => if job.resyncs key then
      some (s, { w with stage := .checking s.jobs s.now }) else none
    | _, _ => none
  | .insert =>
    match w.stage with
    | .checking snapshot since => some (s.recheck key snapshot since, { w with stage := .ended })
    | _ => none
  | .complete =>
    match w.batch, w.stage with
    | job :: rest, .ended =>
      some ({ s with jobs := s.jobs.complete s.now job.id },
        { w with batch := rest, stage := .running })
    -- a job of something else
    | job :: rest, .running =>
      if job.resyncs key then none
      else some ({ s with jobs := s.jobs.complete s.now job.id },
        { w with batch := rest, stage := .running })
    | _, _ => none

/-- Only re-checks enqueue config syncs of the link. -/
def chainStep (s : Chain) : ChainEvent → Option Chain
  | .tick dt => some { s with now := s.now + dt }
  | .enqueue kind payload delaySecs =>
    if kind = .configSync ∧ samePayload key payload = true then none
    else some { s with jobs := s.jobs.enqueue s.now kind payload delaySecs }
  | .worker i e =>
    (partyAt s.workers i).bind fun (pre, w, post) =>
      (heldStep key s w e).map fun (s, w) => { s with workers := pre ++ w :: post }

def chainSystem : System Chain ChainEvent := ⟨chainStep key⟩

end

def HeldWorker.checking (w : HeldWorker) : Bool :=
  match w.stage with
  | .checking _ _ => true
  | _ => false

/-- A statement is under way whose snapshot had no pending config sync of the link. -/
def HeldWorker.inserts (key : LinkKey) (w : HeldWorker) : Bool :=
  match w.stage with
  | .checking snapshot _ => !snapshot.queued key
  | _ => false

/-- No two of the statements that find nothing pending overlap: one begins when no other is under
way. -/
def apart (key : LinkKey) (s : Chain) : ChainEvent → Bool
  | .worker _ .begin => s.jobs.queued key || s.workers.all fun w => !w.inserts key
  | _ => true

namespace Chain

/-- The config syncs that re-checks have inserted and nobody has claimed. -/
def pendingChecks (s : Chain) : List JobRow :=
  s.jobs.rows.filter fun row => decide (row.status = .pending ∧ row.id ∈ s.created)

/-- Every ended run has left a config sync of the link that nobody had claimed when its statement
began: it is pending, or has been claimed since. -/
def Alive (key : LinkKey) (s : Chain) : Prop :=
  ∀ snapshot ∈ s.ended, ∃ row ∈ s.jobs.rows, row.resyncs key = true ∧
    ∀ row₀ ∈ snapshot.rows, row₀.id = row.id → row₀.status = .pending

def AtMostOne (s : Chain) : Prop := s.pendingChecks.length ≤ 1

/-- Before any re-check of the link. -/
structure Fresh (s : Chain) : Prop where
  created : s.created = []
  ended : s.ended = []
  idle : ∀ w ∈ s.workers, w.checking = false

end Chain

section

variable {key : LinkKey} {s s' : Chain} {w w' : HeldWorker} {e : HeldEvent}
  {t t' t'' snapshot : JobTable}

private theorem heldStep_cases (h : heldStep key s w e = some (s', w')) :
    (∃ skipped rank, s' =
      { s with jobs := (s.jobs.claimBatch s.now w.workerId batchSize skipped rank).2 } ∧
        w'.checking = false) ∨
      (e = .begin ∧ s' = s ∧ w' = { w with stage := .checking s.jobs s.now }) ∨
      (∃ snapshot since, w.stage = .checking snapshot since ∧ s' = s.recheck key snapshot since ∧
        w'.checking = false) ∨
      ∃ id, s' = { s with jobs := s.jobs.complete s.now id } ∧ w'.checking = false := by
  cases e with
  | claim skipped rank =>
    simp only [heldStep] at h
    split at h
    · cases h
      exact Or.inl ⟨skipped, rank, rfl, rfl⟩
    · cases h
  | begin =>
    simp only [heldStep] at h
    split at h
    · split at h
      · cases h
        exact Or.inr (Or.inl ⟨rfl, rfl, rfl⟩)
      · cases h
    · cases h
  | insert =>
    simp only [heldStep] at h
    split at h
    · rename_i snapshot since hstage
      cases h
      exact Or.inr (Or.inr (Or.inl ⟨snapshot, since, hstage, rfl, rfl⟩))
    · cases h
  | complete =>
    simp only [heldStep] at h
    split at h
    · cases h
      exact Or.inr (Or.inr (Or.inr ⟨_, rfl, rfl⟩))
    · split at h
      · cases h
      · cases h
        exact Or.inr (Or.inr (Or.inr ⟨_, rfl, rfl⟩))
    · cases h

/-! ### The chain does not die -/

/-- No row is lost, and what it is for stays. -/
def Grew (t t' : JobTable) : Prop :=
  ∀ row ∈ t.rows, ∃ row' ∈ t'.rows, row'.id = row.id ∧ row'.kind = row.kind ∧
    row'.payload = row.payload

theorem Grew.refl (t : JobTable) : Grew t t := fun row hrow => ⟨row, hrow, rfl, rfl, rfl⟩

theorem Grew.trans (h : Grew t t') (h' : Grew t' t'') : Grew t t'' := by
  intro row hrow
  obtain ⟨row', hrow', hid, hkind, hpayload⟩ := h row hrow
  obtain ⟨row'', hrow'', hid', hkind', hpayload'⟩ := h' row' hrow'
  exact ⟨row'', hrow'', hid'.trans hid, hkind'.trans hkind, hpayload'.trans hpayload⟩

theorem Grew.update {p : JobRow → Bool} {c : SetClause JobRow.id}
    (hkind : ∀ row, (c.set row).kind = row.kind)
    (hpayload : ∀ row, (c.set row).payload = row.payload) : Grew t (t.update p c) := by
  intro row hrow
  refine ⟨_, Table.mem_update.2 ⟨row, hrow, rfl⟩, ?_⟩
  split
  · exact ⟨c.key_set row, hkind row, hpayload row⟩
  · exact ⟨rfl, rfl, rfl⟩

theorem Grew.enqueue {now : Instant} {kind : JobKind} {payload : Value} {delaySecs : Nat} :
    Grew t (t.enqueue now kind payload delaySecs) :=
  fun row hrow => ⟨row, List.mem_append_left _ hrow, rfl, rfl, rfl⟩

private theorem Grew.enqueueUnlessQueued {now : Instant} {delaySecs : Nat} :
    Grew t (t.enqueueConfigSyncUnlessQueued snapshot now key delaySecs) := by
  rw [JobTable.enqueueConfigSyncUnlessQueued]
  split
  · exact Grew.refl t
  · exact Grew.enqueue

/-- A config sync of the link that nobody had claimed at the time of the snapshot. -/
def Follows (key : LinkKey) (snapshot t : JobTable) : Prop :=
  ∃ row ∈ t.rows, row.resyncs key = true ∧ ∀ row₀ ∈ snapshot.rows, row₀.id = row.id →
    row₀.status = .pending

theorem Follows.mono (h : Follows key snapshot t) (hgrew : Grew t t') :
    Follows key snapshot t' := by
  obtain ⟨row, hrow, hlink, hpending⟩ := h
  obtain ⟨row', hrow', hid, hkind, hpayload⟩ := hgrew row hrow
  refine ⟨row', hrow', ?_, fun row₀ hrow₀ hid' => hpending row₀ hrow₀ (hid'.trans hid)⟩
  rw [JobRow.resyncs, hkind, hpayload]
  exact hlink

/-- The statement finds such a row in its snapshot, or inserts one. -/
theorem follows_recheck {now : Instant} {delaySecs : Nat} (hgrew : Grew snapshot t) :
    Follows key snapshot (t.enqueueConfigSyncUnlessQueued snapshot now key delaySecs) := by
  rw [JobTable.enqueueConfigSyncUnlessQueued]
  split
  · rename_i hqueued
    obtain ⟨row, hrow, hfound⟩ := List.any_eq_true.1 hqueued
    obtain ⟨hlink, hpending⟩ := Bool.and_eq_true_iff.1 hfound
    refine Follows.mono ⟨row, hrow, hlink, fun row₀ hrow₀ hid => ?_⟩ hgrew
    rw [Table.eq_of_key hrow₀ hrow hid]
    exact of_decide_eq_true hpending
  · refine ⟨_, List.mem_append_right _ (List.mem_singleton_self _), ?_, fun row₀ hrow₀ hid => ?_⟩
    · rw [JobRow.resyncs, samePayload_iff.2 rfl, decide_eq_true rfl]
      rfl
    · -- the row is new to the snapshot
      obtain ⟨row, hrow, hid', -, -⟩ := hgrew row₀ hrow₀
      exact absurd (hid'.trans hid) (Nat.ne_of_lt (t.fresh row hrow))

/-- The invariant: what the ended runs have left, and the snapshots of the statements under way. -/
structure Chain.Followed (key : LinkKey) (s : Chain) : Prop where
  ended : ∀ snapshot ∈ s.ended, Follows key snapshot s.jobs
  grew : ∀ w ∈ s.workers, ∀ snapshot since, w.stage = .checking snapshot since →
    Grew snapshot s.jobs

private theorem not_checking (h : w.checking = false) {since : Instant} :
    w.stage ≠ .checking snapshot since := by
  intro hstage
  rw [HeldWorker.checking, hstage] at h
  cases h

private theorem followed_worker {pre post : List HeldWorker} (h : s.Followed key)
    (hworkers : s.workers = pre ++ w :: post) (hstep : heldStep key s w e = some (s', w')) :
    Chain.Followed key { s' with workers := pre ++ w' :: post } := by
  have hw : w ∈ s.workers := hworkers ▸ List.mem_append_right _ List.mem_cons_self
  have hothers : ∀ {t}, Grew s.jobs t →
    (∀ snapshot since, w'.stage = .checking snapshot since → Grew snapshot t) →
      ∀ u ∈ pre ++ w' :: post, ∀ snapshot since, u.stage = .checking snapshot since →
          Grew snapshot t := by
    intro t hgrew hw' u hu snapshot since hstage
    rcases List.mem_append.1 hu with hu | hu
    · exact (h.grew u (hworkers ▸ List.mem_append_left _ hu) snapshot since hstage).trans hgrew
    · rcases List.mem_cons.1 hu with rfl | hu
      · exact hw' snapshot since hstage
      · exact (h.grew u (hworkers ▸ List.mem_append_right _ (List.mem_cons_of_mem _ hu)) snapshot
          since hstage).trans hgrew
  have hquiet : w'.checking = false → ∀ {t : JobTable} snapshot since,
      w'.stage = .checking snapshot since → Grew snapshot t :=
    fun hnot _ _ _ hstage => absurd hstage (not_checking hnot)
  rcases heldStep_cases hstep with ⟨skipped, rank, rfl, hnot⟩ | ⟨-, rfl, rfl⟩ |
    ⟨snapshot, since, hstage, rfl, hnot⟩ |
    ⟨id, rfl, hnot⟩
  · have hgrew : Grew s.jobs (s.jobs.claimBatch s.now w.workerId batchSize skipped rank).2 :=
      Grew.update (fun _ => rfl) fun _ => rfl
    exact ⟨fun snapshot hended => (h.ended snapshot hended).mono hgrew, hothers hgrew (hquiet hnot)⟩
  · refine ⟨h.ended, hothers (Grew.refl _) fun snapshot since hstage => ?_⟩
    cases hstage
    exact Grew.refl _
  · refine ⟨List.forall_mem_cons.2 ⟨follows_recheck (h.grew w hw snapshot since hstage),
      fun snapshot' hended => ?_⟩,
      hothers Grew.enqueueUnlessQueued (hquiet hnot)⟩
    exact (h.ended snapshot' hended).mono Grew.enqueueUnlessQueued
  · have hgrew : Grew s.jobs (s.jobs.complete s.now id) := Grew.update (fun _ => rfl) fun _ => rfl
    exact ⟨fun snapshot hended => (h.ended snapshot hended).mono hgrew, hothers hgrew (hquiet hnot)⟩

private theorem followed_step {e : ChainEvent} (h : s.Followed key)
    (hstep : chainStep key s e = some s') : s'.Followed key := by
  cases e with
  | tick dt =>
    cases hstep
    exact ⟨h.ended, h.grew⟩
  | enqueue kind payload delaySecs =>
    simp only [chainStep] at hstep
    split at hstep
    · cases hstep
    · cases hstep
      exact ⟨fun snapshot hended => (h.ended snapshot hended).mono Grew.enqueue,
        fun w hw snapshot since hstage => (h.grew w hw snapshot since hstage).trans Grew.enqueue⟩
  | worker i e =>
    obtain ⟨⟨pre, w, post⟩, hat, hmap⟩ := Option.bind_eq_some_iff.1 hstep
    obtain ⟨⟨s₁, w'⟩, hheld, rfl⟩ := Option.map_eq_some_iff.1 hmap
    exact followed_worker h (partyAt_eq_some hat) hheld

/-- In every run, with whatever overlaps. -/
theorem alive_run {s₀ : Chain} {es : List ChainEvent} {C : Chain → ChainEvent → Chain → Prop}
    (hfresh : s₀.Fresh) (h : (chainSystem key).Run C s₀ es s) : s.Alive key := by
  have hstart : s₀.Followed key := by
    refine ⟨?_, fun w hw snapshot since hstage => absurd hstage (not_checking (hfresh.idle w hw))⟩
    rw [hfresh.ended]
    exact fun snapshot hended => absurd hended List.not_mem_nil
  exact (h.invariant (P := Chain.Followed key) (fun _ _ _ hs _ hstep =>
    followed_step hs hstep) hstart).ended

/-! ### The chain does not multiply -/

/-- A statement under way that has found nothing pending will find nothing that another has
inserted. -/
def HeldWorker.Clear (key : LinkKey) (pending : List JobRow) (w : HeldWorker) : Prop :=
  w.inserts key = true → pending = []

def NotBoth (key : LinkKey) (w w' : HeldWorker) : Prop :=
  ¬(w.inserts key = true ∧ w'.inserts key = true)

theorem NotBoth.symm (h : NotBoth key w w') : NotBoth key w' w := fun hboth => h hboth.symm

/-- The invariant, as long as no two statements that find nothing pending overlap. -/
structure Chain.Single (key : LinkKey) (s : Chain) : Prop where
  one : s.AtMostOne
  known : ∀ id ∈ s.created, id < s.jobs.nextId
  link : ∀ row ∈ s.jobs.rows, row.id ∈ s.created → row.resyncs key = true
  workers : Parties (HeldWorker.Clear key s.pendingChecks) (NotBoth key) s.workers

private theorem inserts_of_not_checking (h : w.checking = false) : w.inserts key = false := by
  rw [HeldWorker.inserts]
  cases hstage : w.stage with
  | running | ended => rfl
  | checking snapshot since => exact absurd hstage (not_checking h)

private theorem clear_of_not_inserts {pending : List JobRow} (h : w.inserts key = false) :
    w.Clear key pending :=
  fun hinserts => absurd hinserts (by rw [h]; exact Bool.false_ne_true)

private theorem notBoth_of_not_inserts (h : w.inserts key = false) : NotBoth key w w' :=
  fun hboth => Bool.false_ne_true (h.symm.trans hboth.1)

/-- An `UPDATE` that makes no row pending. -/
theorem pendingChecks_update (t : JobTable) (created : List Nat) (p : JobRow → Bool)
    {c : SetClause JobRow.id} (hc : ∀ row, (c.set row).status ≠ .pending) :
    ((t.update p c).rows.filter fun row => decide (row.status = .pending ∧
      row.id ∈ created)).length ≤
      (t.rows.filter fun row => decide (row.status = .pending ∧ row.id ∈ created)).length := by
  change ((t.rows.map fun row => if p row then c.set row else row).filter _).length ≤ _
  rw [List.filter_map, List.length_map]
  refine (List.monotone_filter_right _ fun row hrow => ?_).length_le
  simp only [Function.comp_apply] at hrow
  split at hrow
  · exact absurd (of_decide_eq_true hrow).1 (hc row)
  · exact hrow

/-- An `UPDATE` that leaves alone what a row is for. -/
theorem linked_update {created : List Nat} {p : JobRow → Bool} {c : SetClause JobRow.id}
    (h : ∀ row ∈ t.rows, row.id ∈ created → row.resyncs key = true)
    (hkind : ∀ row, (c.set row).kind = row.kind)
    (hpayload : ∀ row, (c.set row).payload = row.payload) :
    ∀ row ∈ (t.update p c).rows, row.id ∈ created → row.resyncs key = true := by
  intro row hrow hid
  obtain ⟨row', hrow', rfl⟩ := Table.mem_update.1 hrow
  by_cases hp : p row' = true
  · rw [if_pos hp] at hid ⊢
    rw [c.key_set] at hid
    rw [JobRow.resyncs, hkind, hpayload]
    exact h row' hrow' hid
  · rw [if_neg hp] at hid ⊢
    exact h row' hrow' hid

/-- The test of a statement sees a pending re-check. -/
theorem Chain.Single.pendingChecks_of_not_queued (h : s.Single key)
    (hqueued : s.jobs.queued key = false) :
    s.pendingChecks = [] := by
  refine List.filter_eq_nil_iff.2 fun row hrow hpending => ?_
  obtain ⟨hstatus, hid⟩ := of_decide_eq_true hpending
  refine List.any_eq_false.1 hqueued row hrow ?_
  exact Bool.and_eq_true_iff.2 ⟨h.link row hrow hid, decide_eq_true hstatus⟩

/-- A re-check that inserts its row when none is pending. -/
theorem Chain.Single.inserted (h : s.Single key) (since : Instant)
    (hqueued : snapshot.queued key = false) (hnone : s.pendingChecks = []) :
    (s.recheck key snapshot since).AtMostOne ∧
      (∀ id ∈ (s.recheck key snapshot since).created,
        id < (s.recheck key snapshot since).jobs.nextId) ∧
      ∀ row ∈ (s.recheck key snapshot since).jobs.rows,
        row.id ∈ (s.recheck key snapshot since).created →
        row.resyncs key = true := by
  have hrecheck : s.recheck key snapshot since =
      { s with
        jobs := s.jobs.enqueue since .configSync (configSyncPayload key.1 key.2) heldRecheckSecs
        created := s.jobs.nextId :: s.created
        ended := snapshot :: s.ended } := by
    rw [Chain.recheck, JobTable.enqueueConfigSyncUnlessQueued, hqueued]
    rfl
  have hold : ∀ row ∈ s.jobs.rows, row.id ∈ s.jobs.nextId :: s.created → row.id ∈ s.created :=
    fun row hrow hid => (List.mem_cons.1 hid).resolve_left (Nat.ne_of_lt (s.jobs.fresh row hrow))
  rw [hrecheck]
  refine ⟨?_, List.forall_mem_cons.2 ⟨Nat.lt_succ_self _, fun id hid =>
    Nat.lt_succ_of_lt (h.known id hid)⟩, ?_⟩
  · change (List.filter _ (s.jobs.rows ++ [_])).length ≤ 1
    have hnil : s.jobs.rows.filter
      (fun row => decide (row.status = .pending ∧ row.id ∈ s.jobs.nextId :: s.created)) =
        [] := by
      refine List.filter_eq_nil_iff.2 fun row hrow hpending => ?_
      obtain ⟨hstatus, hid⟩ := of_decide_eq_true hpending
      exact List.filter_eq_nil_iff.1 hnone row hrow (decide_eq_true ⟨hstatus, hold row hrow hid⟩)
    rw [List.filter_append, hnil, List.nil_append]
    exact List.length_filter_le _ _
  · refine List.forall_mem_append.2 ⟨fun row hrow hid => h.link row hrow (hold row hrow hid), ?_⟩
    refine List.forall_mem_singleton.2 fun _ => ?_
    rw [JobRow.resyncs, samePayload_iff.2 rfl, decide_eq_true rfl]
    rfl

private theorem single_worker {pre post : List HeldWorker} {i : Nat} (h : s.Single key)
    (hworkers : s.workers = pre ++ w :: post) (hapart : apart key s (.worker i e) = true)
    (hstep : heldStep key s w e = some (s', w')) :
    Chain.Single key { s' with workers := pre ++ w' :: post } := by
  have hparties := h.workers
  rw [hworkers] at hparties
  -- a step after which the worker inserts nothing, and which makes no row pending
  have hquiet : ∀ (t : JobTable) (ended : List JobTable), t.nextId = s.jobs.nextId →
      (t.rows.filter fun row => decide (row.status = .pending ∧ row.id ∈ s.created)).length ≤
        s.pendingChecks.length →
      (∀ row ∈ t.rows, row.id ∈ s.created → row.resyncs key = true) → w'.inserts key = false →
      Chain.Single key { s with jobs := t, ended := ended, workers := pre ++ w' :: post } := by
    intro t ended hnext hlength hlink hnot
    refine ⟨hlength.trans h.one, fun id hid => hnext ▸ h.known id hid, hlink, ?_⟩
    refine hparties.replace NotBoth.symm NotBoth.symm (fun u _ hclear hinserts => ?_)
      (fun _ _ hboth => hboth)
      (clear_of_not_inserts hnot) fun _ _ => notBoth_of_not_inserts hnot
    have hnil := hclear hinserts
    rw [hnil] at hlength
    exact List.length_eq_zero_iff.1 (Nat.le_zero.1 hlength)
  rcases heldStep_cases hstep with ⟨skipped, rank, rfl, hnot⟩ | ⟨rfl, rfl, rfl⟩ |
    ⟨snapshot, since, hstage, rfl, hnot⟩ |
    ⟨id, rfl, hnot⟩
  · exact hquiet _ _ rfl (pendingChecks_update _ _ _ fun _ => JobStatus.noConfusion)
      (linked_update h.link (fun _ => rfl) fun _ => rfl) (inserts_of_not_checking hnot)
  · cases hqueued : s'.jobs.queued key with
    | true =>
      have hnot : HeldWorker.inserts key { w with stage := .checking s'.jobs s'.now } = false :=
        congrArg not hqueued
      exact hquiet _ _ rfl le_rfl h.link hnot
    | false =>
      have hidle : ∀ u ∈ s'.workers, u.inserts key = false := by simpa [apart, hqueued] using hapart
      refine ⟨h.one, h.known, h.link, ?_⟩
      refine hparties.replace NotBoth.symm NotBoth.symm (fun _ _ hclear => hclear)
        (fun _ _ hboth => hboth)
        (fun _ => h.pendingChecks_of_not_queued hqueued) fun u hu => ?_
      exact (notBoth_of_not_inserts (hidle u (hworkers ▸ Parties.mem_of_others hu))).symm
  · have hnot' : w'.inserts key = false := inserts_of_not_checking hnot
    cases hqueued : snapshot.queued key with
    | true =>
      have hrecheck : s.recheck key snapshot since = { s with ended := snapshot :: s.ended } := by
        rw [Chain.recheck, JobTable.enqueueConfigSyncUnlessQueued, if_pos hqueued, if_pos hqueued]
      rw [hrecheck]
      exact hquiet _ _ rfl le_rfl h.link hnot'
    | false =>
      have hinserts : w.inserts key = true := by
        rw [HeldWorker.inserts, hstage]
        exact congrArg not hqueued
      have hothers : ∀ u ∈ pre ++ post, u.inserts key = false := fun u hu =>
        Bool.eq_false_iff.2 fun hboth => hparties.apart NotBoth.symm u hu ⟨hinserts, hboth⟩
      have hnone : s.pendingChecks = [] :=
        hparties.each w (List.mem_append_right _ List.mem_cons_self) hinserts
      have hinserted := h.inserted since hqueued hnone
      refine ⟨hinserted.1, hinserted.2.1, hinserted.2.2, ?_⟩
      exact hparties.replace NotBoth.symm NotBoth.symm (fun u hu _ =>
        clear_of_not_inserts (hothers u hu))
        (fun _ _ hboth => hboth) (clear_of_not_inserts hnot') fun _ _ =>
          notBoth_of_not_inserts hnot'
  · exact hquiet _ _ rfl (pendingChecks_update _ _ _ fun _ => JobStatus.noConfusion)
      (linked_update h.link (fun _ => rfl) fun _ => rfl) (inserts_of_not_checking hnot)

/-- Another job's row is none that a re-check has inserted. -/
theorem single_enqueue {kind : JobKind} {payload : Value} {delaySecs : Nat} (h : s.Single key) :
    Chain.Single key { s with jobs := s.jobs.enqueue s.now kind payload delaySecs } := by
  have hnew : s.jobs.nextId ∉ s.created := fun hid => Nat.lt_irrefl _ (h.known _ hid)
  have hpending : Chain.pendingChecks
      { s with jobs := s.jobs.enqueue s.now kind payload delaySecs } = s.pendingChecks := by
    change List.filter _ (s.jobs.rows ++ [_]) = _
    rw [List.filter_append, List.filter_singleton, decide_eq_false fun hboth => hnew hboth.2]
    exact List.append_nil _
  refine ⟨?_, fun id hid => Nat.lt_succ_of_lt (h.known id hid), ?_, ?_⟩
  · rw [Chain.AtMostOne, hpending]
    exact h.one
  · refine List.forall_mem_append.2 ⟨h.link, List.forall_mem_singleton.2 fun hid => ?_⟩
    exact absurd hid hnew
  · rw [hpending]
    exact h.workers

/-- The step lemma. -/
theorem single_step {e : ChainEvent} (h : s.Single key) (hapart : apart key s e = true)
    (hstep : chainStep key s e = some s') : s'.Single key := by
  cases e with
  | tick dt =>
    cases hstep
    exact ⟨h.one, h.known, h.link, h.workers⟩
  | enqueue kind payload delaySecs =>
    simp only [chainStep] at hstep
    split at hstep
    · cases hstep
    · cases hstep
      exact single_enqueue h
  | worker i e =>
    obtain ⟨⟨pre, w, post⟩, hat, hmap⟩ := Option.bind_eq_some_iff.1 hstep
    obtain ⟨⟨s₁, w'⟩, hheld, rfl⟩ := Option.map_eq_some_iff.1 hmap
    exact single_worker h (partyAt_eq_some hat) hapart hheld

/-- The run lemma. -/
theorem single_run {s₀ : Chain} {es : List ChainEvent} (hfresh : s₀.Fresh)
    (h : (chainSystem key).Run (fun s e _ => apart key s e = true) s₀ es s) : s.Single key := by
  have hnone : s₀.pendingChecks = [] := by
    refine List.filter_eq_nil_iff.2 fun row _ hpending => ?_
    have hid := (of_decide_eq_true hpending).2
    rw [hfresh.created] at hid
    exact List.not_mem_nil hid
  refine h.invariant (P := Chain.Single key) (fun _ _ _ hs hapart hstep =>
    single_step hs hapart hstep) ⟨?_, ?_, ?_, ?_, ?_⟩
  · rw [Chain.AtMostOne, hnone]
    exact Nat.zero_le _
  · rw [hfresh.created]
    exact fun id hid => absurd hid List.not_mem_nil
  · rw [hfresh.created]
    exact fun row _ hid => absurd hid List.not_mem_nil
  · exact fun w hw => clear_of_not_inserts (inserts_of_not_checking (hfresh.idle w hw))
  · exact List.pairwise_of_forall_mem_list fun w hw w' _ =>
      notBoth_of_not_inserts (inserts_of_not_checking (hfresh.idle w hw))

end

/-- A held run ends in the statement of the re-check.  In every run of the workers in which no two
of these statements that find nothing pending overlap, each has left a config sync behind, and at
most one that they have inserted is pending. -/
theorem recheck_chain (libs : Libs) (key : LinkKey) {s₀ s : Chain} {es : List ChainEvent}
    (hfresh : s₀.Fresh) (hrun : (chainSystem key).Run (fun s e _ => apart key s e = true) s₀ es s) :
    (∀ tr res, Program.Trace (syncForRoleLink libs key.1 key.2).run tr res → UploadHeld tr →
      EndsInRecheck key.1 key.2 tr res) ∧ s.Alive key ∧ s.AtMostOne :=
  ⟨fun _ _ htrace hheld => trace_syncForRoleLink_held htrace hheld, alive_run hfresh hrun,
    (single_run hfresh hrun).one⟩

/-- Two saves of a link, a second apart, and two workers. -/
def twoSaves : Chain where
  now := 5000000000
  jobs :=
    (JobTable.empty.enqueue 0 .configSync
      (configSyncPayload "g".toList "r".toList) configSyncDelaySecs).enqueue 1000000000
      .configSync (configSyncPayload "g".toList "r".toList) configSyncDelaySecs
  workers := [{ workerId := "job-worker-0".toList }, { workerId := "job-worker-1".toList }]

/-- Each worker claims one of them. -/
def claimBoth : List ChainEvent :=
  [.worker 0 (.claim [] id), .tick 1000000000, .worker 1 (.claim [] id)]

private theorem fresh_twoSaves : twoSaves.Fresh :=
  ⟨rfl, rfl, List.forall_mem_cons.2 ⟨rfl, List.forall_mem_singleton.2 rfl⟩⟩

/-- One statement after the other. -/
theorem recheck_chain_serial : ∃ s, (chainSystem ("g".toList, "r".toList)).exec twoSaves
    (claimBoth ++ [.worker 0 .begin, .worker 0 .insert, .worker 1 .begin, .worker 1 .insert]) =
      some s ∧
      s.Alive ("g".toList, "r".toList) ∧ s.AtMostOne := by
  have hruns : ((chainSystem ("g".toList, "r".toList)).check
    (fun s e _ => apart ("g".toList, "r".toList) s e) twoSaves
      (claimBoth ++ [.worker 0 .begin, .worker 0 .insert, .worker 1 .begin,
        .worker 1 .insert])).isSome = true := by decide
  obtain ⟨s, hs⟩ := Option.isSome_iff_exists.1 hruns
  have hrun := System.Run.of_check hs
  exact ⟨s, hrun.exec_eq, (recheck_chain plainLibs _ fresh_twoSaves hrun).2⟩

/-- Both statements begin before either commits. -/
theorem not_recheck_chain :
    ¬∀ (key : LinkKey) (s₀ s : Chain) (es : List ChainEvent), s₀.Fresh →
      (chainSystem key).Run (fun _ _ _ => True) s₀ es s → s.Alive key ∧ s.AtMostOne := by
  intro h
  have hruns : ((chainSystem ("g".toList, "r".toList)).exec twoSaves
      (claimBoth ++ [.worker 0 .begin, .worker 1 .begin, .worker 0 .insert, .worker 1 .insert])).any
      (fun s => decide (s.pendingChecks.length = 2)) = true := by decide
  obtain ⟨s, hs, htwo⟩ := (Option.any_eq_true _ _).1 hruns
  have hone := (h _ twoSaves s _ fresh_twoSaves (System.Run.of_exec hs fun _ _ _ _ => trivial)).2
  rw [Chain.AtMostOne, of_decide_eq_true htwo] at hone
  exact absurd hone (by decide)

end FormRespondentRole
