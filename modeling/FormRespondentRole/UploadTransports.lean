import FormRespondentRole.UploadSessions

/-!
# The two transports of an upload

`upload_users` against a server that rejects a set, or accepts it, whichever way it is sent.  An
accepted set is stored as it is by both transports; a rejection is classified alike just when the
request that reports it looks for what the rejection is (`transports_agree_iff`).
-/

namespace FormRespondentRole

open Foundations

/-- The variant of an error: RoleLogic's errors differ in their text only. -/
def AppError.variant : AppError → AppError
  | .roleLogic _ => .roleLogic []
  | e => e

namespace RoleLogic

/-- A status and a body that refuse a set. -/
structure Rejection where
  status : Nat
  body : Text
  refused : ¬(200 ≤ status ∧ status < 300)

def Rejection.answer (r : Rejection) : Answer := .ok ⟨r.status, .ok r.body⟩

/-- The request of the chunked flow that reports a rejection. -/
inductive Carrier
  | start
  | chunk (i : Nat)
  | commit
deriving DecidableEq

/-- A server that decides by the submitted ids, and what it answers where it has nothing to
report. -/
structure UploadServer (descriptions : Descriptions) where
  rejection : List Text → Option Rejection
  carrier : List Text → Carrier
  uploadId : Text
  started : Answer
  accepted : Answer
  committed : Answer
  replaced : Answer
  count : Nat
  started_ok : startUploadResult descriptions started = .ok uploadId
  accepted_ok : uploadChunkResult descriptions accepted = .ok ()
  committed_ok : commitUploadResult descriptions committed = .ok count
  replaced_ok : replaceUsersResult descriptions replaced = .ok count

/-- The chunks of the session so far, and the stored list. -/
structure UploadState where
  sent : List (List Text) := []
  stored : List Text := []

section

variable {descriptions : Descriptions} (server : UploadServer descriptions) (submitted : List Text)

/-- What a request of the chunked flow reports. -/
def UploadServer.report (c : Carrier) : Option Rejection :=
  if server.carrier submitted = c then server.rejection submitted else none

/-- The rejection, or else the answer and what it leads to. -/
def UploadServer.answerTo (report : Option Rejection) (answer : Answer) (s s' : UploadState) :
    Answer × UploadState :=
  match report with
  | some r => (r.answer, s)
  | none => (answer, s')

def UploadServer.serve (r : Request) (s : UploadState) : Answer × UploadState :=
  match r with
  | .replaceUsers _ userIds =>
    answerTo (server.rejection userIds) server.replaced s { s with stored := userIds }
  | .startUpload _ => answerTo (server.report submitted .start) server.started s s
  | .uploadChunk _ _ userIds =>
    answerTo (server.report submitted (.chunk s.sent.length)) server.accepted s
      { s with sent := s.sent ++ [userIds] }
  | .commitUpload _ _ =>
    answerTo (server.report submitted .commit) server.committed s
      { s with stored := s.sent.flatten }
  | .cancelUpload _ _ => (server.accepted, { s with sent := [] })
  | .addUser _ _ | .removeUser _ _ => (server.accepted, s)

/-! ### Runs -/

/-- The result of an upload, and the state of the server after it. -/
def UploadServer.upload (link : LinkAccess) : Except AppError Nat × UploadState :=
  Program.run (server.serve submitted) (uploadUsers descriptions link submitted).run {}

variable {server submitted} {link : LinkAccess} {s : UploadState}

private theorem run_request {α : Type} (r : Request) (result : Answer → Except AppError α)
    (s : UploadState) :
    Program.run (server.serve submitted) (request r result).run s =
      (result (server.serve submitted r s).1, (server.serve submitted r s).2) := rfl

private theorem refused_of_rejection {α : Type} (refusal : Nat → Text → AppError)
    (success : HttpResponse → Except AppError α) (r : Rejection) :
    settle refusal success r.answer = .error (refusal r.status r.body) := by
  have hrefused : (⟨r.status, .ok r.body⟩ : HttpResponse).isSuccess = false :=
    decide_eq_false r.refused
  rw [Rejection.answer, settle, hrefused]
  rfl

/-- Chunks with nothing to report are collected. -/
theorem run_uploadChunks_accepted (uploadId : Text) {pieces : List (List Text)}
    (h : ∀ i, s.sent.length ≤ i → i < s.sent.length + pieces.length →
      server.report submitted (.chunk i) = none) :
    Program.run (server.serve submitted) (uploadChunks descriptions link uploadId pieces).run s =
      (.ok (), { s with sent := s.sent ++ pieces }) := by
  induction pieces generalizing s with
  | nil =>
    rw [List.append_nil]
    rfl
  | cons piece rest ih =>
    have hnone : server.report submitted (.chunk s.sent.length) = none := h _ le_rfl (by simp)
    have hserve : server.serve submitted (.uploadChunk link uploadId piece) s =
        (server.accepted, { s with sent := s.sent ++ [piece] }) := by
      rw [UploadServer.serve, hnone]
      rfl
    rw [run_uploadChunks_cons, Program.run_call, hserve]
    simp only [server.accepted_ok]
    rw [ih]
    · simp only [List.append_assoc, List.singleton_append]
    · intro i hlow hhigh
      simp only [List.length_append, List.length_singleton] at hlow hhigh
      exact h i (by omega) (by simp only [List.length_cons]; omega)

/-- The chunk that carries the rejection fails, and the session is cancelled. -/
theorem run_uploadChunks_rejected (uploadId : Text) {pieces : List (List Text)} {r : Rejection}
    {j : Nat} (hj : j < pieces.length)
    (hcarrier : server.carrier submitted = .chunk (s.sent.length + j))
    (hrejection : server.rejection submitted = some r) :
    Program.run (server.serve submitted) (uploadChunks descriptions link uploadId pieces).run s =
      (.error (uploadChunkRefusal descriptions r.status r.body), { s with sent := [] }) := by
  induction pieces generalizing s j with
  | nil => exact absurd hj (Nat.not_lt_zero _)
  | cons piece rest ih =>
    rw [run_uploadChunks_cons, Program.run_call]
    by_cases hzero : j = 0
    · have hreport : server.report submitted (.chunk s.sent.length) = some r := by
        rw [UploadServer.report, if_pos (by rw [hcarrier, hzero]; rfl), hrejection]
      have hserve : server.serve submitted (.uploadChunk link uploadId piece) s =
          (r.answer, s) := by
        rw [UploadServer.serve, hreport]
        rfl
      have hresult : uploadChunkResult descriptions r.answer =
          .error (uploadChunkRefusal descriptions r.status r.body) := refused_of_rejection _ _ r
      rw [hserve]
      simp only [hresult]
      rfl
    · have hnone : server.report submitted (.chunk s.sent.length) = none := by
        refine if_neg fun h => hzero ?_
        rw [hcarrier] at h
        have := Carrier.chunk.inj h
        omega
      have hserve : server.serve submitted (.uploadChunk link uploadId piece) s =
          (server.accepted, { s with sent := s.sent ++ [piece] }) := by
        rw [UploadServer.serve, hnone]
        rfl
      rw [hserve]
      simp only [server.accepted_ok]
      obtain ⟨i, rfl⟩ := Nat.exists_eq_succ_of_ne_zero hzero
      refine ih (j := i) (Nat.lt_of_succ_lt_succ hj) ?_
      rw [hcarrier, List.length_append, List.length_singleton]
      exact congrArg Carrier.chunk (by omega)

/-- What the request that reports a rejection makes of it. -/
def Carrier.refusal (descriptions : Descriptions) : Carrier → Nat → Text → AppError
  | start => startUploadRefusal descriptions
  | chunk _ => uploadChunkRefusal descriptions
  | commit => commitUploadRefusal descriptions

/-- The request is one that the upload of these ids makes. -/
def Carrier.Within (userIds : List Text) : Carrier → Prop
  | chunk i => i < (chunks chunkSize userIds).length
  | start | commit => True

private theorem report_of_ne {c : Carrier} (h : server.carrier submitted ≠ c) :
    server.report submitted c = none := if_neg h

private theorem report_of_accepted (h : server.rejection submitted = none) (c : Carrier) :
    server.report submitted c = none := by
  rw [UploadServer.report, h, ite_self]

private theorem run_startUpload_accepted (h : server.report submitted .start = none) :
    Program.run (server.serve submitted) (startUpload descriptions link).run s =
      (.ok server.uploadId, s) := by
  rw [startUpload, run_request, UploadServer.serve, h]
  exact congrArg (·, s) server.started_ok

/-- A set within the limit of one request. -/
theorem upload_replace (hlen : submitted.length ≤ putMaxUsers) :
    server.upload submitted link =
      match server.rejection submitted with
      | some r => (.error (replaceUsersRefusal descriptions r.status r.body), {})
      | none => (.ok server.count, { stored := submitted }) := by
  rw [UploadServer.upload, uploadUsers, if_pos hlen, replaceUsers, run_request, UploadServer.serve]
  cases server.rejection submitted with
  | some r => exact congrArg (·, _) (refused_of_rejection _ _ r)
  | none => exact congrArg (·, _) server.replaced_ok

/-- An accepted set is sent in its chunks and stored. -/
theorem upload_accepted (hlen : putMaxUsers < submitted.length)
    (h : server.rejection submitted = none) :
    server.upload submitted link = (.ok server.count, ⟨chunks chunkSize submitted, submitted⟩) := by
  have hflatten := (chunks_spec (by decide : chunkSize ≠ 0) submitted).1
  rw [UploadServer.upload, uploadUsers, if_neg (not_le.2 hlen),
    Program.run_bind_ok (run_startUpload_accepted (report_of_accepted h _)),
    Program.run_bind_ok (run_uploadChunks_accepted _ fun i _ _ => report_of_accepted h _),
      commitUpload, run_request,
    UploadServer.serve, report_of_accepted h]
  simp only [UploadServer.answerTo, List.nil_append, hflatten, server.committed_ok]

/-- A rejection is classified by the request that reports it. -/
theorem upload_rejected {r : Rejection} (hlen : putMaxUsers < submitted.length)
    (hwithin : (server.carrier submitted).Within submitted)
    (h : server.rejection submitted = some r) :
    (server.upload submitted link).1 =
      .error ((server.carrier submitted).refusal descriptions r.status r.body) := by
  have hreport : server.report submitted (server.carrier submitted) = some r := by
    rw [UploadServer.report, if_pos rfl, h]
  rw [UploadServer.upload, uploadUsers, if_neg (not_le.2 hlen)]
  cases hcarrier : server.carrier submitted with
  | start =>
    rw [hcarrier] at hreport
    have hstart : Program.run (server.serve submitted) (startUpload descriptions link).run {} =
        (.error (startUploadRefusal descriptions r.status r.body), {}) := by
      rw [startUpload, run_request, UploadServer.serve, hreport]
      exact congrArg (·, _) (refused_of_rejection _ _ r)
    rw [Program.run_bind_error hstart]
    rfl
  | chunk i =>
    rw [hcarrier] at hwithin
    have hstart : server.report submitted .start = none :=
      report_of_ne (by rw [hcarrier]; exact Carrier.noConfusion)
    rw [Program.run_bind_ok (run_startUpload_accepted hstart),
      Program.run_bind_error (run_uploadChunks_rejected _ hwithin (by rw [hcarrier]; simp) h)]
    rfl
  | commit =>
    rw [hcarrier] at hreport
    have hstart : server.report submitted .start = none :=
      report_of_ne (by rw [hcarrier]; exact Carrier.noConfusion)
    have hchunk : ∀ i, server.report submitted (.chunk i) = none :=
      fun i => report_of_ne (by rw [hcarrier]; exact Carrier.noConfusion)
    rw [Program.run_bind_ok (run_startUpload_accepted hstart),
      Program.run_bind_ok (run_uploadChunks_accepted _ fun i _ _ => hchunk i),
      commitUpload, run_request, UploadServer.serve, hreport]
    have hcommit : commitUploadResult descriptions r.answer =
        .error (commitUploadRefusal descriptions r.status r.body) :=
      refused_of_rejection _ _ r
    exact hcommit

end

/-! ### Classifications -/

/-- The request that reports a rejection looks for what the single request would find in it. -/
def SameClass (c : Carrier) (status : Nat) (body : Text) : Prop :=
  match c with
  | .start => linkGone status body ∨ linkInactive status body ∨ userLimit status body = none ∧
    ¬removalHeld status body
  | .chunk _ =>
    ¬linkGone status body ∧ ¬linkInactive status body ∧ userLimit status body = none ∧
      ¬removalHeld status body
  | .commit => ¬linkGone status body ∧ ¬linkInactive status body ∧ userLimit status body = none

private theorem sameClass_iff (descriptions : Descriptions) (c : Carrier) (status : Nat)
    (body : Text) :
    (c.refusal descriptions status body).variant =
      (replaceUsersRefusal descriptions status body).variant ↔
      SameClass c status body := by
  -- the four questions that a classification asks
  cases hgone : linkGone status body <;> cases hinactive : linkInactive status body <;>
    cases hlimit : userLimit status body <;> cases hheld : removalHeld status body <;> cases c <;>
    simp [Carrier.refusal, startUploadRefusal, uploadChunkRefusal, commitUploadRefusal,
      replaceUsersRefusal,
      unclassified, SameClass, AppError.variant, hgone, hinactive, hlimit, hheld]

/-- A rejected upload fails with the variant of the single request, and an accepted one stores the
ids as they are, every one sent in one chunk. -/
structure TransportsAgree {descriptions : Descriptions} (server : UploadServer descriptions)
    (link : LinkAccess) (userIds : List Text) : Prop where
  rejected : ∀ r, server.rejection userIds = some r →
    ∃ e, (server.upload userIds link).1 = .error e ∧
    e.variant = (replaceUsersRefusal descriptions r.status r.body).variant
  accepted : server.rejection userIds = none →
    (∃ n, (server.upload userIds link).1 = .ok n) ∧ (server.upload userIds link).2.stored = userIds
  chunked : server.rejection userIds = none → putMaxUsers < userIds.length →
    (server.upload userIds link).2.sent.flatten = userIds ∧
      ∀ piece ∈ (server.upload userIds link).2.sent, piece.length ≤ chunkSize

/-- The transports agree on every set of up to 100,000 ids and on every accepted set, and on a
rejected one just when the request that reports the rejection classifies it as the single request
does. -/
theorem transports_agree_iff {descriptions : Descriptions} (server : UploadServer descriptions)
    (link : LinkAccess) {userIds : List Text} (hwithin : (server.carrier userIds).Within userIds) :
    TransportsAgree server link userIds ↔
      (putMaxUsers < userIds.length → ∀ r, server.rejection userIds = some r →
        SameClass (server.carrier userIds) r.status r.body) := by
  constructor
  · intro hagree hlen r hr
    obtain ⟨e, he, hvariant⟩ := hagree.rejected r hr
    rw [upload_rejected hlen hwithin hr] at he
    rw [← sameClass_iff descriptions, Except.error.inj he]
    exact hvariant
  · intro hclass
    by_cases hlen : userIds.length ≤ putMaxUsers
    · refine ⟨fun r hr => ?_, fun hnone => ?_, fun _ hlong => absurd hlen (not_le.2 hlong)⟩
      · rw [upload_replace hlen, hr]
        exact ⟨_, rfl, rfl⟩
      · rw [upload_replace hlen, hnone]
        exact ⟨⟨_, rfl⟩, rfl⟩
    · have hlong : putMaxUsers < userIds.length := not_le.1 hlen
      refine ⟨fun r hr => ?_, fun hnone => ?_, fun hnone _ => ?_⟩
      · exact ⟨_, upload_rejected hlong hwithin hr,
          (sameClass_iff descriptions _ _ _).2 (hclass hlong r hr)⟩
      · rw [upload_accepted hlong hnone]
        exact ⟨⟨_, rfl⟩, rfl⟩
      · rw [upload_accepted hlong hnone]
        have hspec := chunks_spec (by decide : chunkSize ≠ 0) userIds
        exact ⟨hspec.1, fun piece hpiece => (hspec.2 piece hpiece).2⟩

/-- A server that turns every set down at the commit with this status and body. -/
def refusingServer (r : Rejection) : UploadServer plainDescriptions where
  rejection _ := some r
  carrier _ := .commit
  uploadId := "u".toList
  started := sessionStarted "u".toList
  accepted := chunkAccepted
  committed := .ok ⟨200, .ok ((Value.bool true).text fun _ => [])⟩
  replaced := .ok ⟨200, .ok ((Value.bool true).text fun _ => [])⟩
  count := 0
  started_ok := sessionStarted_result _ _
  accepted_ok := rfl
  committed_ok := rfl
  replaced_ok := rfl

def heldRejection : Rejection := ⟨409, confirmRequired, by decide⟩

/-- The link is gone from RoleLogic. -/
def goneRejection : Rejection := ⟨403, linkGoneErrorMsg, by decide⟩

/-- The commit is held for the owner's confirmation. -/
theorem transports_agree_iff_held :
    TransportsAgree (refusingServer heldRejection) someLink manyIds := by
  have hwithin : ((refusingServer heldRejection).carrier manyIds).Within manyIds := trivial
  refine (transports_agree_iff _ someLink hwithin).2 fun _ r hr => ?_
  obtain rfl := Option.some.inj hr
  exact ⟨by decide, by decide, rfl⟩

/-- A link that is gone by the commit is an unclassified failure. -/
theorem not_transports_agree :
    ¬∀ (descriptions : Descriptions) (server : UploadServer descriptions) (link : LinkAccess)
      (userIds : List Text),
      (server.carrier userIds).Within userIds → TransportsAgree server link userIds := by
  intro h
  have hlen : putMaxUsers < manyIds.length := by
    rw [manyIds, List.length_replicate]
    decide
  have hwithin : ((refusingServer goneRejection).carrier manyIds).Within manyIds := trivial
  obtain ⟨e, he, hvariant⟩ :=
    (h _ (refusingServer goneRejection) someLink manyIds hwithin).rejected _ rfl
  rw [upload_rejected hlen hwithin rfl] at he
  rw [← Except.error.inj he] at hvariant
  exact absurd hvariant (by decide)

end RoleLogic

end FormRespondentRole
