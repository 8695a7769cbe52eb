import FormRespondentRole.RoleLogicClient
import FormRespondentRole.Foundations.JsonRoundTrip

/-!
# Upload sessions

The chunked flow of `upload_users` against any answers.  A chunk that fails is followed by the
cancellation of the session; a commit that fails is not, so a failed upload leaves its session open
just when the commit is what failed (`upload_leaves_no_session_iff`).
-/

namespace FormRespondentRole

open Foundations

namespace RoleLogic

section

variable {descriptions : Descriptions} {link : LinkAccess} {userIds : List Text} {uploadId : Text}
  {tr : List Exchange}

/-- A session was opened. -/
def Opened (descriptions : Descriptions) (link : LinkAccess) (tr : List Exchange)
    (uploadId : Text) : Prop :=
  ∃ answer, ⟨.startUpload link, answer⟩ ∈ tr ∧ startUploadResult descriptions answer = .ok uploadId

/-- A cancellation of the session was requested. -/
def Cancelled (link : LinkAccess) (tr : List Exchange) (uploadId : Text) : Prop :=
  ∃ answer, ⟨.cancelUpload link uploadId, answer⟩ ∈ tr

/-- A commit of the session succeeded. -/
def Committed (descriptions : Descriptions) (link : LinkAccess) (tr : List Exchange)
    (uploadId : Text) : Prop :=
  ∃ answer n, ⟨.commitUpload link uploadId, answer⟩ ∈ tr ∧
    commitUploadResult descriptions answer = .ok n

/-- The sessions of a failed upload are cancelled, and no session that was committed is. -/
structure LeavesNoSession (descriptions : Descriptions) (link : LinkAccess) (tr : List Exchange)
    (result : Except AppError Nat) : Prop where
  cancelled : ∀ e uploadId, result = .error e → Opened descriptions link tr uploadId →
    Cancelled link tr uploadId
  committed : ∀ uploadId, Committed descriptions link tr uploadId → ¬Cancelled link tr uploadId

private theorem trace_request {α : Type} {r : Request} {result : Answer → Except AppError α}
    {a : Except AppError α} :
    Program.Trace (request r result).run tr a ↔ ∃ answer, tr = [⟨r, answer⟩] ∧
      a = result answer := by
  rw [request]
  change Program.Trace (.call r fun answer => .pure (result answer)) tr a ↔ _
  rw [Program.trace_call]
  constructor
  · rintro ⟨answer, tr', rfl, htail⟩
    obtain ⟨rfl, rfl⟩ := Program.trace_pure.1 htail
    exact ⟨answer, rfl, rfl⟩
  · rintro ⟨answer, rfl, rfl⟩
    exact ⟨answer, [], rfl, Program.Trace.pure _⟩

/-- A chunk that fails is followed by the cancellation, whatever comes of it. -/
theorem run_uploadChunks_cons (piece : List Text) (rest : List (List Text)) :
    (uploadChunks descriptions link uploadId (piece :: rest)).run =
      .call (.uploadChunk link uploadId piece) fun answer =>
        match uploadChunkResult descriptions answer with
        | .ok () => (uploadChunks descriptions link uploadId rest).run
        | .error e => .call (.cancelUpload link uploadId) fun _ => .pure (.error e) := by
  rw [uploadChunks]
  refine congrArg (Program.call _) (funext fun answer => ?_)
  change Program.bind (.pure (Except.ok (uploadChunkResult descriptions answer))) _ = _
  cases uploadChunkResult descriptions answer <;> rfl

/-- Only chunks of the session were requested. -/
def OnlyChunks (link : LinkAccess) (uploadId : Text) (tr : List Exchange) : Prop :=
  ∀ x ∈ tr, ∃ piece, x.call = .uploadChunk link uploadId piece

/-- The chunks make chunk requests only; or one of them fails, and the session is cancelled. -/
theorem trace_uploadChunks {pieces : List (List Text)} {r : Except AppError Unit}
    (h : Program.Trace (uploadChunks descriptions link uploadId pieces).run tr r) :
    (r = .ok () ∧ OnlyChunks link uploadId tr) ∨
      ∃ e tr' answer, r = .error e ∧ tr = tr' ++ [⟨.cancelUpload link uploadId, answer⟩] ∧
        OnlyChunks link uploadId tr' := by
  induction pieces generalizing tr with
  | nil =>
    obtain ⟨rfl, rfl⟩ := Program.trace_pure.1 h
    exact Or.inl ⟨rfl, fun x hx => absurd hx List.not_mem_nil⟩
  | cons piece rest ih =>
    rw [run_uploadChunks_cons, Program.trace_call] at h
    obtain ⟨answer, tail, rfl, htail⟩ := h
    have hcons : ∀ {tr'}, OnlyChunks link uploadId tr' →
        OnlyChunks link uploadId (⟨.uploadChunk link uploadId piece, answer⟩ :: tr') :=
      fun h => List.forall_mem_cons.2 ⟨⟨piece, rfl⟩, h⟩
    cases hresult : uploadChunkResult descriptions answer with
    | ok u =>
      simp only [hresult] at htail
      rcases ih htail with ⟨rfl, honly⟩ | ⟨e, tr', answer', rfl, rfl, honly⟩
      · exact Or.inl ⟨rfl, hcons honly⟩
      · exact Or.inr ⟨e, _, answer', rfl, rfl, hcons honly⟩
    | error e =>
      simp only [hresult] at htail
      obtain ⟨answer', tail, rfl, hend⟩ := Program.trace_call.1 htail
      obtain ⟨rfl, rfl⟩ := Program.trace_pure.1 hend
      exact Or.inr ⟨e, [_], answer', rfl, rfl, hcons fun x hx => absurd hx List.not_mem_nil⟩

/-- The chunked flow ends with the start, with the cancellation after a failed chunk, or with the
commit. -/
theorem trace_uploadUsers {r : Except AppError Nat} (hlen : putMaxUsers < userIds.length)
    (h : Program.Trace (uploadUsers descriptions link userIds).run tr r) :
    ∃ answer, (∃ e, tr = [⟨.startUpload link, answer⟩] ∧
      startUploadResult descriptions answer = .error e ∧ r = .error e) ∨
      ∃ uploadId tr' answer', startUploadResult descriptions answer = .ok uploadId ∧
        OnlyChunks link uploadId tr' ∧
        ((∃ e, tr = ⟨.startUpload link, answer⟩ ::
          (tr' ++ [⟨.cancelUpload link uploadId, answer'⟩]) ∧ r = .error e) ∨
          (tr = ⟨.startUpload link, answer⟩ :: (tr' ++ [⟨.commitUpload link uploadId, answer'⟩]) ∧
            r = commitUploadResult descriptions answer')) := by
  rw [uploadUsers, if_neg (not_le.2 hlen)] at h
  rcases Program.trace_except_bind.1 h with ⟨e, rfl, hstart⟩ |
    ⟨uploadId, tr₁, tr₂, rfl, hstart, htail⟩
  · obtain ⟨answer, rfl, hresult⟩ := trace_request.1 hstart
    exact ⟨answer, Or.inl ⟨e, rfl, hresult.symm, rfl⟩⟩
  obtain ⟨answer, rfl, hresult⟩ := trace_request.1 hstart
  refine ⟨answer, Or.inr ?_⟩
  rcases Program.trace_except_bind.1 htail with ⟨e, rfl, hchunks⟩ |
    ⟨⟨⟩, tr₃, tr₄, rfl, hchunks, hcommit⟩
  · rcases trace_uploadChunks hchunks with ⟨hok, -⟩ | ⟨e', tr', answer', -, rfl, honly⟩
    · cases hok
    · exact ⟨uploadId, tr', answer', hresult.symm, honly, Or.inl ⟨e, rfl, rfl⟩⟩
  · rcases trace_uploadChunks hchunks with ⟨-, honly⟩ | ⟨e', tr', answer', herror, -⟩
    · obtain ⟨answer', rfl, rfl⟩ := trace_request.1 hcommit
      exact ⟨uploadId, tr₃, answer', hresult.symm, honly, Or.inr ⟨rfl, rfl⟩⟩
    · cases herror

end

/-- The requests of a session but its chunks. -/
private theorem mem_session {link : LinkAccess} {uploadId : Text} {first last x : Exchange}
    {tr : List Exchange} (honly : OnlyChunks link uploadId tr) (hx : x ∈ first :: (tr ++ [last]))
    (hcall : ∀ piece, x.call ≠ .uploadChunk link uploadId piece) : x = first ∨ x = last := by
  rcases List.mem_cons.1 hx with rfl | hx
  · exact Or.inl rfl
  rcases List.mem_append.1 hx with hx | hx
  · obtain ⟨piece, hpiece⟩ := honly x hx
    exact absurd hpiece (hcall piece)
  · exact Or.inr (List.mem_singleton.1 hx)

/-- After a failed upload of more than 100,000 ids no session is left open, unless it is the commit
that failed. -/
theorem upload_leaves_no_session_iff {descriptions : Descriptions} {link : LinkAccess}
    {userIds : List Text} {tr : List Exchange} {r : Except AppError Nat}
    (hlen : putMaxUsers < userIds.length)
    (h : Program.Trace (uploadUsers descriptions link userIds).run tr r) :
    LeavesNoSession descriptions link tr r ↔
      ∀ uploadId answer, ⟨.commitUpload link uploadId, answer⟩ ∈ tr →
        ∃ n, commitUploadResult descriptions answer = .ok n := by
  obtain ⟨answer, ⟨e, rfl, hstart, rfl⟩ |
      ⟨uploadId, tr', answer', hstart, honly, ⟨e, rfl, rfl⟩ | ⟨rfl, rfl⟩⟩⟩ :=
    trace_uploadUsers hlen h
  · -- the start failed
    refine iff_of_true ⟨?_, ?_⟩ ?_
    · rintro e' uploadId - ⟨answer'', hmem, hok⟩
      cases List.mem_singleton.1 hmem
      cases hstart.symm.trans hok
    · rintro uploadId ⟨answer'', n, hmem, -⟩
      cases List.mem_singleton.1 hmem
    · intro uploadId answer'' hmem
      cases List.mem_singleton.1 hmem
  · -- a chunk failed
    refine iff_of_true ⟨?_, ?_⟩ ?_
    · rintro e' uploadId' - ⟨answer'', hmem, hok⟩
      rcases mem_session honly hmem fun _ => Request.noConfusion with heq | heq
      · cases heq
        obtain rfl : uploadId = uploadId' := Except.ok.inj (hstart.symm.trans hok)
        exact ⟨answer', List.mem_cons_of_mem _
          (List.mem_append_right _ (List.mem_singleton_self _))⟩
      · cases heq
    · rintro uploadId' ⟨answer'', n, hmem, -⟩
      rcases mem_session honly hmem fun _ => Request.noConfusion with heq | heq <;> cases heq
    · intro uploadId' answer'' hmem
      rcases mem_session honly hmem fun _ => Request.noConfusion with heq | heq <;> cases heq
  · -- the commit was reached
    have hcommit : ∀ {uploadId' : Text} {answer'' : Answer},
        ⟨.commitUpload link uploadId', answer''⟩ ∈ (⟨.startUpload link, answer⟩ ::
          (tr' ++ [⟨.commitUpload link uploadId, answer'⟩]) : List Exchange) →
              answer'' = answer' := by
      intro uploadId' answer'' hmem
      rcases mem_session honly hmem fun _ => Request.noConfusion with heq | heq
      · cases heq
      · cases heq
        rfl
    constructor
    · intro hleaves uploadId' answer'' hmem
      obtain rfl := hcommit hmem
      cases hresult : commitUploadResult descriptions answer'' with
      | ok n => exact ⟨n, rfl⟩
      | error e =>
        obtain ⟨answer', hcancel⟩ :=
          hleaves.cancelled e uploadId hresult ⟨answer, List.mem_cons_self, hstart⟩
        rcases mem_session honly hcancel fun _ => Request.noConfusion with heq | heq <;> cases heq
    · intro hok
      refine ⟨?_, ?_⟩
      · rintro e' uploadId' herror -
        obtain ⟨n, hn⟩ := hok uploadId answer'
          (List.mem_cons_of_mem _ (List.mem_append_right _ (List.mem_singleton_self _)))
        cases hn.symm.trans herror
      · rintro uploadId' - ⟨answer'', hmem⟩
        rcases mem_session honly hmem fun _ => Request.noConfusion with heq | heq <;> cases heq

section

variable {descriptions : Descriptions} {link : LinkAccess} {uploadId : Text}

/-- The run in which the chunks are accepted. -/
theorem trace_uploadUsers_commit {userIds : List Text} {started accepted : Answer}
    (committed : Answer) (hlen : putMaxUsers < userIds.length)
    (hstarted : startUploadResult descriptions started = .ok uploadId)
    (haccepted : uploadChunkResult descriptions accepted = .ok ()) :
    Program.Trace (uploadUsers descriptions link userIds).run
      (⟨.startUpload link, started⟩ ::
        ((chunks chunkSize userIds).map (fun piece => ⟨.uploadChunk link uploadId piece, accepted⟩)
          ++ [⟨.commitUpload link uploadId, committed⟩]))
          (commitUploadResult descriptions committed) := by
  have hchunks :
    ∀ pieces : List (List Text), Program.Trace (uploadChunks descriptions link uploadId pieces).run
      (pieces.map fun piece => ⟨.uploadChunk link uploadId piece, accepted⟩) (.ok ()) := by
    intro pieces
    induction pieces with
    | nil => exact Program.Trace.pure _
    | cons piece rest ih =>
      rw [run_uploadChunks_cons]
      refine Program.trace_call.2 ⟨accepted, _, rfl, ?_⟩
      simp only [haccepted]
      exact ih
  rw [uploadUsers, if_neg (not_le.2 hlen)]
  refine Program.trace_except_bind.2
    (Or.inr ⟨uploadId, [_], _, rfl, trace_request.2 ⟨started, rfl, hstarted.symm⟩, ?_⟩)
  exact Program.trace_except_bind.2
    (Or.inr ⟨(), _, _, rfl, hchunks _, trace_request.2 ⟨committed, rfl, rfl⟩⟩)

end

/-- Numbers for statuses, and one word for all that is no JSON. -/
def plainDescriptions : Descriptions := ⟨Text.ofNat, fun _ => "syntax".toList⟩

def someLink : LinkAccess := ⟨"1".toList, "2".toList, "t".toList⟩

def manyIds : List Text := List.replicate 100001 "7".toList

private theorem manyIds_length : putMaxUsers < manyIds.length := by
  rw [manyIds, List.length_replicate]
  decide

/-- The body of a started session. -/
def startedBody (uploadId : Text) : Value :=
  .object [("data".toList, .object [("upload_id".toList, .string uploadId)])]

/-- The session is open. -/
def sessionStarted (uploadId : Text) : Answer :=
  .ok ⟨201, .ok ((startedBody uploadId).text fun _ => [])⟩

def chunkAccepted : Answer := .ok ⟨204, .ok []⟩

/-- The removals wait for the owner's confirmation. -/
def commitHeld : Answer := .ok ⟨409, .ok confirmRequired⟩

theorem sessionStarted_result (descriptions : Descriptions) (uploadId : Text) :
    startUploadResult descriptions (sessionStarted uploadId) = .ok uploadId := by
  have hread : Value.read ((startedBody uploadId).text fun _ => []) = some (startedBody uploadId) :=
    Value.read_text ⟨List.pairwise_singleton _ _, ⟨List.pairwise_singleton _ _, trivial, trivial⟩,
      trivial⟩
  have hjson : json descriptions ⟨201, .ok ((startedBody uploadId).text fun _ => [])⟩ =
      .ok (startedBody uploadId) := by
    simp only [json, hread]
  have hsuccess : (⟨201, .ok ((startedBody uploadId).text fun _ => [])⟩ : HttpResponse).isSuccess =
    true := rfl
  rw [startUploadResult, sessionStarted, settle, if_pos hsuccess, hjson]
  rfl

/-- The first chunk fails. -/
theorem upload_leaves_no_session_iff_chunk :
    LeavesNoSession plainDescriptions someLink
      [⟨.startUpload someLink, sessionStarted "u".toList⟩,
        ⟨.uploadChunk someLink "u".toList (manyIds.take chunkSize), .error []⟩,
        ⟨.cancelUpload someLink "u".toList, chunkAccepted⟩] (.error (.roleLogic [])) := by
  have hne : manyIds ≠ [] := List.ne_nil_of_length_pos (Nat.zero_lt_of_lt manyIds_length)
  have htrace : Program.Trace (uploadUsers plainDescriptions someLink manyIds).run
      [⟨.startUpload someLink, sessionStarted "u".toList⟩,
        ⟨.uploadChunk someLink "u".toList (manyIds.take chunkSize), .error []⟩,
        ⟨.cancelUpload someLink "u".toList, chunkAccepted⟩] (.error (.roleLogic [])) := by
    have hchunks : chunks chunkSize manyIds = manyIds.take chunkSize ::
        chunks chunkSize (manyIds.drop chunkSize) :=
      chunks_of_ne_nil hne (by decide)
    rw [uploadUsers, if_neg (not_le.2 manyIds_length), hchunks]
    refine Program.trace_except_bind.2 (Or.inr ⟨"u".toList, [_], _, rfl,
      trace_request.2 ⟨_, rfl, (sessionStarted_result _ _).symm⟩, ?_⟩)
    refine Program.trace_except_bind.2 (Or.inl ⟨_, rfl, ?_⟩)
    rw [run_uploadChunks_cons]
    exact Program.trace_call.2 ⟨.error [], _, rfl,
      Program.trace_call.2 ⟨chunkAccepted, _, rfl, Program.Trace.pure _⟩⟩
  refine (upload_leaves_no_session_iff manyIds_length htrace).2 fun uploadId answer hmem => ?_
  rcases List.mem_cons.1 hmem with h | hmem
  · cases h
  rcases List.mem_cons.1 hmem with h | hmem
  · cases h
  · cases List.mem_singleton.1 hmem

/-- The commit is held, and the session stays open. -/
theorem not_upload_leaves_no_session :
    ¬∀ (descriptions : Descriptions) (link : LinkAccess) (userIds : List Text) (tr : List Exchange)
      (r : Except AppError Nat), putMaxUsers < userIds.length →
        Program.Trace (uploadUsers descriptions link userIds).run tr r →
          LeavesNoSession descriptions link tr r := by
  intro h
  have hstarted := sessionStarted_result plainDescriptions "u".toList
  have haccepted : uploadChunkResult plainDescriptions chunkAccepted = .ok () := rfl
  have hleaves := h _ someLink _ _ _ manyIds_length
    (trace_uploadUsers_commit commitHeld manyIds_length hstarted haccepted)
  obtain ⟨answer, hcancel⟩ :=
    hleaves.cancelled .removalHeld "u".toList (by decide) ⟨_, List.mem_cons_self, hstarted⟩
  have honly : OnlyChunks someLink "u".toList
      ((chunks chunkSize manyIds).map fun piece =>
        ⟨.uploadChunk someLink "u".toList piece, chunkAccepted⟩) := by
    intro x hx
    obtain ⟨piece, -, rfl⟩ := List.mem_map.1 hx
    exact ⟨piece, rfl⟩
  rcases mem_session honly hcancel fun _ => Request.noConfusion with heq | heq <;> cases heq

end RoleLogic

end FormRespondentRole
