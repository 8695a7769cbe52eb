import FormRespondentRole.Error
import FormRespondentRole.Foundations.JsonText
import FormRespondentRole.Foundations.Program
import FormRespondentRole.Foundations.Search

/-!
# The RoleLogic client

The requests to RoleLogic, as programs over what comes back: each classifies the status and the body
of a refusal with checks of its own.  `upload_users` replaces a user list, with one request or,
above 100,000 ids, in a session: start, chunks, commit.  How a status and an unreadable body are
described is a parameter.
-/

namespace FormRespondentRole

open Foundations

/-- A response, and its body where that can be read. -/
structure HttpResponse where
  status : Nat
  body : Except Text Text

def HttpResponse.isSuccess (r : HttpResponse) : Bool := decide (200 ≤ r.status ∧ r.status < 300)

/-- The body, empty when it cannot be read. -/
def HttpResponse.text (r : HttpResponse) : Text :=
  match r.body with
  | .ok body => body
  | .error _ => []

/-- A link, and the token of its requests. -/
structure LinkAccess where
  guildId : Text
  roleId : Text
  token : Text

namespace RoleLogic

inductive Request
  | addUser (link : LinkAccess) (userId : Text)
  | removeUser (link : LinkAccess) (userId : Text)
  | replaceUsers (link : LinkAccess) (userIds : List Text)
  | startUpload (link : LinkAccess)
  | uploadChunk (link : LinkAccess) (uploadId : Text) (userIds : List Text)
  | commitUpload (link : LinkAccess) (uploadId : Text)
  | cancelUpload (link : LinkAccess) (uploadId : Text)

/-- What a request gets: a response, or the description of a failure to get one. -/
abbrev Answer := Except Text HttpResponse

abbrev RequestProgram := Program Request fun _ => Answer

abbrev RequestM := ExceptT AppError RequestProgram

abbrev Exchange := Program.Exchange Request fun _ => Answer

def putMaxUsers : Nat := 100000

def chunkSize : Nat := 100000

def linkGoneErrorMsg : Text := "Invalid or revoked token".toList

def linkDisabledErrorMsg : Text := "This role link is disabled".toList

def linkPausedErrorMsg : Text := "This role link is paused".toList

def confirmRequired : Text := "confirm_required".toList

/-- A 403 for a link that is gone. -/
def linkGone (status : Nat) (body : Text) : Bool :=
  decide (status = 403) && body.contains linkGoneErrorMsg

/-- A 403 for a link that still exists but is switched off or paused. -/
def linkInactive (status : Nat) (body : Text) : Bool :=
  decide (status = 403) && (body.contains linkDisabledErrorMsg || body.contains linkPausedErrorMsg)

/-- A 409 for a list write the shrink gate is holding. -/
def removalHeld (status : Nat) (body : Text) : Bool :=
  decide (status = 409) && body.contains confirmRequired

/-- The second of the parts that the separator splits a text into. -/
def secondPart (sep : Text) (s : Text) : Option Text :=
  ((Pattern.literal sep).after s).map fun rest => ((Pattern.literal sep).before rest).getD rest

/-- The limit that a field of the body names. -/
def structuredLimit (body : Text) : Option Nat :=
  (((Value.read body).bind (Value.get "data".toList)).bind
    (Value.get "user_limit".toList)).bind fun v =>
      match v with
      | .number (.posInt n _) => some n
      | _ => none

/-- The user cap that the body of a refusal names. -/
def parseUserLimit (body : Text) : Option Nat :=
  (structuredLimit body).or
    ((secondPart "Maximum ".toList body).bind fun after =>
      if after.contains "users per role link".toList then
        (Text.parseU64 (after.takeWhile Char.isDigit))
      else none)

/-- The limit of a refusal with a status that names one. -/
def userLimit (status : Nat) (body : Text) : Option Nat :=
  if status = 400 ∨ status = 403 then parseUserLimit body else none

/-- How the client describes what comes back. -/
structure Descriptions where
  /-- A status code with its reason phrase. -/
  statusText : Nat → Text
  /-- Why a body is no JSON. -/
  jsonError : Text → Text

section

variable (descriptions : Descriptions)

/-- The error of a refusal that nothing else is known of. -/
def unclassified (what : Text) (status : Nat) (body : Text) : AppError :=
  .roleLogic (what ++ " failed: ".toList ++ descriptions.statusText status ++ " - ".toList ++ body)

def addUserRefusal (status : Nat) (body : Text) : AppError :=
  if linkGone status body then .roleLinkNotFound
  else if linkInactive status body then .roleLinkDisabled
  else
    match userLimit status body with
    | some limit => .userLimitReached limit
    | none => unclassified descriptions "Add user".toList status body

def removeUserRefusal (status : Nat) (body : Text) : AppError :=
  if linkGone status body then .roleLinkNotFound
  else if linkInactive status body then .roleLinkDisabled
  else unclassified descriptions "Remove user".toList status body

def replaceUsersRefusal (status : Nat) (body : Text) : AppError :=
  if linkGone status body then .roleLinkNotFound
  else if linkInactive status body then .roleLinkDisabled
  else
    match userLimit status body with
    | some limit => .userLimitReached limit
    | none =>
      if removalHeld status body then .removalHeld
      else unclassified descriptions "Replace users".toList status body

def startUploadRefusal (status : Nat) (body : Text) : AppError :=
  if linkGone status body then .roleLinkNotFound
  else if linkInactive status body then .roleLinkDisabled
  else unclassified descriptions "Start upload".toList status body

def uploadChunkRefusal (status : Nat) (body : Text) : AppError :=
  unclassified descriptions "Upload chunk".toList status body

def commitUploadRefusal (status : Nat) (body : Text) : AppError :=
  if removalHeld status body then .removalHeld
  else unclassified descriptions "Commit upload".toList status body

def cancelUploadRefusal (status : Nat) (body : Text) : AppError :=
  unclassified descriptions "Cancel upload".toList status body

/-- The JSON of a body. -/
def json (response : HttpResponse) : Except AppError Value :=
  match response.body with
  | .error e => .error (.roleLogic e)
  | .ok body =>
    match Value.read body with
    | some v => .ok v
    | none => .error (.roleLogic (descriptions.jsonError body))

/-- A field of the `data` of a body. -/
def dataField (key : Text) (v : Value) : Option Value := (v.get "data".toList).bind (Value.get key)

def flagOf (key : Text) (v : Value) : Bool := ((dataField key v).bind Value.asBool).getD false

def userCount (v : Value) : Nat :=
  match dataField "user_count".toList v with
  | some (.number (.posInt n _)) => n
  | _ => 0

/-- What a request makes of its answer: a refusal is classified, and a success is read. -/
def settle {α : Type} (refusal : Nat → Text → AppError)
    (success : HttpResponse → Except AppError α) :
    Answer → Except AppError α
  | .error e => .error (.roleLogic e)
  | .ok response =>
    if response.isSuccess then success response else .error (refusal response.status response.text)

/-- One request. -/
def request {α : Type} (r : Request) (result : Answer → Except AppError α) : RequestM α :=
  ExceptT.mk (result <$> Program.perform r)

def addUserResult : Answer → Except AppError Bool :=
  settle (addUserRefusal descriptions) fun response =>
    (json descriptions response).map (flagOf "added".toList)

def removeUserResult : Answer → Except AppError Bool :=
  settle (removeUserRefusal descriptions) fun response =>
    (json descriptions response).map (flagOf "removed".toList)

def replaceUsersResult : Answer → Except AppError Nat :=
  settle (replaceUsersRefusal descriptions) fun response =>
    (json descriptions response).map userCount

def startUploadResult : Answer → Except AppError Text :=
  settle (startUploadRefusal descriptions) fun response => do
    let body ← json descriptions response
    match (dataField "upload_id".toList body).bind Value.asStr with
    | some uploadId => .ok uploadId
    | none => .error (.roleLogic "Start upload response missing upload_id".toList)

def uploadChunkResult : Answer → Except AppError Unit :=
  settle (uploadChunkRefusal descriptions) fun _ => .ok ()

def commitUploadResult : Answer → Except AppError Nat :=
  settle (commitUploadRefusal descriptions) fun response =>
    (json descriptions response).map userCount

def cancelUploadResult : Answer → Except AppError Unit :=
  settle (cancelUploadRefusal descriptions) fun _ => .ok ()

def addUser (link : LinkAccess) (userId : Text) : RequestM Bool :=
  request (.addUser link userId) (addUserResult descriptions)

def removeUser (link : LinkAccess) (userId : Text) : RequestM Bool :=
  request (.removeUser link userId) (removeUserResult descriptions)

def replaceUsers (link : LinkAccess) (userIds : List Text) : RequestM Nat :=
  request (.replaceUsers link userIds) (replaceUsersResult descriptions)

def startUpload (link : LinkAccess) : RequestM Text :=
  request (.startUpload link) (startUploadResult descriptions)

def uploadChunk (link : LinkAccess) (uploadId : Text) (userIds : List Text) : RequestM Unit :=
  request (.uploadChunk link uploadId userIds) (uploadChunkResult descriptions)

def commitUpload (link : LinkAccess) (uploadId : Text) : RequestM Nat :=
  request (.commitUpload link uploadId) (commitUploadResult descriptions)

def cancelUpload (link : LinkAccess) (uploadId : Text) : RequestM Unit :=
  request (.cancelUpload link uploadId) (cancelUploadResult descriptions)

/-- The chunks of a session in turn; when one fails, the session is cancelled. -/
def uploadChunks (link : LinkAccess) (uploadId : Text) : List (List Text) → RequestM Unit
  | [] => pure ()
  | chunk :: rest => do
    match ← ExceptT.lift (uploadChunk descriptions link uploadId chunk).run with
    | .ok () => uploadChunks link uploadId rest
    | .error e => do
      -- a failure to cancel is logged only
      let _ ← ExceptT.lift (cancelUpload descriptions link uploadId).run
      throw e

end

/-- A list in pieces of at most `size` elements, all but the last of that size. -/
def chunks (size : Nat) (l : List Text) : List (List Text) :=
  if l = [] ∨ size = 0 then [] else l.take size :: chunks size (l.drop size)
termination_by l.length
decreasing_by
  rename_i h
  have hpos : 0 < l.length := List.length_pos_iff.2 fun hl => h (Or.inl hl)
  have hsize : 0 < size := Nat.pos_of_ne_zero fun hs => h (Or.inr hs)
  simp only [List.length_drop]
  omega

theorem chunks_of_ne_nil {size : Nat} {l : List Text} (hl : l ≠ []) (hsize : size ≠ 0) :
    chunks size l = l.take size :: chunks size (l.drop size) := by
  rw [chunks, if_neg (not_or.2 ⟨hl, hsize⟩)]

/-- The pieces make up the list, and none is empty or too long. -/
theorem chunks_spec {size : Nat} (hsize : size ≠ 0) (l : List Text) :
    (chunks size l).flatten = l ∧ ∀ piece ∈ chunks size l, piece ≠ [] ∧ piece.length ≤ size := by
  induction l using chunks.induct size with
  | case1 l h =>
    have hnil : chunks size l = [] := by rw [chunks, if_pos h]
    rw [hnil]
    exact ⟨(h.resolve_right hsize).symm, fun piece hpiece => absurd hpiece List.not_mem_nil⟩
  | case2 l h ih =>
    have hl : l ≠ [] := fun hl => h (Or.inl hl)
    rw [chunks_of_ne_nil hl hsize, List.flatten_cons, ih.1, List.take_append_drop]
    refine ⟨rfl, List.forall_mem_cons.2 ⟨⟨?_, List.length_take_le _ _⟩, ih.2⟩⟩
    exact fun htake => (List.take_eq_nil_iff.1 htake).elim hsize hl

def uploadUsers (descriptions : Descriptions) (link : LinkAccess) (userIds : List Text) :
    RequestM Nat :=
  if userIds.length ≤ putMaxUsers then replaceUsers descriptions link userIds
  else do
    let uploadId ← startUpload descriptions link
    uploadChunks descriptions link uploadId (chunks chunkSize userIds)
    commitUpload descriptions link uploadId

end RoleLogic

end FormRespondentRole
