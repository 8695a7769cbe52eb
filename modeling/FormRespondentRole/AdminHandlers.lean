import FormRespondentRole.Database
import FormRespondentRole.RoleConfig

/-!
# Admin handlers

The JSON endpoints of the form builder, as programs over their statements.  They start from a
request that has passed the origin check and the manager check for its guild; log lines are left
out.  What a handler draws at random is an argument.
-/

namespace FormRespondentRole

open Foundations

/-- What the handlers call outside the database. -/
structure AdminLibs where
  libs : Libs
  parseUuid : Text → Option Uuid
  toRfc3339 : Instant → Text
  schemaFromValue : Value → Except Text FormSchema
  sanityCheck : FormSchema → Except (List Text) Unit
  validateQuizKeys : FormSchema → Except (List Text) Unit
  isSafeUrl : Text → Bool
  starterBlank : Value
  starterApplication : Value
  starterServerQuiz : Value

namespace Admin

def json (entries : List (String × Value)) : Value :=
  .object (Value.ofEntries (entries.map fun e => (e.1.toList, e.2)))

theorem json_get (entries : List (String × Value)) (k : String) :
    (json entries).get k.toList = entries.reverse.lookup k := by
  rw [json, Value.get, Value.lookup_ofEntries, ← List.map_reverse]
  induction entries.reverse with
  | nil => rfl
  | cons e es ih =>
    rw [List.map_cons, List.lookup_cons, List.lookup_cons, ih]
    have hkey : (k.toList == e.1.toList) = (k == e.1) := by
      rw [Bool.eq_iff_iff, beq_iff_eq, beq_iff_eq, String.toList_inj]
    rw [hkey]

def jsonNat (n : Nat) : Value := .number (.posInt (n % 2 ^ 64) (Nat.mod_lt _ (by decide)))

def jsonInt (n : Int32) : Value := Value.ofI64 n.toInt (int32_bounds n)

def jsonOption {α : Type} (f : α → Value) : Option α → Value
  | some a => f a
  | none => .null

def liftExcept {α : Type} : Except AppError α → AdminM α
  | .ok a => pure a
  | .error e => throw e

def formNotFound : AppError := .notFound "Form not found.".toList

/-- What `fetch_one` answers when there is no row. -/
def rowNotFound : AppError :=
  .database "no rows returned by a query that expected to return at least one row".toList

section

variable (libs : AdminLibs)

def formUuid (formId : Text) : AdminM Uuid :=
  match libs.parseUuid formId with
  | some id => pure id
  | none => throw (.badRequest "Invalid form id.".toList)

/-! ### Settings -/

def listData (guildId : Text) : AdminM Value := do
  let rows ← query (.listForms guildId)
  let viewPermission ← query (.selectViewPermission guildId)
  let items := rows.map fun (form, responseCount, linkCount) => json [("id", .string form.id.text),
    ("slug", .string form.slug), ("title", .string form.title), ("is_quiz", .bool form.isQuiz),
    ("archived", .bool form.archived), ("updated_at", .string (libs.toRfc3339 form.updatedAt)),
    ("response_count", jsonNat responseCount), ("bound_role_links_count", jsonNat linkCount)]
  return json [("forms", .array items),
    ("view_permission", .string (viewPermission.getD "managers".toList))]

def setViewPermission (guildId viewPermission : Text) : AdminM Value := do
  if viewPermission ≠ "members".toList ∧ viewPermission ≠ "managers".toList then
    throw (.badRequest ("Unknown view_permission '".toList ++ viewPermission ++
      "'. Use 'members' or 'managers'.".toList))
  query (.upsertViewPermission guildId viewPermission)
  return json [("success", .bool true), ("view_permission", .string viewPermission)]

/-! ### Creating forms -/

/-- The random choices of a handler that creates a form. -/
structure Draws where
  newId : Uuid
  previewToken : Text
  slug : Nat → Text

def templateSchema (name : Text) : Except AppError Value :=
  if name = "application".toList then .ok libs.starterApplication
  else if name = "server_quiz".toList then .ok libs.starterServerQuiz
  else if name = "blank".toList ∨ name = [] then .ok libs.starterBlank
  else .error (.badRequest ("Unknown template '".toList ++ name ++
    "'. Use blank, application, or server_quiz.".toList))

/-- Sets a member of an object. -/
def insertMember (key : Text) (value : Value) : Value → Value
  | .object fields => .object (Value.insertEntry key value fields)
  | v => v

def removeMember (key : Text) : Value → Value
  | .object fields => .object (fields.filter (·.1 ≠ key))
  | v => v

/-- The integer that a number holds, if it is within the bounds. -/
def intWithin (low high : Int) : Value → Option Int32
  | .number n => (n.asI64.filter fun i => decide (low ≤ i ∧ i ≤ high)).map Int32.ofInt
  | _ => none

/-- The row of a fresh form, but for its slug. -/
def freshForm (guildId : Text) (draws : Draws) (templateName : Text) (title : Option Text) :
    Except AppError Form := do
  let template ← templateSchema libs templateName
  let titled := match title with
    | some title => insertMember "title".toList (.string title) template
    | none => template
  let templatePassingScore := (titled.get "passing_score".toList).bind (intWithin 0 1000000)
  let schemaValue := removeMember "passing_score".toList titled
  let parsed ← (libs.schemaFromValue schemaValue).mapError fun e =>
    .internal ("starter template invalid: ".toList ++ e)
  let isQuiz := parsed.iterQuestions.any fun q => q.correct.isSome || q.points.isSome
  return {
    id := draws.newId
    guildId := guildId
    slug := []
    title := if Text.trim parsed.title = [] then "Untitled form".toList else parsed.title
    description := parsed.description
    schema := schemaValue
    isQuiz := isQuiz
    passingScore := if isQuiz then templatePassingScore else none
    previewToken := draws.previewToken }

/-- Inserts the form under the first of the slugs that is free. -/
def insertWithRetry (form : Form) : List Text → AdminM Value
  | [] => throw (.internal "slug collision after 5 attempts".toList)
  | slug :: slugs => do
    if ← query (.insertForm { form with slug := slug }) then
      return json [("id", .string form.id.text), ("slug", .string slug),
        ("preview_token", .string form.previewToken)]
    else insertWithRetry form slugs

def slugs (draws : Draws) : List Text := (List.range 5).map draws.slug

def createForm (guildId : Text) (draws : Draws) (templateName : Text) (title : Option Text) :
    AdminM Value := do
  let form ← liftExcept (freshForm libs guildId draws templateName title)
  insertWithRetry form (slugs draws)

def copyOf (src : Form) (guildId : Text) (draws : Draws) : Form where
  id := draws.newId
  guildId := guildId
  slug := []
  title := src.title ++ " (copy)".toList
  description := src.description
  schema := src.schema
  isQuiz := src.isQuiz
  allowEdits := src.allowEdits
  singleSubmission := src.singleSubmission
  passingScore := src.passingScore
  requireVerified := src.requireVerified
  minAccountAgeDays := src.minAccountAgeDays
  successMessage := src.successMessage
  webhookUrl := src.webhookUrl
  maxAttempts := src.maxAttempts
  retryCooldownSeconds := src.retryCooldownSeconds
  retryPolicy := src.retryPolicy
  lockOnPass := src.lockOnPass
  previewToken := draws.previewToken

def duplicateForm (guildId formId : Text) (draws : Draws) : AdminM Value := do
  let id ← formUuid libs formId
  match ← query (.selectForm id guildId) with
  | none => throw formNotFound
  | some src => insertWithRetry (copyOf src guildId draws) (slugs draws)

/-! ### The builder -/

def builderData (guildId formId : Text) : AdminM Value := do
  let id ← formUuid libs formId
  match ← query (.selectForm id guildId) with
  | none => throw formNotFound
  | some row =>
    let responseCount ← query (.countResponses formId guildId)
    let linkCount ← query (.countLinks formId guildId)
    return json [("id", .string row.id.text), ("slug", .string row.slug),
      ("title", .string row.title),
      ("description", .string row.description), ("version", jsonInt row.version),
        ("schema", row.schema),
      ("is_quiz", .bool row.isQuiz), ("open_at", jsonOption (.string ∘ libs.toRfc3339) row.openAt),
      ("close_at", jsonOption (.string ∘ libs.toRfc3339) row.closeAt),
        ("allow_edits", .bool row.allowEdits),
      ("single_submission", .bool row.singleSubmission),
        ("passing_score", jsonOption jsonInt row.passingScore),
      ("require_verified", .bool row.requireVerified),
        ("min_account_age_days", jsonInt row.minAccountAgeDays),
      ("success_message", .string row.successMessage), ("preview_token", .string row.previewToken),
      ("webhook_url", jsonOption .string row.webhookUrl), ("archived", .bool row.archived),
      ("max_attempts", jsonInt row.maxAttempts),
        ("retry_cooldown_seconds", jsonInt row.retryCooldownSeconds),
      ("retry_policy", .string row.retryPolicy), ("lock_on_pass", .bool row.lockOnPass),
      ("response_count", jsonNat responseCount), ("bound_role_links_count", jsonNat linkCount)]

structure UpdateBody where
  title : Text
  description : Text := []
  schema : Value
  isQuiz : Bool := false
  openAt : Option Instant := none
  closeAt : Option Instant := none
  allowEdits : Bool := false
  singleSubmission : Bool := true
  passingScore : Option Int32 := none
  requireVerified : Bool := false
  minAccountAgeDays : Int32 := 0
  successMessage : Text := "Thanks for your response!".toList
  webhookUrl : Option Text := none
  archived : Bool := false
  maxAttempts : Int32 := 1
  retryCooldownSeconds : Int32 := 0
  retryPolicy : Text := "keep_best".toList
  lockOnPass : Bool := true
  version : Int32

def maxRetryAttempts : Int32 := 50

def maxRetryCooldownSeconds : Int32 := 90 * 24 * 60 * 60

/-- The stored schema: what the client sent, under the title and the description of the form. -/
def UpdateBody.schemaValue (body : UpdateBody) : Value :=
  insertMember "description".toList (.string body.description)
    (insertMember "title".toList (.string body.title) body.schema)

/-- The errors of a check, as one message. -/
def joined (check : Except (List Text) Unit) : Except AppError Unit :=
  check.mapError fun errs => .badRequest (List.intercalate " ".toList errs)

def requireThat (p : Prop) [Decidable p] (msg : Text) : Except AppError Unit :=
  if p then .ok () else .error (.badRequest msg)

/-- The checks of a save, with the columns that it writes and the schema that it parsed. -/
def checkUpdate (body : UpdateBody) : Except AppError (FormEdit × FormSchema) := do
  let parsed ← (libs.schemaFromValue body.schemaValue).mapError fun e =>
    AppError.badRequest ("Schema is not a valid form definition: ".toList ++ e)
  joined (libs.sanityCheck parsed)
  if body.isQuiz then joined (libs.validateQuizKeys parsed)
  requireThat (0 ≤ body.minAccountAgeDays ∧ body.minAccountAgeDays ≤ 3650)
    "min_account_age_days must be between 0 and 3650.".toList
  requireThat (body.passingScore.all fun score => 0 ≤ score ∧ score ≤ 1000000)
    "passing_score must be between 0 and 1,000,000.".toList
  requireThat (body.webhookUrl.all fun url => url = [] ∨ libs.isSafeUrl url = true)
    "webhook_url must be an https:// URL on a public host.".toList
  requireThat (0 ≤ body.maxAttempts ∧ body.maxAttempts ≤ maxRetryAttempts)
    "max_attempts must be between 0 (unlimited) and 50.".toList
  requireThat (0 ≤ body.retryCooldownSeconds ∧ body.retryCooldownSeconds ≤ maxRetryCooldownSeconds)
    "retry_cooldown_seconds must be between 0 and 7,776,000 (90 days).".toList
  requireThat (body.retryPolicy = "keep_best".toList ∨ body.retryPolicy = "keep_latest".toList)
    ("Unknown retry_policy '".toList ++ body.retryPolicy ++
      "'. Use 'keep_best' or 'keep_latest'.".toList)
  let edit : FormEdit := {
    title := body.title
    description := body.description
    schema := body.schemaValue
    isQuiz := body.isQuiz
    openAt := body.openAt
    closeAt := body.closeAt
    -- a quiz is graded once, whatever the client sent
    allowEdits := body.allowEdits && !body.isQuiz
    singleSubmission := body.singleSubmission || body.isQuiz
    passingScore := if body.isQuiz then body.passingScore else none
    requireVerified := body.requireVerified
    minAccountAgeDays := body.minAccountAgeDays
    successMessage := body.successMessage
    webhookUrl := body.webhookUrl.filter (· ≠ [])
    archived := body.archived
    maxAttempts := body.maxAttempts
    retryCooldownSeconds := body.retryCooldownSeconds
    retryPolicy := body.retryPolicy
    lockOnPass := body.lockOnPass }
  return (edit, parsed)

/-- The question that a stored condition names. -/
def namedQuestion (condition : Value) : Option Text := do
  let target ← condition.get "target".toList
  if (target.get "kind".toList).bind Value.asStr = some "question".toList then
    (target.get "question_id".toList).bind Value.asStr
  else none

/-- The warnings about the conditions of a link that name no question of the schema. -/
def conditionWarnings (parsed : FormSchema) (roleId : Text) (conditions : Value) : List Text :=
  ((conditions.asArray.getD []).filterMap namedQuestion).filterMap fun qid =>
    if qid ∈ parsed.iterQuestions.map (·.id) then none
    else some ("Role <".toList ++ roleId ++ "> references question \"".toList ++ qid ++
      "\" which no longer exists.".toList)

def ungradedWarning : Text :=
  ("Quiz mode is on but no questions are graded yet — mark a correct answer (and give it " ++
    "points) so submissions can be scored.").toList

def quizWarnings (isQuiz : Bool) (parsed : FormSchema) : List Text :=
  if isQuiz ∧ quizGradedCount libs.libs.floatText parsed = 0 then [ungradedWarning] else []

/-- The links of a saved form in turn: their warnings, and a re-sync whose failure is only
logged. -/
def resyncLinks (parsed : FormSchema) : List LinkKey → AdminM (List Text)
  | [] => pure []
  | (guildId, roleId) :: rest => do
    match ← query (.selectLink guildId roleId) with
    | none => throw rowNotFound
    | some link =>
      let _ ← tryQuery (.enqueueConfigSync guildId roleId)
      let warnings ← resyncLinks parsed rest
      return conditionWarnings parsed roleId link.conditions ++ warnings

def updateForm (guildId formId : Text) (body : UpdateBody) : AdminM Value := do
  let id ← formUuid libs formId
  let (edit, parsed) ← liftExcept (checkUpdate libs body)
  let updated ← query (.updateForm id guildId body.version edit)
  if updated = 0 then
    match ← query (.selectVersion id guildId) with
    | some _ => throw .staleVersion
    | none => throw formNotFound
  else
    let bound ← query (.selectBound formId)
    let warnings ← resyncLinks parsed bound
    match ← query (.selectVersion id guildId) with
    | none => throw rowNotFound
    | some newVersion =>
      return json [("version", jsonInt newVersion),
        ("warnings", .array ((quizWarnings libs body.isQuiz parsed ++ warnings).map .string))]

/-- A re-sync for each link, whose failure is only logged. -/
def enqueueEach : List LinkKey → AdminM Unit
  | [] => pure ()
  | (guildId, roleId) :: rest => do
    let _ ← tryQuery (.enqueueConfigSync guildId roleId)
    enqueueEach rest

def deleteForm (guildId formId : Text) : AdminM Value := do
  let id ← formUuid libs formId
  if !(← query (.ownsForm id guildId)) then throw formNotFound
  let bound ← query (.selectBound formId)
  query .begin
  query (.unbindLinks formId)
  let _ ← query (.deleteResponses formId)
  let deleted ← query (.deleteForm id guildId)
  if deleted = 0 then throw formNotFound
  query .commit
  enqueueEach bound
  return json [("success", .bool true)]

end

end Admin

end FormRespondentRole
