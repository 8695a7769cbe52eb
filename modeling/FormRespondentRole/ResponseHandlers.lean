import FormRespondentRole.AdminHandlers

/-!
# Response handlers

The dashboard of a form's responses, its CSV export, and the deletion of responses.
-/

namespace FormRespondentRole

open Foundations

/-- What an admin handler answers when it succeeds. -/
inductive Reply
  | json (v : Value)
  | csv (fileName body : Text)

namespace Admin

section

variable (libs : AdminLibs)

/-! ### Reading -/

def responseJson (row : FormResponse) : Value :=
  json [("id", .string row.id.text), ("discord_id", .string row.discordId),
    ("answers", row.answers),
    ("total_score", jsonOption jsonInt row.totalScore),
      ("submitted_at", .string (libs.toRfc3339 row.submittedAt)),
    ("last_edited_at", .string (libs.toRfc3339 row.lastEditedAt)),
      ("attempt_count", jsonInt row.attemptCount),
    ("passed", jsonOption .bool row.passed)]

def responsesData (guildId formId : Text) : AdminM Value := do
  let id ← formUuid libs formId
  match ← query (.selectForm id guildId) with
  | none => throw formNotFound
  | some form =>
    let rows ← query (.selectRecentResponses formId)
    return json [("title", .string form.title), ("schema", form.schema),
      ("is_quiz", .bool form.isQuiz),
      ("slug", .string form.slug), ("preview_token", .string form.previewToken),
      ("responses", .array (rows.map (responseJson libs)))]

/-! ### The CSV export -/

def csvEscape (s : Text) : Text :=
  if ',' ∈ s ∨ '"' ∈ s ∨ '\n' ∈ s ∨ '\r' ∈ s then
    '"' :: (s.flatMap fun c => if c = '"' then ['"', '"'] else [c]) ++ ['"']
  else s

def csvRow (cells : List Text) : Text := List.intercalate [','] (cells.map csvEscape) ++ ['\n']

def answerToCsv : Option Value → Text
  | none | some .null => []
  | some (.string s) => s
  | some (.number n) => n.text libs.libs.floatText
  | some (.bool b) => if b then "true".toList else "false".toList
  | some (.array xs) => List.intercalate "; ".toList (xs.filterMap Value.asStr)
  | some other => other.text libs.libs.floatText

def csvHeader (isQuiz : Bool) (answerable : List Question) : List Text :=
  ["discord_id".toList, "submitted_at".toList, "last_edited_at".toList] ++
    (if isQuiz then ["total_score".toList] else []) ++ answerable.map (·.title)

def csvCells (isQuiz : Bool) (answerable : List Question) (row : FormResponse) : List Text :=
  [row.discordId, libs.toRfc3339 row.submittedAt, libs.toRfc3339 row.lastEditedAt] ++
    (if isQuiz then [(row.totalScore.map fun s => Text.ofInt s.toInt).getD []] else []) ++
    answerable.map fun q => answerToCsv libs (row.answers.get q.id)

/-- The file name of the export and its text. -/
def responsesCsv (guildId formId : Text) : AdminM (Text × Text) := do
  let id ← formUuid libs formId
  match ← query (.selectForm id guildId) with
  | none => throw formNotFound
  | some form =>
    let schema ← liftExcept ((libs.schemaFromValue form.schema).mapError fun e =>
      .internal ("schema invalid: ".toList ++ e))
    let rows ← query (.selectResponses formId)
    let body := csvRow (csvHeader form.isQuiz schema.iterQuestions) ++
      rows.flatMap fun row => csvRow (csvCells libs form.isQuiz schema.iterQuestions row)
    return ("form-".toList ++ form.slug ++ "-responses.csv".toList, body)

/-! ### Deletion -/

def deleteResponse (guildId formId responseId : Text) : AdminM Value := do
  let id ← formUuid libs formId
  let some respId := libs.parseUuid responseId | throw (.badRequest "Invalid response id.".toList)
  if !(← query (.ownsForm id guildId)) then throw formNotFound
  match ← query (.deleteResponse respId formId) with
  | none => throw (.notFound "Response not found.".toList)
  | some discordId =>
    let _ ← tryQuery (.enqueuePlayerSync (.updated discordId))
    return json [("success", .bool true), ("discord_id", .string discordId)]

def deleteAllResponses (guildId formId : Text) : AdminM Value := do
  let id ← formUuid libs formId
  if !(← query (.ownsForm id guildId)) then throw formNotFound
  let bound ← query (.selectBound formId)
  let deleted ← query (.deleteResponses formId)
  enqueueEach bound
  return json [("success", .bool true), ("deleted", jsonNat deleted)]

end

end Admin

end FormRespondentRole
