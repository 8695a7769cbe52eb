import FormRespondentRole.Error
import FormRespondentRole.Jobs
import FormRespondentRole.Retry

/-!
# Submitting a form

The parts of `post_submit` between its database statements: the checks on the loaded form, the
grading of the answers, the choice of the write, and the reply.  They start from a request that has
passed the origin check and carries a valid session.  The form validator and the quiz scorer are a
parameter, and so is the RFC 3339 text of a time.
-/

namespace FormRespondentRole

open Foundations

/-- `form_validator`: reading a stored schema, normalising the answers against it, and scoring
them. -/
structure FormValidator where
  Schema : Type
  fromValue : Value → Except Text Schema
  validate : Schema → Value → Except (List FieldError) (List (Text × Value))
  computeQuizScore : Schema → List (Text × Value) → Int32

/-! ### The form's policy -/

namespace Form

/-- Quizzes keep a single canonical response whatever the form says. -/
def keepsOne (form : Form) : Bool := form.singleSubmission || form.isQuiz

def editable (form : Form) : Bool := form.allowEdits && !form.isQuiz

def isRetryGoverned (form : Form) : Bool := form.keepsOne && !form.editable

def retryConfig (form : Form) : Retry.Config where
  maxAttempts := form.maxAttempts
  cooldownSeconds := form.retryCooldownSeconds.toInt
  policy := .fromStrOrDefault form.retryPolicy
  lockOnPass := form.lockOnPass

end Form

/-! ### Checks -/

structure SubmitBody where
  answers : Value
  version : Int32

structure Submission where
  slug : Text
  discordId : Text
  displayName : Text
  body : SubmitBody

/-- Whole days since the account was created, as its id tells. -/
def discordAccountAgeDays (discordId : Text) (now : Instant) : Option Int :=
  (Text.parseU64 discordId).map fun snowflake =>
    let ms := snowflake / 2 ^ 22 + 1420070400000
    (now - seconds (ms / 1000 : Nat)).tdiv (seconds 86400)

/-- The verified answers with their score, and whether the score reaches the form's threshold. -/
structure Graded where
  answers : Value
  totalScore : Option Int32
  passed : Option Bool

def grade (validator : FormValidator) (form : Form) (body : SubmitBody) : Except AppError Graded :=
  do
  let schema ← (validator.fromValue form.schema).mapError fun e =>
    .internal ("form schema invalid: ".toList ++ e)
  let verified ← (validator.validate schema body.answers).mapError .validationFailed
  let totalScore := if form.isQuiz then some (validator.computeQuizScore schema verified) else none
  let passed := match totalScore, form.passingScore with
    | some s, some t => some (decide (t ≤ s))
    | _, _ => none
  pure ⟨.object verified, totalScore, passed⟩

/-- The checks that come before the grading.  `now` and `ageNow` are the two readings of the clock,
and `guildIds` is what the gateway answers when the form asks for verified members. -/
def checkSubmit (form : Form) (sub : Submission) (now ageNow : Instant)
    (guildIds : Except AppError (List Text)) :
    Except AppError Unit := do
  if form.archived then throw (.formNotFound sub.slug)
  if form.version ≠ sub.body.version then throw .staleVersion
  if form.openAt.any (now < ·) || form.closeAt.any (· < now) then throw .formClosed
  if 0 < form.minAccountAgeDays then
    let age := (discordAccountAgeDays sub.discordId ageNow).getD 0
    if age < form.minAccountAgeDays.toInt then
      throw (.forbidden ("Account must be ≥".toList ++ Text.ofInt form.minAccountAgeDays.toInt ++
        " days old.".toList))
  if form.requireVerified then
    let guildIds ← guildIds
    if form.guildId ∉ guildIds then
      throw (.forbidden "You must be a member of the server first.".toList)

/-- What happens between loading the form and taking the lock. -/
def admitSubmit (validator : FormValidator) (form : Form) (sub : Submission) (now ageNow : Instant)
    (guildIds : Except AppError (List Text)) : Except AppError Graded := do
  checkSubmit form sub now ageNow guildIds
  grade validator form sub.body

/-! ### The write -/

/-- The columns that are read of the canonical row. -/
structure CanonicalAttempt where
  id : Uuid
  attemptCount : Int32
  totalScore : Option Int32
  passed : Option Bool
  lastEditedAt : Instant

def FormResponse.toCanonical (row : FormResponse) : CanonicalAttempt :=
  ⟨row.id, row.attemptCount, row.totalScore, row.passed, row.lastEditedAt⟩

def CanonicalAttempt.toExisting (r : CanonicalAttempt) : Retry.ExistingAttempt :=
  ⟨r.attemptCount, r.lastEditedAt, r.totalScore, r.passed⟩

/-- The statement that stores a submission. -/
inductive ResponseWrite
  | insert (attemptCount : Int32) (totalScore : Option Int32) (passed : Option Bool)
  /-- A free edit: not an attempt. -/
  | edit (id : Uuid) (totalScore : Option Int32) (passed : Option Bool)
  | overwrite (id : Uuid) (attemptCount : Int32) (totalScore : Option Int32) (passed : Option Bool)
  /-- The stored answers stay, and the attempt is recorded. -/
  | record (id : Uuid) (attemptCount : Int32) (totalScore : Option Int32) (passed : Option Bool)

def governedWrite (form : Form) (now : Instant) (g : Graded) (existing : Option CanonicalAttempt) :
    Except AppError ResponseWrite :=
  match Retry.decide now form.retryConfig (existing.map (·.toExisting))
      ⟨g.totalScore, g.passed⟩ with
  | .error .alreadyPassed => .error .alreadyPassed
  | .error (.attemptsExhausted max) =>
    .error (if max ≤ 1 then .duplicateSubmission else .attemptsExhausted max.toInt)
  | .error (.cooldown retryAfterSeconds _) => .error (.retryCooldown retryAfterSeconds)
  | .ok a =>
    match existing with
    | some r =>
      if a.overwriteAnswers then .ok (.overwrite r.id a.attemptCount a.totalScore a.passed)
      else .ok (.record r.id a.attemptCount a.totalScore a.passed)
    | none => .ok (.insert a.attemptCount a.totalScore a.passed)

def submitWrite (form : Form) (now : Instant) (g : Graded) (existing : Option CanonicalAttempt) :
    Except AppError ResponseWrite :=
  if !form.keepsOne then .ok (.insert 1 g.totalScore g.passed)
  else if form.editable then
    match existing with
    | some r => .ok (.edit r.id g.totalScore g.passed)
    | none => .ok (.insert 1 g.totalScore g.passed)
  else governedWrite form now g existing

/-- What the written statement binds besides the columns of the write itself. -/
structure WriteBinds where
  newId : Uuid
  formId : Text
  guildId : Text
  discordId : Text
  answers : Value
  version : Int32
  now : Instant

def ResponseWrite.rowId (binds : WriteBinds) : ResponseWrite → Uuid
  | insert .. => binds.newId
  | edit id .. | overwrite id .. | record id .. => id

def insertedRow (binds : WriteBinds) (attemptCount : Int32) (totalScore : Option Int32)
    (passed : Option Bool) :
    FormResponse where
  id := binds.newId
  formId := binds.formId
  guildId := binds.guildId
  discordId := binds.discordId
  answers := binds.answers
  totalScore := totalScore
  schemaVersion := binds.version
  attemptCount := attemptCount
  passed := passed
  submittedAt := binds.now
  lastEditedAt := binds.now

def editSet (binds : WriteBinds) (totalScore : Option Int32) (passed : Option Bool) :
    SetClause FormResponse.id where
  set row :=
    { row with
      answers := binds.answers
      totalScore := totalScore
      passed := passed
      schemaVersion := binds.version
      lastEditedAt := binds.now }
  key_set _ := rfl

def overwriteSet (binds : WriteBinds) (attemptCount : Int32) (totalScore : Option Int32)
    (passed : Option Bool) :
    SetClause FormResponse.id where
  set row :=
    { row with
      answers := binds.answers
      totalScore := totalScore
      passed := passed
      attemptCount := attemptCount
      schemaVersion := binds.version
      lastEditedAt := binds.now }
  key_set _ := rfl

def recordSet (binds : WriteBinds) (attemptCount : Int32) (totalScore : Option Int32)
    (passed : Option Bool) :
    SetClause FormResponse.id where
  set row :=
    { row with
      totalScore := totalScore
      passed := passed
      attemptCount := attemptCount
      lastEditedAt := binds.now }
  key_set _ := rfl

abbrev ResponseTable := Table FormResponse.id

/-- The statement; `none` when the new id is taken. -/
def ResponseWrite.apply (binds : WriteBinds) (t : ResponseTable) :
    ResponseWrite → Option ResponseTable
  | insert attemptCount totalScore passed =>
    if h : binds.newId ∉ t.rows.map FormResponse.id then
      some (t.insert (insertedRow binds attemptCount totalScore passed) h)
    else none
  | edit id totalScore passed => some (t.update (·.id = id) (editSet binds totalScore passed))
  | overwrite id attemptCount totalScore passed =>
    some (t.update (·.id = id) (overwriteSet binds attemptCount totalScore passed))
  | record id attemptCount totalScore passed =>
    some (t.update (·.id = id) (recordSet binds attemptCount totalScore passed))

/-! ### Jobs and reply -/

/-- The number value of an `INTEGER`. -/
def Int32.toValue (n : Int32) : Value := Value.ofI64 n.toInt (int32_bounds n)

def optionValue {α : Type} (f : α → Value) : Option α → Value
  | some a => f a
  | none => .null

/-- `webhook::build_payload`. -/
def buildPayload (toRfc3339 : Instant → Text) (now : Instant) (form : Form) (sub : Submission)
    (responseId baseUrl : Text) (totalScore : Option Int32) : Value :=
  let responseUrl := baseUrl ++ "/f/".toList ++ sub.slug
  let scoreLine := match totalScore with
    | some s => "\nScore: ".toList ++ Text.ofInt s.toInt
    | none => []
  let content := "**New submission to \"".toList ++ form.title ++ "\"**\nFrom: <@".toList ++
    sub.discordId ++
    "> (".toList ++ sub.displayName ++ ")".toList ++ scoreLine ++ "\n".toList ++ responseUrl
  .object [("content".toList, .string content), ("discord_id".toList, .string sub.discordId),
    ("form_slug".toList, .string sub.slug), ("form_title".toList, .string form.title),
    ("member_name".toList, .string sub.displayName), ("response_id".toList, .string responseId),
    ("submitted_at".toList, .string (toRfc3339 now)),
      ("total_score".toList, optionValue Int32.toValue totalScore)]

/-- The attempt count that the reply goes by; free edits and unlimited forms have none. -/
def ResponseWrite.attemptCount (form : Form) : ResponseWrite → Option Int32
  | insert n .. | overwrite _ n .. | record _ n .. => if form.isRetryGoverned then some n else none
  | edit .. => none

def submitReply (toRfc3339 : Instant → Text) (form : Form) (now : Instant) (g : Graded)
    (write : ResponseWrite) (responseId : Text) : Value :=
  let config := form.retryConfig
  let attemptsLeft := (write.attemptCount form).bind fun n =>
    if 0 < config.maxAttempts then some (max (config.maxAttempts - n) 0) else none
  let nextAttemptAt := (write.attemptCount form).bind fun _ =>
    if 0 < config.cooldownSeconds then some (now + seconds config.cooldownSeconds) else none
  let retriesEnabled := form.isRetryGoverned && config.retriesEnabled
  let tail := [("retries_enabled".toList, Value.bool retriesEnabled),
    ("success".toList, .bool true)]
  let head := [("attempts_left".toList, optionValue Int32.toValue attemptsLeft),
    ("message".toList, .string form.successMessage),
    ("next_attempt_at".toList, optionValue (fun t => .string (toRfc3339 t)) nextAttemptAt)]
  if form.isQuiz then
    let passed := match g.totalScore, form.passingScore with
      | some s, some t => decide (t ≤ s)
      | some _, none => true
      | none, _ => false
    .object (head ++ ("passed".toList, .bool passed) :: tail)
  else .object (head ++ ("response_id".toList, .string responseId) :: tail)

end FormRespondentRole
