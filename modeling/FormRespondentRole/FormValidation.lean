import FormRespondentRole.ConditionEval
import FormRespondentRole.Error
import FormRespondentRole.FormSchema
import FormRespondentRole.Foundations.Binary64Value
import FormRespondentRole.Foundations.Fields
import FormRespondentRole.Foundations.JsonText

/-!
# Checking a submission

`validate` checks the answers of a submission against the questions of the form and normalises them.
How an `f64` is displayed is a parameter, besides the date parsers of `Libs`.
-/

namespace FormRespondentRole

open Foundations

namespace Validation

def defaultMaxTextLen : Nat := 100

def defaultMaxLongTextLen : Nat := 4000

/-- An `i64` as a `usize`. -/
def asUsize (n : Int64) : Nat := n.toUInt64.toNat

def isBlank : Option Value → Bool
  | none | some .null => true
  | some (.string s) => decide (Text.trim s = [])
  | some (.array a) => a.isEmpty
  | some _ => false

/-- The answer to a question that was left blank. -/
def require (q : Question) : Except Text (Option Value) :=
  if q.required then .error "This question is required.".toList else .ok none

/-- The greatest number of characters of a text answer. -/
def maxLen (q : Question) : Nat :=
  (q.maxLength.map asUsize).getD (if q.kind = .longText then defaultMaxLongTextLen
    else defaultMaxTextLen)

def validateText (q : Question) (raw : Option Value) : Except Text (Option Value) :=
  if isBlank raw then require q
  else
    match raw.bind Value.asStr with
    | none => .error "Answer must be text.".toList
    | some s =>
      if maxLen q < (Text.trim s).length then
        .error ("Answer is too long (max ".toList ++ Text.ofNat (maxLen q) ++
          " characters).".toList)
      else .ok (some (.string (Text.trim s)))

section

variable (libs : Libs) (displayF64 : F64 → Text)

/-- The number of an answer. -/
def answerNumber : Option Value → Option F64
  | some (.number n) => some n.asF64
  | some (.string s) => F64.parse (Text.trim s)
  | _ => none

/-- The complaint about a number below the minimum or above the maximum of the question. -/
def rangeError (q : Question) (n : F64) : Option Text :=
  ((q.min.filter fun min => decide (n < min)).map fun min =>
    "Answer must be at least ".toList ++ displayF64 min ++ ".".toList).or
  ((q.max.filter fun max => decide (max < n)).map fun max =>
    "Answer must be at most ".toList ++ displayF64 max ++ ".".toList)

/-- The text that is stored for a number. -/
def numberText (n : F64) : Text := if n.isWhole then Text.ofInt n.toInt64.toInt else displayF64 n

def validateNumber (q : Question) (raw : Option Value) : Except Text (Option Value) :=
  if isBlank raw then require q
  else
    match answerNumber raw with
    | none => .error "Answer must be a number.".toList
    | some n =>
      match rangeError displayF64 q n with
      | some msg => .error msg
      | none => .ok (some (.string (numberText displayF64 n)))

def hasOption (options : List QuestionOption) (s : Text) : Bool :=
  options.any fun o => decide (o.id = s)

def validateSingleChoice (q : Question) (raw : Option Value) : Except Text (Option Value) :=
  if isBlank raw then require q
  else
    match raw.bind Value.asStr, q.options with
    | none, _ => .error "Answer must be a single option id.".toList
    | some _, none => .error "Question is misconfigured (no options).".toList
    | some s, some options =>
      if hasOption options s then .ok (some (.string s))
      else .error "Selected option is not valid for this question.".toList

/-- The selections in turn, up to the first that is not an option. -/
def chosenOptions (options : List QuestionOption) : List Value → Except Text (List Value)
  | [] => .ok []
  | v :: rest =>
    match v.asStr with
    | none => .error "Each selection must be an option id string.".toList
    | some s =>
      if hasOption options s then (chosenOptions options rest).map (.string s :: ·)
      else .error ("Option \"".toList ++ s ++ "\" is not valid for this question.".toList)

def validateMultiChoice (q : Question) (raw : Option Value) : Except Text (Option Value) :=
  if isBlank raw then require q
  else
    match raw.bind Value.asArray, q.options with
    | none, _ => .error "Answer must be a list of option ids.".toList
    | some _, none => .error "Question is misconfigured (no options).".toList
    | some arr, some options => (chosenOptions options arr).map fun chosen => some (.array chosen)

def validateDate (q : Question) (raw : Option Value) : Except Text (Option Value) :=
  if isBlank raw then require q
  else
    match raw.bind Value.asStr with
    | none => .error "Answer must be a date string.".toList
    | some s =>
      -- either YYYY-MM-DD or full RFC 3339
      if (libs.parseDate (Text.trim s)).isNone && (libs.parseFromRfc3339 (Text.trim s)).isNone then
        .error "Date must be in YYYY-MM-DD format.".toList
      else .ok (some (.string (Text.trim s)))

def looksLikeEmail (s : Text) : Bool :=
  match s.splitOn '@' with
  | [localPart, domain] =>
    !localPart.isEmpty && decide (3 ≤ (Text.bytes domain).length) && decide ('.' ∈ domain) &&
      domain.all fun c => c.isAlphanum || c = '.' || c = '-'
  | _ => false

def validateEmail (q : Question) (raw : Option Value) : Except Text (Option Value) :=
  if isBlank raw then require q
  else
    match raw.bind Value.asStr with
    | none => .error "Email must be text.".toList
    | some s =>
      if !looksLikeEmail (Text.trim s) then
        .error "That doesn't look like a valid email address.".toList
      else if 320 < (Text.bytes (Text.trim s)).length then .error "Email is too long.".toList
      else .ok (some (.string (Text.trim s)))

def truthy : Option Value → Bool
  | some (.bool b) => b
  | some (.string s) => decide (s ∈ ["true".toList, "yes".toList, "on".toList, "1".toList])
  | some (.number n) => (n.asI64.map fun i => decide (i ≠ 0)).getD false
  | _ => false

def validateAgreement (q : Question) (raw : Option Value) : Except Text (Option Value) :=
  if !truthy raw then
    if q.required then .error "You must agree to continue.".toList else .ok none
  else .ok (some (.str "true"))

/-- The check of one question. -/
def validateQuestion (q : Question) (raw : Option Value) : Except Text (Option Value) :=
  match q.kind with
  | .shortText | .longText => validateText q raw
  | .number | .scale => validateNumber displayF64 q raw
  | .singleChoice | .dropdown => validateSingleChoice q raw
  | .multiChoice => validateMultiChoice q raw
  | .date => validateDate libs q raw
  | .email => validateEmail q raw
  | .agreement => validateAgreement q raw
  | .info | .image | .video => .ok none

/-- The answers and the errors so far. -/
structure Checked where
  out : List (Text × Value) := []
  errors : List FieldError := []

def Checked.record (c : Checked) (q : Question) (result : Except Text (Option Value)) : Checked :=
  match result with
  | .ok (some v) => { c with out := Value.insertEntry q.id v c.out }
  | .ok none => c
  | .error msg => { c with errors := c.errors ++ [⟨q.id, msg⟩] }

/-- The answers to be stored, or the errors of all questions. -/
def validate (schema : FormSchema) (rawAnswers : Value) :
    Except (List FieldError) (List (Text × Value)) :=
  match rawAnswers with
  | .object answers =>
    let checked : Checked := schema.iterQuestions.foldl
      (fun c q => c.record q (validateQuestion libs displayF64 q (answers.lookup q.id))) {}
    if checked.errors = [] then .ok checked.out else .error checked.errors
  | _ => .error [⟨[], "Answers must be a JSON object.".toList⟩]

/-! ### What is stored -/

/-- The answers that the questions of a list contribute, in the order of the questions. -/
def storedEntries (check : Question → Except Text (Option Value)) (qs : List Question) :
    List (Text × Value) :=
  qs.filterMap fun q => (check q).toOption.join.map fun v => (q.id, v)

/-- The errors of the questions of a list. -/
def reportedErrors (check : Question → Except Text (Option Value)) (qs : List Question) :
    List FieldError :=
  qs.filterMap fun q => match check q with
    | .error msg => some ⟨q.id, msg⟩
    | .ok _ => none

theorem foldl_record (check : Question → Except Text (Option Value)) (qs : List Question)
    (c : Checked) :
    qs.foldl (fun c q => c.record q (check q)) c =
      ⟨(storedEntries check qs).foldl (fun fields e => Value.insertEntry e.1 e.2 fields) c.out,
        c.errors ++ reportedErrors check qs⟩ := by
  induction qs generalizing c with
  | nil => simp [storedEntries, reportedErrors]
  | cons q qs ih =>
    rw [List.foldl_cons, ih]
    cases hcheck : check q with
    | error msg =>
      simp [storedEntries, reportedErrors, Checked.record, hcheck, Except.toOption]
    | ok answer =>
      cases answer <;> simp [storedEntries, reportedErrors, Checked.record, hcheck, Except.toOption]

/-- What is accepted: every question passes its check, and the answers are stored under the ids of
their questions. -/
theorem validate_object_iff {schema : FormSchema} {answers out : List (Text × Value)} :
    validate libs displayF64 schema (.object answers) = .ok out ↔
      (∀ q ∈ schema.iterQuestions, ∃ answer, validateQuestion libs displayF64 q
        (answers.lookup q.id) = .ok answer) ∧
        out = Value.ofEntries
          (storedEntries (fun q => validateQuestion libs displayF64 q (answers.lookup q.id))
            schema.iterQuestions) := by
  have herrors : reportedErrors (fun q => validateQuestion libs displayF64 q (answers.lookup q.id))
    schema.iterQuestions = [] ↔
      ∀ q ∈ schema.iterQuestions, ∃ answer, validateQuestion libs displayF64 q
          (answers.lookup q.id) = .ok answer := by
    rw [reportedErrors, List.filterMap_eq_nil_iff]
    refine forall₂_congr fun q _ => ?_
    cases validateQuestion libs displayF64 q (answers.lookup q.id) <;> simp
  simp only [validate, foldl_record, List.nil_append, ← herrors]
  by_cases hnil : reportedErrors (fun q => validateQuestion libs displayF64 q (answers.lookup q.id))
    schema.iterQuestions = []
  · rw [if_pos hnil]
    simp only [hnil, true_and, Except.ok.injEq]
    exact eq_comm
  · rw [if_neg hnil]
    simp [hnil]

end

end Validation

end FormRespondentRole
