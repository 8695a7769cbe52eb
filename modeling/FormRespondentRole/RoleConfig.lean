import FormRespondentRole.ConditionEval
import FormRespondentRole.Error
import FormRespondentRole.FormSchema
import FormRespondentRole.Foundations.JsonText

/-!
# Saving a role configuration

`parse_role_config` checks the payload of the rule builder and normalises it to the columns of
`role_links`.
-/

namespace FormRespondentRole

open Foundations

structure ConditionInput where
  target : Text
  operator : Text
  value : Value := .null
  valueEnd : Option Value := none

structure RoleConfigBody where
  formId : Option Text := none
  mode : Text
  conditions : List ConditionInput := []
  viewPermission : Option Text := none

structure ParsedConfig where
  formId : Option Text
  grantOnAnySubmission : Bool
  conditions : List Condition
  viewPermission : Option Text

def maxConditions : Nat := 12

/-- The number value of an `i64`. -/
def Value.ofInt64 (n : Int64) : Value := Value.ofI64 n.toInt ⟨n.le_toInt, n.toInt_lt⟩

/-- The beginning of the messages about the n-th condition. -/
def conditionError (n : Nat) (msg : Text) : AppError :=
  .badRequest ("Condition #".toList ++ Text.ofNat n ++ ": ".toList ++ msg)

section

variable (libs : Libs)

/-- The number that a numeric condition stores: fractions are cut off, and what is out of range is
clamped. -/
def conditionNumber : Value → Option Int64
  | .number num => some (match num.asI64 with
    | some n => Int64.ofInt n
    | none => num.asF64.toInt64)
  | .string s => (Text.parseI64 (Text.trim s)).map Int64.ofInt
  | _ => none

/-- The elements of a list operator's value; a string is a comma-separated list. -/
def conditionList : Value → List Value
  | .array a => a.filter fun v => !v.isNull && v.asStr ≠ some []
  | .string s => (((s.splitOn ',').map Text.trim).filter (· ≠ [])).map .string
  | .null => []
  | other => [other]

def normalizeConditionValue (op : ConditionOperator) (raw : Value) (n : Nat) :
    Except AppError Value :=
  match op with
  | .gt | .gte | .lt | .lte | .between =>
    match conditionNumber raw with
    | some parsed => .ok (Value.ofInt64 parsed)
    | none => .error (conditionError n ("numeric value required (got ".toList ++
      raw.text libs.floatText ++ ").".toList))
  | .in' | .containsAll | .containsAny | .notContains =>
    if conditionList raw = [] then
      .error (conditionError n "list operator needs at least one value.".toList)
    else .ok (.array (conditionList raw))
  | .before | .after =>
    let s := Text.trim (raw.asStr.getD [])
    if s = [] then .error (conditionError n "date value required.".toList) else .ok (.string s)
  | .eq | .neq | .contains | .regex =>
    match raw with
    | .string s => if Text.trim s = [] then .error (conditionError n "value required.".toList)
      else .ok (.string s)
    | .number num => .ok (.string (num.text libs.floatText))
    | .null => .error (conditionError n "value required.".toList)
    | other => .ok other

def quizScoreOperators : List ConditionOperator := [.eq, .neq, .gt, .gte, .lt, .lte, .between]

def listOperators : List ConditionOperator := [.containsAll, .containsAny, .notContains, .eq, .neq]

/-- The target of a condition, as far as the chosen form allows it. -/
def conditionTarget (n : Nat) (target : Text) (operator : ConditionOperator)
    (boundForm : Option FormSchema) (formIsQuiz : Bool) : Except AppError ConditionTarget :=
  if target = "__quiz_total_score__".toList then
    if !formIsQuiz then .error
      (conditionError n "\"Quiz total score\" only works on quiz forms.".toList)
    else if operator ∉ quizScoreOperators then
      .error (conditionError n "quiz total score only supports numeric comparisons.".toList)
    else .ok .quizTotalScore
  else
    match boundForm with
    | some form =>
      match form.findQuestion target with
      | none =>
        .error (conditionError n ("question \"".toList ++ target ++
          "\" doesn't exist on the chosen form.".toList))
      | some q =>
        if q.kind.isArrayValued && operator ∉ listOperators then
          .error (conditionError n
            "checkbox questions need a list operator (contains all / any / none).".toList)
        else .ok (.question target)
    -- without a form the target is taken as it is
    | none => .ok (.question target)

/-- The upper end of a range; other operators have none. -/
def conditionEnd (operator : ConditionOperator) (raw : Option Value) (n : Nat) :
    Except AppError (Option Value) :=
  match operator, raw with
  | .between, some e => (normalizeConditionValue libs operator e n).map some
  | .between, none => .error
    (conditionError n "\"between\" needs both a min and a max value.".toList)
  | _, _ => .ok none

def validateCondition (index : Nat) (raw : ConditionInput) (boundForm : Option FormSchema)
    (formIsQuiz : Bool) :
    Except AppError Condition := do
  let n := index + 1
  let targetRaw := Text.trim raw.target
  if targetRaw = [] then throw (conditionError n "pick a question (or quiz total score).".toList)
  let some operator := ConditionOperator.fromKey (Text.trim raw.operator)
    | throw (conditionError n ("unknown operator '".toList ++ raw.operator ++ "'.".toList))
  let target ← conditionTarget n targetRaw operator boundForm formIsQuiz
  let value ← normalizeConditionValue libs operator raw.value n
  let valueEnd ← conditionEnd libs operator raw.valueEnd n
  if operator = .regex && (libs.regexBuild (value.asStr.getD [])).isNone then
    throw (conditionError n "regex pattern is invalid.".toList)
  return ⟨target, operator, value, valueEnd⟩

/-- The conditions in turn, up to the first that is rejected. -/
def validateConditions (boundForm : Option FormSchema) (formIsQuiz : Bool) :
    Nat → List ConditionInput → Except AppError (List Condition)
  | _, [] => .ok []
  | i, raw :: rest => do
    let c ← validateCondition libs i raw boundForm formIsQuiz
    let cs ← validateConditions boundForm formIsQuiz (i + 1) rest
    return c :: cs

/-- The form that the payload binds the link to. -/
def RoleConfigBody.boundFormId (body : RoleConfigBody) : Option Text :=
  (body.formId.map Text.trim).filter (· ≠ [])

/-- Whether the link is granted on any submission. -/
def parseMode (mode : Text) : Except AppError Bool :=
  if mode = "any_submission".toList then .ok true
  else if mode = "conditions".toList then .ok false
  else .error (.badRequest ("Unknown eligibility mode '".toList ++ mode ++ "'.".toList))

def parseViewPermission : Option Text → Except AppError (Option Text)
  | none => .ok none
  | some vp =>
    if vp = [] then .ok none
    else if vp = "members".toList ∨ vp = "managers".toList then .ok (some vp)
    else .error (.badRequest ("Unknown view_permission '".toList ++ vp ++ "'.".toList))

/-- The conditions of the payload; a link that is granted on any submission keeps none. -/
def parseConditions (grantOnAnySubmission : Bool) (conditions : List ConditionInput)
    (boundForm : Option FormSchema) (formIsQuiz : Bool) : Except AppError (List Condition) :=
  if grantOnAnySubmission then .ok []
  else if conditions.isEmpty then
    .error (.badRequest "Eligibility is set to \"match conditions\" but no conditions were added.".toList)
  else if maxConditions < conditions.length then
    .error (.badRequest ("At most ".toList ++ Text.ofNat maxConditions ++
      " conditions per role.".toList))
  else validateConditions libs boundForm formIsQuiz 0 conditions

def parseRoleConfig (body : RoleConfigBody) (boundForm : Option FormSchema) (formIsQuiz : Bool) :
    Except AppError ParsedConfig := do
  let grantOnAnySubmission ← parseMode body.mode
  let viewPermission ← parseViewPermission body.viewPermission
  let conditions ← parseConditions libs grantOnAnySubmission body.conditions boundForm formIsQuiz
  return ⟨body.boundFormId, grantOnAnySubmission, conditions, viewPermission⟩

private theorem bind_eq_map {ε α β : Type} {x : Except ε α} {f f' : α → Except ε β} {g : β → β}
    (h : ∀ a, f a = (f' a).map g) : (x >>= f) = (x >>= f').map g := by
  cases x with
  | error e => rfl
  | ok a => exact h a

/-- Only the choice of the form goes by the form id of the payload. -/
theorem parseRoleConfig_formId (body : RoleConfigBody) (formId : Option Text)
    (boundForm : Option FormSchema) (formIsQuiz : Bool) :
    parseRoleConfig libs { body with formId := formId } boundForm formIsQuiz =
      (parseRoleConfig libs body boundForm formIsQuiz).map fun parsed =>
        { parsed with formId := RoleConfigBody.boundFormId { body with formId := formId } } :=
  bind_eq_map fun _ => bind_eq_map fun _ => bind_eq_map fun _ => rfl

theorem formId_of_parseRoleConfig {body : RoleConfigBody} {boundForm : Option FormSchema}
    {formIsQuiz : Bool} {parsed : ParsedConfig}
    (h : parseRoleConfig libs body boundForm formIsQuiz = .ok parsed) :
    parsed.formId = body.boundFormId := by
  have hmap := parseRoleConfig_formId libs body body.formId boundForm formIsQuiz
  rw [h] at hmap
  exact congrArg ParsedConfig.formId (Except.ok.inj hmap)

end

end FormRespondentRole
