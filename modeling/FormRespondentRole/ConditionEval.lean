import FormRespondentRole.Condition

/-!
# Condition evaluation

`evaluate` decides whether a response qualifies for a role link; both sync paths call it.  What it
takes from outside the repository is a parameter: how a finite binary64 is written, the
regular-expression engine, and the two date parsers.
-/

namespace FormRespondentRole

open Foundations

/-- A UTC date and time: whole seconds, and the nanoseconds within the second, which pass 10⁹ in a
leap second. -/
structure DateTime where
  secs : Int
  nanos : Nat
deriving DecidableEq

def DateTime.before (a b : DateTime) : Bool :=
  a.secs < b.secs || (a.secs == b.secs && a.nanos < b.nanos)

/-- The third-party functions that evaluation calls. -/
structure Libs where
  floatText : F64 → Text
  /-- The matcher that a pattern compiles to within the size limits, if it compiles. -/
  regexBuild : Text → Option (Text → Bool)
  parseFromRfc3339 : Text → Option DateTime
  /-- Midnight UTC of a date written `YYYY-MM-DD`. -/
  parseDate : Text → Option DateTime

/-- `answers` maps question ids to answers; `totalScore` is present for graded responses only. -/
structure ResponseEvalData where
  answers : Value
  totalScore : Option Int32

section

variable (libs : Libs)

def stringValue : Value → Option Text
  | .string s => some s
  | .number n => some (n.text libs.floatText)
  | .bool b => some (if b then "true".toList else "false".toList)
  | _ => none

def selections : Value → List Text
  | .array arr => arr.filterMap Value.asStr
  | other => (stringValue libs other).toList

def eqMatches (actual expected : Value) : Option Bool :=
  (stringValue libs expected).map fun expected => decide (selections libs actual = [expected])

def numericValue : Value → Option F64
  | .number n => some n.asF64
  | .string s => F64.parse s
  | _ => none

def parseDatetimeStr (s : Text) : Option DateTime := (libs.parseFromRfc3339 s).or (libs.parseDate s)

def parseDatetime (v : Value) : Option DateTime := v.asStr.bind (parseDatetimeStr libs)

/-- The strings of an expected list, when the expected value is a list. -/
def expectedStrings (v : Value) : Option (List Text) :=
  v.asArray.map fun arr => arr.filterMap Value.asStr

def compareNumbers (actual expected : Value) (holds : F64 → F64 → Bool) : Bool :=
  match numericValue actual, numericValue expected with
  | some a, some e => holds a e
  | _, _ => false

def compareDates (actual expected : Value) (holds : DateTime → DateTime → Bool) : Bool :=
  match parseDatetime libs actual, expected.asStr.bind (parseDatetimeStr libs) with
  | some a, some e => holds a e
  | _, _ => false

def actualValue (target : ConditionTarget) (data : ResponseEvalData) : Value :=
  match target with
  | .question questionId => (data.answers.get questionId).getD .null
  | .quizTotalScore =>
    match data.totalScore with
    | some n => Value.ofI64 n.toInt (int32_bounds n)
    | none => .null

def evaluateSingle (condition : Condition) (data : ResponseEvalData) : Bool :=
  let actual := actualValue condition.target data
  let expected := condition.value
  if actual.isNull ∧ condition.operator ≠ .neq ∧ condition.operator ≠ .notContains then false
  else
    match condition.operator with
    | .eq => (eqMatches libs actual expected).getD false
    | .neq =>
      -- unanswered: satisfied by any nonempty expected string
      if actual.isNull then decide (expected.asStr.getD [] ≠ [])
      else ((eqMatches libs actual expected).map (!·)).getD false
    | .contains =>
      match stringValue libs expected with
      | none => false
      | some needle => (selections libs actual).any (Text.contains · needle)
    | .regex =>
      match expected.asStr.bind libs.regexBuild with
      | none => false
      | some isMatch => (selections libs actual).any isMatch
    | .in' =>
      match selections libs actual with
      | [only] => ((expectedStrings expected).map (·.any (· = only))).getD false
      | _ => false
    | .containsAll => ((expectedStrings expected).map (·.all (· ∈ selections libs actual))).getD
      false
    | .containsAny =>
      ((expectedStrings expected).map (·.any (· ∈ selections libs actual))).getD false
    | .notContains =>
      ((expectedStrings expected).map (!·.any (· ∈ selections libs actual))).getD true
    | .gt => compareNumbers actual expected fun a e => decide (e < a)
    | .gte => compareNumbers actual expected fun a e => decide (e ≤ a)
    | .lt => compareNumbers actual expected fun a e => decide (a < e)
    | .lte => compareNumbers actual expected fun a e => decide (a ≤ e)
    | .between =>
      compareNumbers actual expected fun a e =>
        decide (e ≤ a) && decide (a ≤ (condition.valueEnd.bind numericValue).getD e)
    | .before => compareDates libs actual expected fun a e => a.before e
    | .after => compareDates libs actual expected fun a e => e.before a

def evaluate (grantOnAnySubmission : Bool) (conditions : List Condition)
    (data : ResponseEvalData) : Bool :=
  if grantOnAnySubmission then true
  else if conditions.isEmpty then false
  else conditions.all fun c => evaluateSingle libs c data

/-- An unconfigured link grants the role to nobody. -/
theorem evaluate_unconfigured (data : ResponseEvalData) : evaluate libs false [] data = false := rfl

/-! ### Expected values that nothing compares with -/

/-- The expected value holds nothing that the operator can compare an answer with. -/
def incomparable (operator : ConditionOperator) (expected : Value) : Prop :=
  match operator with
  | .containsAll | .containsAny | .notContains | .in' => ∀ arr, expected.asArray = some arr →
    ∀ v ∈ arr, v.asStr = none
  | .eq | .neq | .contains => stringValue libs expected = none
  | .regex => expected.asStr.bind libs.regexBuild = none
  | .gt | .gte | .lt | .lte | .between => numericValue expected = none
  | .before | .after => expected.asStr.bind (parseDatetimeStr libs) = none

variable {libs}

private theorem expectedStrings_incomparable {expected : Value}
    (h : ∀ arr, expected.asArray = some arr → ∀ v ∈ arr, v.asStr = none) :
    expectedStrings expected = if expected.asArray = none then none else some [] := by
  unfold expectedStrings
  cases harr : expected.asArray with
  | none => rfl
  | some arr =>
    have hnil : arr.filterMap Value.asStr = [] := List.filterMap_eq_nil_iff.2 (h arr harr)
    rw [Option.map_some, hnil, if_neg (Option.some_ne_none arr)]

private theorem asStr_eq_none_of_stringValue {v : Value} (h : stringValue libs v = none) :
    v.asStr = none := by
  cases v with
  | string s => cases h
  | _ => rfl

private theorem compareNumbers_incomparable {actual expected : Value}
    (h : numericValue expected = none) (holds : F64 → F64 → Bool) :
    compareNumbers actual expected holds = false := by
  unfold compareNumbers
  rw [h]
  cases numericValue actual <;> rfl

private theorem compareDates_incomparable {actual expected : Value}
    (h : expected.asStr.bind (parseDatetimeStr libs) = none) (holds : DateTime → DateTime → Bool) :
    compareDates libs actual expected holds = false := by
  unfold compareDates
  rw [h]
  cases parseDatetime libs actual <;> rfl

/-- An incomparable expected value is met by no answer, unless the operator quantifies over the list
of expected strings: `contains_all` over an empty one holds of every answer, and `not_contains` of
every response. -/
theorem evaluateSingle_incomparable_iff (libs : Libs) (condition : Condition)
    (data : ResponseEvalData) (h : incomparable libs condition.operator condition.value) :
    evaluateSingle libs condition data = false ↔
      condition.operator ≠ .notContains ∧
        (condition.operator = .containsAll →
          condition.value.asArray = none ∨ (actualValue condition.target data).isNull = true) := by
  obtain ⟨target, operator, expected, valueEnd⟩ := condition
  unfold evaluateSingle
  by_cases hnull : (actualValue target data).isNull = true
  · -- unanswered: only the two negative operators look at the expected value
    cases operator with
    | neq =>
      have hstr : expected.asStr = none := asStr_eq_none_of_stringValue h
      simp [hnull, hstr]
    | notContains =>
      have hexpected := expectedStrings_incomparable h
      by_cases harr : expected.asArray = none <;> simp [hexpected, harr]
    | _ => simp [hnull]
  · cases operator with
    | eq =>
      have hmatch : eqMatches libs (actualValue target data) expected = none := by
        rw [eqMatches, h]; rfl
      simp [hmatch]
    | neq =>
      have hmatch : eqMatches libs (actualValue target data) expected = none := by
        rw [eqMatches, h]; rfl
      simp [hmatch, hnull]
    | contains =>
      have hnone : stringValue libs expected = none := h
      simp [hnone]
    | regex =>
      have hnone : expected.asStr.bind libs.regexBuild = none := h
      simp [hnone]
    | in' =>
      have hexpected := expectedStrings_incomparable h
      -- a single selection is looked for in an empty list
      have hnone : ∀ only, ((expectedStrings expected).map (·.any (· = only))).getD false =
          false := by
        intro only
        by_cases harr : expected.asArray = none <;> simp [hexpected, harr]
      simp only [hnull, hnone]
      cases selections libs (actualValue target data) with
      | nil => simp
      | cons only others => cases others <;> simp
    | containsAll =>
      have hexpected := expectedStrings_incomparable h
      by_cases harr : expected.asArray = none <;> simp [hexpected, harr, hnull]
    | containsAny =>
      have hexpected := expectedStrings_incomparable h
      by_cases harr : expected.asArray = none <;> simp [hexpected, harr]
    | notContains =>
      have hexpected := expectedStrings_incomparable h
      by_cases harr : expected.asArray = none <;> simp [hexpected, harr]
    | gt | gte | lt | lte | between =>
      have hnone : numericValue expected = none := h
      simp [compareNumbers_incomparable hnone]
    | before | after =>
      have hnone : expected.asStr.bind (parseDatetimeStr libs) = none := h
      simp [compareDates_incomparable hnone]

/-- Digits after a point, the empty regular expression, and no dates. -/
def plainLibs : Libs where
  floatText _ := "1.5".toList
  regexBuild _ := some fun _ => true
  parseFromRfc3339 _ := none
  parseDate _ := none

/-- `contains_all` with a list of numbers. -/
def numbersCondition (operator : ConditionOperator) : Condition :=
  ⟨.question "q".toList, operator, .array [.number (.posInt 1 (by decide))], none⟩

def answered : ResponseEvalData := ⟨.object [("q".toList, .str "yes")], none⟩

private theorem numbers_incomparable {arr : List Value}
    (h : Value.asArray (.array [.number (.posInt 1 (by decide))]) = some arr) :
    ∀ v ∈ arr, v.asStr = none := by
  intro v hv
  obtain rfl := Option.some.inj h
  rw [List.mem_singleton.1 hv]
  rfl

theorem evaluateSingle_incomparable_iff_any :
    evaluateSingle plainLibs (numbersCondition .containsAny) answered = false :=
  (evaluateSingle_incomparable_iff plainLibs (numbersCondition .containsAny) answered
    fun _ h => numbers_incomparable h).2 ⟨by decide, fun h => absurd h (by decide)⟩

/-- A list of numbers after `contains_all` admits everyone who answered, and after `not_contains`
everyone. -/
theorem incomparable_grants :
    incomparable plainLibs .containsAll (numbersCondition .containsAll).value ∧
    evaluateSingle plainLibs (numbersCondition .containsAll) answered = true ∧
    incomparable plainLibs .notContains (numbersCondition .notContains).value ∧
    evaluateSingle plainLibs (numbersCondition .notContains) ⟨.null, none⟩ = true :=
  ⟨fun _ h => numbers_incomparable h, by decide, fun _ h => numbers_incomparable h, by decide⟩

end

end FormRespondentRole
