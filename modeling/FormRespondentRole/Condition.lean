import FormRespondentRole.Foundations.Json

/-!
# Conditions of a role link

`role_links.conditions` is a JSON array; each element is read on its own, and an element that does
not read as a `Condition` is dropped (`conditionsOf`).  Reading follows the derived deserialiser: a
struct reads from an object or from an array of its fields in order, an operator from its name or
from an object with that one name and `null`, a target from an object with its `kind` among the
other fields or from an array with its `kind` in front.
-/

namespace FormRespondentRole

open Foundations

inductive ConditionOperator
  | eq
  | neq
  | contains
  | regex
  | in'
  | containsAll
  | containsAny
  | notContains
  | gt
  | gte
  | lt
  | lte
  | between
  | before
  | after
deriving DecidableEq

namespace ConditionOperator

def asStr : ConditionOperator → Text
  | eq => "eq".toList
  | neq => "neq".toList
  | contains => "contains".toList
  | regex => "regex".toList
  | in' => "in".toList
  | containsAll => "contains_all".toList
  | containsAny => "contains_any".toList
  | notContains => "not_contains".toList
  | gt => "gt".toList
  | gte => "gte".toList
  | lt => "lt".toList
  | lte => "lte".toList
  | between => "between".toList
  | before => "before".toList
  | after => "after".toList

def all : List ConditionOperator :=
  [eq, neq, contains, regex, in', containsAll, containsAny, notContains, gt, gte, lt, lte, between,
    before, after]

def fromKey (k : Text) : Option ConditionOperator := all.find? fun op => op.asStr = k

theorem fromKey_asStr (op : ConditionOperator) : fromKey op.asStr = some op := by
  cases op <;> rfl

/-- The derived deserialiser: the name alone, or an object from the name to `null`. -/
def fromValue : Value → Option ConditionOperator
  | .string s => fromKey s
  | .object [(k, .null)] => fromKey k
  | _ => none

end ConditionOperator

inductive ConditionTarget
  | question (questionId : Text)
  | quizTotalScore
deriving DecidableEq

namespace ConditionTarget

private def fromFields (kind : Text) (fields : List (Text × Value)) : Option ConditionTarget :=
  if kind = "question".toList then
    match fields.lookup "question_id".toList with
    | some (.string qid) => some (.question qid)
    | _ => none
  else if kind = "quiz_total_score".toList then some .quizTotalScore
  else none

private def fromElements (kind : Text) (rest : List Value) : Option ConditionTarget :=
  if kind = "question".toList then
    match rest with
    | [.string qid] => some (.question qid)
    | _ => none
  else if kind = "quiz_total_score".toList ∧ rest.isEmpty then some .quizTotalScore
  else none

def fromValue : Value → Option ConditionTarget
  | .object fields =>
    match fields.lookup "kind".toList with
    | some (.string kind) => fromFields kind fields
    | _ => none
  | .array (.string kind :: rest) => fromElements kind rest
  | _ => none

def toValue : ConditionTarget → Value
  | .question qid => .object [("kind".toList, .str "question"), ("question_id".toList, .string qid)]
  | .quizTotalScore => .object [("kind".toList, .str "quiz_total_score")]

end ConditionTarget

structure Condition where
  target : ConditionTarget
  operator : ConditionOperator
  value : Value
  valueEnd : Option Value

namespace Condition

/-- An absent or `null` upper end is no upper end. -/
private def optional : Option Value → Option Value
  | some .null => none
  | v => v

private def build (target operator value : Option Value) (valueEnd : Option Value) :
    Option Condition := do
  let target ← target.bind ConditionTarget.fromValue
  let operator ← operator.bind ConditionOperator.fromValue
  let value ← value
  return ⟨target, operator, value, optional valueEnd⟩

def fromValue : Value → Option Condition
  | .object fields =>
    build (fields.lookup "target".toList) (fields.lookup "operator".toList)
      (fields.lookup "value".toList)
      (fields.lookup "value_end".toList)
  | .array [t, op, v] => build (some t) (some op) (some v) none
  | .array [t, op, v, e] => build (some t) (some op) (some v) (some e)
  | _ => none

/-- The derived serialiser; an absent upper end is left out. -/
def toValue (c : Condition) : Value :=
  .object ([("operator".toList, .string c.operator.asStr), ("target".toList, c.target.toValue),
    ("value".toList, c.value)] ++ (c.valueEnd.map fun e => ("value_end".toList, e)).toList)

/-- What is written reads back, for a condition whose upper end, if it has one, is not `null`. -/
theorem fromValue_toValue {c : Condition} (h : ∀ e, c.valueEnd = some e → e.isNull = false) :
    fromValue c.toValue = some c := by
  obtain ⟨target, operator, value, valueEnd⟩ := c
  have htarget : ConditionTarget.fromValue target.toValue = some target := by
    cases target <;> rfl
  have hoperator : ConditionOperator.fromValue (.string operator.asStr) = some operator :=
    ConditionOperator.fromKey_asStr operator
  cases valueEnd with
  | none => simp [fromValue, toValue, List.lookup, build, optional, htarget, hoperator]
  | some e =>
    have he : e.isNull = false := h e rfl
    cases e <;> simp_all [fromValue, toValue, List.lookup, build, optional, Value.isNull]

end Condition

/-- The conditions of a link as both sync paths read them. -/
def conditionsOf (rawConditions : Value) : List Condition :=
  (rawConditions.asArray.getD []).filterMap Condition.fromValue

end FormRespondentRole
