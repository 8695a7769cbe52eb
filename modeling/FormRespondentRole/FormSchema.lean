import FormRespondentRole.Foundations.Json

/-!
# Form schemas

The typed view of `forms.schema`.
-/

namespace FormRespondentRole

open Foundations

inductive QuestionKind
  | shortText
  | longText
  | number
  | singleChoice
  | multiChoice
  | dropdown
  | scale
  | date
  | email
  | agreement
  | info
  | image
  | video
deriving DecidableEq

namespace QuestionKind

def asStr : QuestionKind → Text
  | shortText => "short_text".toList
  | longText => "long_text".toList
  | number => "number".toList
  | singleChoice => "single_choice".toList
  | multiChoice => "multi_choice".toList
  | dropdown => "dropdown".toList
  | scale => "scale".toList
  | date => "date".toList
  | email => "email".toList
  | agreement => "agreement".toList
  | info => "info".toList
  | image => "image".toList
  | video => "video".toList

def isAnswerable : QuestionKind → Bool
  | info | image | video => false
  | _ => true

def isConditionable (kind : QuestionKind) : Bool := kind.isAnswerable

def isArrayValued : QuestionKind → Bool
  | multiChoice => true
  | _ => false

end QuestionKind

structure QuestionOption where
  id : Text
  label : Text

structure Question where
  id : Text
  kind : QuestionKind
  title : Text := []
  description : Text := []
  required : Bool := false
  maxLength : Option Int64 := none
  min : Option F64 := none
  max : Option F64 := none
  options : Option (List QuestionOption) := none
  correct : Option Value := none
  points : Option Int32 := none
  imageUrl : Option Text := none
  altText : Option Text := none

structure Page where
  id : Text
  title : Text := []
  description : Text := []
  questions : List Question := []

structure FormSchema where
  title : Text := []
  description : Text := []
  pages : List Page := []

namespace FormSchema

/-- The answerable questions in the order of their declaration. -/
def iterQuestions (schema : FormSchema) : List Question :=
  (schema.pages.flatMap (·.questions)).filter (·.kind.isAnswerable)

def findQuestion (schema : FormSchema) (id : Text) : Option Question :=
  schema.iterQuestions.find? (·.id = id)

end FormSchema

/-! ### Grading -/

/-- The accepted answers that a key names, without blank ones. -/
def acceptedAnswers (floatText : F64 → Text) (correct : Value) : List Text :=
  let raw : List Text := match correct with
    | .string s => [s]
    | .number n => [n.text floatText]
    | .bool b => [if b then "true".toList else "false".toList]
    | .array a => a.filterMap fun v : Value => match v with
      | .string s => some s
      | .number n => some (n.text floatText)
      | _ => none
    | _ => []
  raw.filter fun s => Text.trim s ≠ []

def isGraded (floatText : F64 → Text) (q : Question) : Bool :=
  (q.points.any fun p => decide (0 < p)) && q.correct.any fun c =>
    !(acceptedAnswers floatText c).isEmpty

def quizGradedCount (floatText : F64 → Text) (schema : FormSchema) : Nat :=
  (schema.iterQuestions.filter (isGraded floatText)).length

end FormRespondentRole
