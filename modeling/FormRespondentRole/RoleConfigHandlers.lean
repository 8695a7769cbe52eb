import FormRespondentRole.AdminHandlers

/-!
# Role configuration handlers

The data of the rule builder, and its save.  They start from a caller who has access to the link and
may write to it.
-/

namespace FormRespondentRole

open Foundations

namespace Admin

/-! ### The operator catalog -/

def operatorEntry (op : ConditionOperator) (label : String) (kinds : List String) : Value :=
  json [("key", .string op.asStr), ("label", .str label), ("kinds", .array (kinds.map Value.str))]

def textKinds : List String :=
  ["short_text", "long_text", "email", "single_choice", "dropdown", "agreement"]

def arrayKinds : List String := ["multi_choice"]

def numericKinds : List String := ["number", "scale", "__quiz_total_score__"]

def dateKinds : List String := ["date"]

def freeTextKinds : List String := ["short_text", "long_text", "email"]

def eqKinds : List String :=
  ["short_text", "long_text", "email", "single_choice", "dropdown", "agreement", "multi_choice"]

def operatorCatalog : List Value :=
  [operatorEntry .eq "= equals" eqKinds, operatorEntry .neq "≠ does not equal" textKinds,
    operatorEntry .contains "contains (substring)" freeTextKinds,
      operatorEntry .regex "matches regex" freeTextKinds,
    operatorEntry (.in') "is one of" textKinds,
      operatorEntry .containsAll "contains all of" arrayKinds,
    operatorEntry .containsAny "contains any of" arrayKinds,
    operatorEntry .notContains "contains none of" arrayKinds,
      operatorEntry .gt "> greater than" numericKinds,
    operatorEntry .gte "≥ at least" numericKinds, operatorEntry .lt "< less than" numericKinds,
    operatorEntry .lte "≤ at most" numericKinds,
      operatorEntry .between "between (inclusive)" numericKinds,
    operatorEntry .before "before (date)" dateKinds, operatorEntry .after "after (date)" dateKinds]

section

variable (libs : AdminLibs)

/-! ### Reading -/

def optionJson (o : QuestionOption) : Value :=
  json [("id", .string o.id), ("label", .string o.label)]

def questionJson (q : Question) : Value :=
  json [("id", .string q.id), ("title", .string q.title), ("kind", .string q.kind.asStr),
    ("is_array_valued", .bool q.kind.isArrayValued),
      ("options", .array ((q.options.getD []).map optionJson))]

def formJson (form : Form) : Value :=
  let questions := match libs.schemaFromValue form.schema with
    | .ok schema => (schema.iterQuestions.filter (·.kind.isConditionable)).map questionJson
    | .error _ => []
  json [("id", .string form.id.text), ("title", .string form.title), ("is_quiz", .bool form.isQuiz),
    ("archived", .bool form.archived), ("passing_score", jsonOption jsonInt form.passingScore),
    ("questions", .array questions)]

/-- A stored condition with its target as a plain text. -/
def flattenCondition (c : Value) : Value :=
  let target := c.get "target".toList
  let targetText :=
    if (target.bind (·.get "kind".toList)).bind Value.asStr = some "quiz_total_score".toList then
      "__quiz_total_score__".toList
    else ((target.bind (·.get "question_id".toList)).bind Value.asStr).getD []
  json [("target", .string targetText), ("operator", (c.get "operator".toList).getD .null),
    ("value", (c.get "value".toList).getD .null),
      ("value_end", (c.get "value_end".toList).getD .null)]

def linkNotFound : AppError :=
  .notFound "This role link doesn't exist. Has it been added in RoleLogic?".toList

def roleConfigData (guildId roleId : Text) : AdminM Value := do
  match ← query (.selectLink guildId roleId) with
  | none => throw linkNotFound
  | some link =>
    let forms ← query (.selectGuildForms guildId)
    let conditions := link.conditions.asArray.getD []
    -- a link that grants nobody yet is shown with the more common mode
    let mode := if link.grantOnAnySubmission || conditions.isEmpty then "any_submission"
      else "conditions"
    return json [("guild_id", .string guildId), ("role_id", .string roleId),
      ("config", json [("form_id", .string (link.formId.getD [])), ("mode", .str mode),
        ("conditions", .array (conditions.map flattenCondition))]),
      ("forms", .array (forms.map (formJson libs))), ("operators", .array operatorCatalog),
      ("max_conditions", jsonNat maxConditions)]

/-! ### Saving -/

/-- The schema of the chosen form, if it reads, and whether it is a quiz. -/
def boundSchema (guildId : Text) (body : RoleConfigBody) : AdminM (Option FormSchema × Bool) := do
  match body.boundFormId with
  | none => return (none, false)
  | some fid =>
    let some id := libs.parseUuid fid
      | throw (.badRequest "form_id must be a valid form UUID from the dropdown.".toList)
    match ← query (.selectForm id guildId) with
    | none => throw (.badRequest "Selected form does not exist for this guild.".toList)
    | some form => return ((libs.schemaFromValue form.schema).toOption, form.isQuiz)

def saveViewPermission (guildId : Text) : Option Text → AdminM Unit
  | some viewPermission => query (.upsertViewPermission guildId viewPermission)
  | none => pure ()

def roleConfigSave (guildId roleId : Text) (body : RoleConfigBody) : AdminM Value := do
  match ← query (.selectLink guildId roleId) with
  | none => throw linkNotFound
  | some _ =>
    let (schema, isQuiz) ← boundSchema libs guildId body
    let parsed ← liftExcept (parseRoleConfig libs.libs body schema isQuiz)
    query .begin
    query (.saveLink guildId roleId parsed.formId parsed.grantOnAnySubmission
      (.array (parsed.conditions.map Condition.toValue)))
    saveViewPermission guildId parsed.viewPermission
    query .commit
    let _ ← tryQuery (.enqueueConfigSync guildId roleId)
    return json [("success", .bool true)]

end

end Admin

end FormRespondentRole
