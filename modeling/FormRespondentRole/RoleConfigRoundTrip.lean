import FormRespondentRole.AdminRuns
import FormRespondentRole.ConditionValues

/-!
# Opening and saving a role configuration

The page of a link is given its stored configuration, with its conditions flattened, and sends a
configuration of the same shape back.  What a save has stored (`Saved`), sent back as it is, is
accepted again and stored again (`resaved_unchanged`): a value that was normalised stays as it is
(`normalizeConditionValue_idem`).
-/

namespace FormRespondentRole

open Foundations

/-! ### Reading the payload -/

/-- A member of an object that may be absent or `null`. -/
private def optionalText : Option Value → Option (Option Text)
  | none | some .null => some none
  | some (.string s) => some (some s)
  | some _ => none

namespace ConditionInput

/-- An absent or `null` upper end is no upper end. -/
private def optionalEnd : Option Value → Option Value
  | some .null => none
  | v => v

private def build (target operator : Option Value) (value valueEnd : Option Value) :
    Option ConditionInput := do
  let target ← target.bind Value.asStr
  let operator ← operator.bind Value.asStr
  return ⟨target, operator, value.getD .null, optionalEnd valueEnd⟩

/-- The derived deserialiser. -/
def fromValue : Value → Option ConditionInput
  | .object fields =>
    build (fields.lookup "target".toList) (fields.lookup "operator".toList)
      (fields.lookup "value".toList)
      (fields.lookup "value_end".toList)
  | .array [t, op] => build (some t) (some op) none none
  | .array [t, op, v] => build (some t) (some op) (some v) none
  | .array [t, op, v, e] => build (some t) (some op) (some v) (some e)
  | _ => none

private theorem fromValue_json (entries : List (String × Value)) :
    fromValue (Admin.json entries) = build (entries.reverse.lookup "target")
    (entries.reverse.lookup "operator")
      (entries.reverse.lookup "value") (entries.reverse.lookup "value_end") := by
  have hget : fromValue (Admin.json entries) = build ((Admin.json entries).get "target".toList)
      ((Admin.json entries).get "operator".toList) ((Admin.json entries).get "value".toList)
      ((Admin.json entries).get "value_end".toList) := rfl
  simp only [hget, Admin.json_get]

end ConditionInput

namespace RoleConfigBody

private def conditionsFrom : Option Value → Option (List ConditionInput)
  | none => some []
  | some (.array xs) => xs.mapM ConditionInput.fromValue
  | some _ => none

private def build (formId mode conditions viewPermission : Option Value) : Option RoleConfigBody :=
  do
  let formId ← optionalText formId
  let mode ← mode.bind Value.asStr
  let conditions ← conditionsFrom conditions
  let viewPermission ← optionalText viewPermission
  return ⟨formId, mode, conditions, viewPermission⟩

/-- The derived deserialiser. -/
def fromValue : Value → Option RoleConfigBody
  | .object fields =>
    build (fields.lookup "form_id".toList) (fields.lookup "mode".toList)
      (fields.lookup "conditions".toList)
      (fields.lookup "view_permission".toList)
  | .array [f, m] => build (some f) (some m) none none
  | .array [f, m, cs] => build (some f) (some m) (some cs) none
  | .array [f, m, cs, vp] => build (some f) (some m) (some cs) (some vp)
  | _ => none

private theorem fromValue_json (entries : List (String × Value)) :
    fromValue (Admin.json entries) = build (entries.reverse.lookup "form_id")
    (entries.reverse.lookup "mode")
      (entries.reverse.lookup "conditions") (entries.reverse.lookup "view_permission") := by
  have hget : fromValue (Admin.json entries) = build ((Admin.json entries).get "form_id".toList)
      ((Admin.json entries).get "mode".toList) ((Admin.json entries).get "conditions".toList)
      ((Admin.json entries).get "view_permission".toList) := rfl
  simp only [hget, Admin.json_get]

end RoleConfigBody

/-! ### Normalised values -/

section

variable {libs : Libs} {n : Nat} {v value : Value} {op : ConditionOperator}

private theorem conditionNumber_ofInt64 (k : Int64) :
    conditionNumber (Value.ofInt64 k) = some k := by
  obtain ⟨m, hm, hk⟩ := Value.ofI64_asI64 k.toInt ⟨k.le_toInt, k.toInt_lt⟩
  rw [Value.ofInt64, hm]
  simp only [conditionNumber, hk, Int64.ofInt_toInt]

private theorem conditionList_idem (v : Value) :
    conditionList (.array (conditionList v)) = conditionList v := by
  have hkept : ∀ x ∈ conditionList v, x.isNull = false ∧ x.asStr ≠ some [] := by
    cases v with
    | null => exact fun x hx => absurd hx List.not_mem_nil
    | string s =>
      intro x hx
      obtain ⟨t, ht, rfl⟩ := List.mem_map.1 hx
      exact ⟨rfl, fun h => of_decide_eq_true (List.mem_filter.1 ht).2 (Option.some.inj h)⟩
    | array a =>
      intro x hx
      simpa using (List.mem_filter.1 hx).2
    | _ =>
      intro x hx
      rw [List.mem_singleton.1 hx]
      exact ⟨rfl, nofun⟩
  exact List.filter_eq_self.2 fun x hx => by simpa using hkept x hx

private theorem number_text_ne_blank (hfloat : ∀ x, Text.trim (libs.floatText x) ≠ [])
    (num : Number) :
    Text.trim (num.text libs.floatText) ≠ [] := by
  have hdigit : ∀ k : Nat, ∃ c ∈ Text.ofNat k, Text.isWhitespace c = false := by
    intro k
    obtain ⟨c, s, hs⟩ := List.exists_cons_of_ne_nil (Text.ofNat_ne_nil k)
    have hc : c ∈ Text.ofNat k := hs ▸ List.mem_cons_self
    exact ⟨c, hc, Text.isWhitespace_of_isDigit (Text.isDigit_of_mem_ofNat hc)⟩
  cases num with
  | posInt k hk =>
    obtain ⟨c, hc, hspace⟩ := hdigit k
    exact Text.trim_ne_nil hc hspace
  | negInt z hz =>
    cases z with
    | ofNat k =>
      obtain ⟨c, hc, hspace⟩ := hdigit k
      exact Text.trim_ne_nil hc hspace
    | negSucc k => exact Text.trim_ne_nil List.mem_cons_self (by decide)
  | float x hx => exact hfloat x

/-- A normalised value is normalised to itself. -/
theorem normalizeConditionValue_idem (hfloat : ∀ x, Text.trim (libs.floatText x) ≠ [])
    (h : normalizeConditionValue libs op v n = .ok value) :
    normalizeConditionValue libs op value n = .ok value := by
  cases op with
  | gt | gte | lt | lte | between =>
    obtain ⟨k, -, rfl⟩ := normalizeConditionValue_number (by simp) h
    simp only [normalizeConditionValue, conditionNumber_ofInt64]
  | in' | containsAll | containsAny | notContains =>
    obtain ⟨hne, rfl⟩ := (normalizeConditionValue_list (by simp)).1 h
    refine (normalizeConditionValue_list (by simp)).2 ?_
    rw [conditionList_idem]
    exact ⟨hne, rfl⟩
  | before | after =>
    obtain ⟨hne, rfl⟩ := (normalizeConditionValue_date (by simp)).1 h
    refine (normalizeConditionValue_date (by simp)).2 ?_
    rw [Value.asStr, Option.getD_some, Text.trim_trim]
    exact ⟨hne, rfl⟩
  | eq | neq | contains | regex =>
    rcases normalizeConditionValue_plain (by simp) h with
      ⟨s, rfl, hne, rfl⟩ | ⟨num, rfl, rfl⟩ | ⟨⟨b, rfl⟩ | ⟨a, rfl⟩ | ⟨fields, rfl⟩, rfl⟩
    · exact h
    · simp only [normalizeConditionValue, if_neg (number_text_ne_blank hfloat num)]
    · rfl
    · rfl
    · rfl

private theorem normalizeConditionValue_ne_null
    (h : normalizeConditionValue libs op v n = .ok value) : value.isNull = false := by
  cases op with
  | gt | gte | lt | lte | between =>
    obtain ⟨k, -, rfl⟩ := normalizeConditionValue_number (by simp) h
    rw [Value.ofInt64, Value.ofI64]
    split <;> rfl
  | in' | containsAll | containsAny | notContains =>
    obtain ⟨-, rfl⟩ := (normalizeConditionValue_list (by simp)).1 h
    rfl
  | before | after =>
    obtain ⟨-, rfl⟩ := (normalizeConditionValue_date (by simp)).1 h
    rfl
  | eq | neq | contains | regex =>
    rcases normalizeConditionValue_plain (by simp) h with
      ⟨s, rfl, -, rfl⟩ | ⟨num, rfl, rfl⟩ | ⟨⟨b, rfl⟩ | ⟨a, rfl⟩ | ⟨fields, rfl⟩, rfl⟩ <;> rfl

end

/-! ### Conditions on the page -/

/-- The page's text for a target. -/
def ConditionTarget.pageText : ConditionTarget → Text
  | question questionId => questionId
  | quizTotalScore => "__quiz_total_score__".toList

/-- The input that the page sends for a stored condition. -/
def Condition.toInput (c : Condition) : ConditionInput :=
  ⟨c.target.pageText, c.operator.asStr, c.value, c.valueEnd⟩

private theorem fromValue_flattenCondition {c : Condition}
    (hend : ∀ e, c.valueEnd = some e → e.isNull = false) :
    ConditionInput.fromValue (Admin.flattenCondition c.toValue) = some c.toInput := by
  obtain ⟨target, operator, value, valueEnd⟩ := c
  have hflat : Admin.flattenCondition (Condition.toValue ⟨target, operator, value, valueEnd⟩) =
      Admin.json [("target", .string target.pageText), ("operator", .string operator.asStr),
        ("value", value),
        ("value_end", valueEnd.getD .null)] := by
    cases target <;> cases valueEnd <;> rfl
  have hend : ConditionInput.optionalEnd (some (valueEnd.getD .null)) = valueEnd := by
    cases valueEnd with
    | none => rfl
    | some e =>
      have he : e.isNull = false := hend e rfl
      cases e with
      | null => cases he
      | _ => rfl
  rw [hflat, ConditionInput.fromValue_json]
  simp only [List.reverse_cons, List.reverse_nil, List.nil_append, List.cons_append, List.lookup,
    ConditionInput.build]
  simp [hend, Condition.toInput, Value.asStr]

section

variable {libs : Libs} {boundForm : Option FormSchema} {formIsQuiz : Bool} {n : Nat}
  {raw : ConditionInput} {c : Condition}

private theorem pageText_of_conditionTarget {target : Text} {op : ConditionOperator}
    {t : ConditionTarget} (h : conditionTarget n target op boundForm formIsQuiz = .ok t) :
    t.pageText = target := by
  unfold conditionTarget at h
  split at h
  · rename_i hquiz
    split at h
    · cases h
    · split at h
      · cases h
      · cases h
        exact hquiz.symm
  · cases boundForm with
    | none =>
      cases h
      rfl
    | some form =>
      cases hfind : form.findQuestion target with
      | none =>
        simp only [hfind] at h
        cases h
      | some q =>
        simp only [hfind] at h
        split at h
        · cases h
        · cases h
          rfl

/-- The upper end of an accepted condition is one again. -/
private theorem conditionEnd_idem (hfloat : ∀ x, Text.trim (libs.floatText x) ≠ [])
    {op : ConditionOperator} {rawEnd e : Option Value} (h : conditionEnd libs op rawEnd n = .ok e) :
    conditionEnd libs op e n = .ok e ∧ ∀ v, e = some v → v.isNull = false := by
  cases op with
  | between =>
    cases rawEnd with
    | none => cases h
    | some v =>
      simp only [conditionEnd] at h
      cases hvalue : normalizeConditionValue libs .between v n with
      | error err =>
        rw [hvalue] at h
        cases h
      | ok value =>
        rw [hvalue] at h
        cases h
        simp only [conditionEnd, normalizeConditionValue_idem hfloat hvalue]
        refine ⟨rfl, fun v hv => ?_⟩
        cases hv
        exact normalizeConditionValue_ne_null hvalue
  | _ =>
    cases h
    exact ⟨rfl, fun v hv => by cases hv⟩

/-- An accepted condition, sent back from the page, is accepted as it is. -/
theorem Validates.resent (hfloat : ∀ x, Text.trim (libs.floatText x) ≠ [])
    (h : Validates libs boundForm formIsQuiz n raw c) :
    Validates libs boundForm formIsQuiz n c.toInput c := by
  have htarget : c.target.pageText = Text.trim raw.target := pageText_of_conditionTarget h.target
  have htrim : Text.trim c.target.pageText = Text.trim raw.target := by rw [htarget, Text.trim_trim]
  have hoperator : Text.trim c.operator.asStr = c.operator.asStr := by cases c.operator <;> decide
  refine ⟨?_, ?_, ?_, ?_, ?_, h.regex⟩
  · rw [Condition.toInput, htrim]
    exact h.target_ne
  · rw [Condition.toInput, hoperator]
    exact ConditionOperator.fromKey_asStr c.operator
  · rw [Condition.toInput, htrim]
    exact h.target
  · exact normalizeConditionValue_idem hfloat h.value
  · exact (conditionEnd_idem hfloat h.valueEnd).1

private theorem resent_conditions (hfloat : ∀ x, Text.trim (libs.floatText x) ≠ [])
    {raws : List ConditionInput} {cs : List Condition}
    (h : List.Forall₂ (Validates libs boundForm formIsQuiz n) raws cs) :
    List.Forall₂ (Validates libs boundForm formIsQuiz n) (cs.map Condition.toInput) cs ∧
      ∀ c ∈ cs, ∀ e, c.valueEnd = some e → e.isNull = false := by
  induction h with
  | nil => exact ⟨List.Forall₂.nil, nofun⟩
  | cons hc _ ih =>
    refine ⟨List.Forall₂.cons (hc.resent hfloat) ih.1,
      List.forall_mem_cons.2 ⟨fun e he => ?_, ih.2⟩⟩
    exact (conditionEnd_idem hfloat hc.valueEnd).2 e he

end

/-! ### Saved links -/

namespace Admin

variable {libs : AdminLibs} {d : Database} {guildId roleId : Text} {body : RoleConfigBody}

/-- The schema of the form that a link is to be bound to, if it reads, and whether it is a quiz. -/
def boundSchemaIn (libs : AdminLibs) (d : Database) (guildId : Text) :
    Option Text → Option (Option FormSchema × Bool)
  | none => some (none, false)
  | some fid => do
    let id ← libs.parseUuid fid
    let form ← d.form? id guildId
    return ((libs.schemaFromValue form.schema).toOption, form.isQuiz)

private theorem exec_boundSchema_calm (clock : Nat → Instant) (n : Nat)
    {a : Option FormSchema × Bool} (h : boundSchemaIn libs d guildId body.boundFormId = some a) :
    ∃ m, (boundSchema libs guildId body).exec (calm clock) ⟨d, none, n⟩ =
      (.ok a, ⟨d, none, m⟩) := by
  rw [boundSchema]
  cases hfid : body.boundFormId with
  | none =>
    rw [hfid] at h
    cases h
    exact ⟨n, rfl⟩
  | some fid =>
    rw [hfid, boundSchemaIn] at h
    cases hid : libs.parseUuid fid with
    | none =>
      rw [hid] at h
      cases h
    | some id =>
      cases hform : d.form? id guildId with
      | none =>
        rw [hid, Option.bind_eq_bind, Option.bind_some, hform] at h
        cases h
      | some form =>
        rw [hid, Option.bind_eq_bind, Option.bind_some, hform] at h
        cases h
        have hanswer : (Session.current ⟨d, none, n⟩).answer (.selectForm id guildId) = some form :=
          hform
        refine ⟨n + 1, ?_⟩
        simp only [hid]
        rw [exec_calm rfl, hanswer]
        rfl

/-- What a save stores in its link. -/
def stored (guildId roleId : Text) (parsed : ParsedConfig) (d : Database) : Table RoleLink.key :=
  d.roleLinks.update (·.key = (guildId, roleId)) (saveSet parsed.formId parsed.grantOnAnySubmission
    (.array (parsed.conditions.map Condition.toValue)))

/-- Whatever its statements meet, a save leaves the links alone or stores an accepted payload in its
link. -/
theorem roleLinks_roleConfigSave (weather : Weather) (n : Nat) :
    let links := ((roleConfigSave libs guildId roleId body).exec weather
      ⟨d, none, n⟩).2.db.roleLinks
    links = d.roleLinks ∨ ∃ schema isQuiz parsed, boundSchemaIn libs d guildId body.boundFormId =
      some (schema, isQuiz) ∧
      parseRoleConfig libs.libs body schema isQuiz = .ok parsed ∧
          links = stored guildId roleId parsed d := by
  let P : Session → Prop := fun s => s.db.roleLinks = d.roleLinks ∨ ∃ schema isQuiz parsed,
    boundSchemaIn libs d guildId body.boundFormId = some (schema, isQuiz) ∧
      parseRoleConfig libs.libs body schema isQuiz = .ok parsed ∧
        s.db.roleLinks = stored guildId roleId parsed d
  have hkept : ∀ {s : Session}, s.db.roleLinks = d.roleLinks → P s := Or.inl
  have hsaved : ∀ (m : Nat) {schema isQuiz parsed}, boundSchemaIn libs d guildId body.boundFormId =
    some (schema, isQuiz) →
      parseRoleConfig libs.libs body schema isQuiz = .ok parsed →
      P ((do
        query .begin
        query (.saveLink guildId roleId parsed.formId parsed.grantOnAnySubmission
          (.array (parsed.conditions.map Condition.toValue)))
        saveViewPermission guildId parsed.viewPermission
        query .commit
        let _ ← tryQuery (.enqueueConfigSync guildId roleId)
        return json [("success", .bool true)] : AdminM Value).exec weather ⟨d, none, m⟩).2 := by
    intro m schema isQuiz parsed hschema hparsed
    have hstored : ∀ {s : Session}, s.db.roleLinks = stored guildId roleId parsed d → P s :=
      fun h => Or.inr ⟨schema, isQuiz, parsed, hschema, hparsed, h⟩
    have hcommit : ∀ (k : Nat) (t : Database), t.roleLinks = stored guildId roleId parsed d →
        P ((do
          query .commit
          let _ ← tryQuery (.enqueueConfigSync guildId roleId)
          return json [("success", .bool true)] : AdminM Value).exec weather ⟨d, some t, k⟩).2 := by
      intro k t ht
      refine exec_query_leaves rfl (hkept rfl) (hstored ht) (hstored ?_)
      refine Eq.trans ?_ ht
      exact congrArg (fun r : Session => r.db.roleLinks) (serveSql_resync guildId roleId)
    refine exec_query_leaves rfl (hkept rfl) (hkept rfl)
      (exec_query_leaves rfl (hkept rfl) (hkept rfl) ?_)
    cases parsed.viewPermission with
    | none => exact hcommit _ _ rfl
    | some viewPermission => exact exec_query_leaves rfl (hkept rfl) (hkept rfl) (hcommit _ _ rfl)
  change P _
  refine exec_query_leaves rfl (hkept rfl) (hkept rfl) ?_
  cases (Session.current ⟨d, none, n⟩).answer (.selectLink guildId roleId) with
  | none => exact hkept rfl
  | some link =>
    -- the payload is checked against the form that it names
    have hchecked : ∀ (m : Nat) (a : Option FormSchema × Bool),
      boundSchemaIn libs d guildId body.boundFormId = some a →
        P ((do
          let parsed ← liftExcept (parseRoleConfig libs.libs body a.1 a.2)
          query .begin
          query (.saveLink guildId roleId parsed.formId parsed.grantOnAnySubmission
            (.array (parsed.conditions.map Condition.toValue)))
          saveViewPermission guildId parsed.viewPermission
          query .commit
          let _ ← tryQuery (.enqueueConfigSync guildId roleId)
          return json [("success", .bool true)] : AdminM Value).exec weather ⟨d, none, m⟩).2 := by
      intro m a hschema
      cases hparsed : parseRoleConfig libs.libs body a.1 a.2 with
      | error e =>
        simp only [liftExcept, throw_bind]
        exact hkept rfl
      | ok parsed =>
        simp only [liftExcept, pure_bind]
        exact hsaved m hschema hparsed
    simp only [boundSchema]
    cases hfid : body.boundFormId with
    | none => exact hchecked (n + 1) (none, false) (by rw [hfid]; rfl)
    | some fid =>
      cases hid : libs.parseUuid fid with
      | none =>
        simp only [hid]
        exact hkept rfl
      | some id =>
        simp only [hid, bind_assoc]
        refine exec_query_leaves rfl (hkept rfl) (hkept rfl) ?_
        have hanswer : (Session.after weather (.selectLink guildId roleId)
          ⟨d, none, n⟩).current.answer
            (.selectForm id guildId) = d.form? id guildId := rfl
        rw [hanswer]
        cases hform : d.form? id guildId with
        | none => exact hkept rfl
        | some form =>
          refine hchecked (n + 2) ((libs.schemaFromValue form.schema).toOption, form.isQuiz) ?_
          rw [hfid, boundSchemaIn, hid, Option.bind_eq_bind, Option.bind_some, hform]
          rfl

end Admin

/-- The link holds what a save stored, and the payload is accepted with the form as it is now. -/
structure Saved (libs : AdminLibs) (d : Database) (link : RoleLink)
    (parsed : ParsedConfig) : Prop where
  accepted : ∃ body schema isQuiz, Admin.boundSchemaIn libs d link.guildId body.boundFormId =
    some (schema, isQuiz) ∧
    parseRoleConfig libs.libs body schema isQuiz = .ok parsed
  formId : link.formId = parsed.formId
  grantOnAnySubmission : link.grantOnAnySubmission = parsed.grantOnAnySubmission
  conditions : link.conditions = .array (parsed.conditions.map Condition.toValue)

/-- The payload of a page that is sent back as it was opened. -/
def ParsedConfig.resent (parsed : ParsedConfig) : RoleConfigBody where
  formId := some (parsed.formId.getD [])
  mode := if parsed.grantOnAnySubmission then "any_submission".toList else "conditions".toList
  conditions := parsed.conditions.map Condition.toInput

section

variable {libs : AdminLibs} {d : Database} {link : RoleLink} {parsed : ParsedConfig}

/-- A save of a link leaves it saved. -/
theorem saved_of_stored {body : RoleConfigBody} {schema : Option FormSchema} {isQuiz : Bool}
    (hschema : Admin.boundSchemaIn libs d link.guildId body.boundFormId = some (schema, isQuiz))
    (hparsed : parseRoleConfig libs.libs body schema isQuiz = .ok parsed)
    (hlink : link ∈ (Admin.stored link.guildId link.roleId parsed d).rows) :
    Saved libs d link parsed := by
  obtain ⟨row, -, hrow⟩ := Table.mem_update.1 hlink
  by_cases hkey : row.key = (link.guildId, link.roleId)
  · simp only [hkey, decide_true, if_true] at hrow
    subst hrow
    exact ⟨⟨body, schema, isQuiz, hschema, hparsed⟩, rfl, rfl, rfl⟩
  · simp only [hkey, decide_false, Bool.false_eq_true, if_false] at hrow
    subst hrow
    exact absurd rfl hkey

private theorem boundFormId_resent {body : RoleConfigBody} (h : parsed.formId = body.boundFormId) :
    parsed.resent.boundFormId = parsed.formId := by
  rw [RoleConfigBody.boundFormId, ParsedConfig.resent, Option.map_some]
  cases hformId : parsed.formId with
  | none => rfl
  | some f =>
    rw [hformId, RoleConfigBody.boundFormId] at h
    obtain ⟨hmap, hne⟩ := Option.filter_eq_some_iff.1 h.symm
    obtain ⟨raw, -, rfl⟩ := Option.map_eq_some_iff.1 hmap
    simp only [Option.getD_some, Text.trim_trim]
    exact Option.filter_eq_some_iff.2 ⟨rfl, hne⟩

/-- The page's payload is accepted, and parsed to what is stored. -/
theorem parseRoleConfig_resent (hfloat : ∀ x, Text.trim (libs.libs.floatText x) ≠ [])
    {body : RoleConfigBody} {schema : Option FormSchema} {isQuiz : Bool}
    (h : parseRoleConfig libs.libs body schema isQuiz = .ok parsed) :
    parseRoleConfig libs.libs parsed.resent schema isQuiz =
      .ok { parsed with viewPermission := none } := by
  obtain ⟨hformId, -, -, hconditions⟩ := parseRoleConfig_eq_ok h
  have hbound := boundFormId_resent hformId
  obtain ⟨formId, grant, conditions, viewPermission⟩ := parsed
  have hmode : parseMode (ParsedConfig.resent ⟨formId, grant, conditions, viewPermission⟩).mode =
      .ok grant := by
    cases grant <;> rfl
  have hresent : parseConditions libs.libs grant (conditions.map Condition.toInput) schema isQuiz =
      .ok conditions := by
    cases grant with
    | true => exact hconditions
    | false =>
      obtain ⟨hne, hlen, hall⟩ := parseConditions_eq_ok.1 hconditions
      have hsame : body.conditions.length = conditions.length := hall.length_eq
      refine parseConditions_eq_ok.2 ⟨?_, ?_, (resent_conditions hfloat hall).1⟩
      · intro hempty
        rw [List.map_eq_nil_iff.1 hempty, List.length_nil] at hsame
        exact hne (List.length_eq_zero_iff.1 hsame)
      · rw [List.length_map]
        omega
  have hviewPermission :
    parseViewPermission (ParsedConfig.resent ⟨formId, grant, conditions,
      viewPermission⟩).viewPermission =
      .ok none := rfl
  have hpage : (ParsedConfig.resent ⟨formId, grant, conditions, viewPermission⟩).conditions =
      conditions.map Condition.toInput := rfl
  simp only [parseRoleConfig, hmode, hviewPermission, hpage, bind, Except.bind, hresent, hbound]
  rfl

private theorem mapM_flattenCondition {cs : List Condition}
    (hcs : ∀ c ∈ cs, ∀ e, c.valueEnd = some e → e.isNull = false) :
    ((cs.map Condition.toValue).map Admin.flattenCondition).mapM ConditionInput.fromValue =
      some (cs.map Condition.toInput) := by
  induction cs with
  | nil => rfl
  | cons c cs ih =>
    obtain ⟨hc, hcs⟩ := List.forall_mem_cons.1 hcs
    rw [List.map_cons, List.map_cons, List.mapM_cons, fromValue_flattenCondition hc, ih hcs]
    rfl

private theorem fromValue_config (formId : Text) (grantOnAnySubmission : Bool) {cs : List Condition}
    (hcs : ∀ c ∈ cs, ∀ e, c.valueEnd = some e → e.isNull = false)
    (hmode : grantOnAnySubmission = true ∨ cs ≠ [] ∧ grantOnAnySubmission = false) :
    RoleConfigBody.fromValue (Admin.json [("form_id", .string formId),
      ("mode", .str (if grantOnAnySubmission || (cs.map Condition.toValue).isEmpty then
        "any_submission" else "conditions")),
      ("conditions", .array ((cs.map Condition.toValue).map Admin.flattenCondition))]) =
      some ⟨some formId, if grantOnAnySubmission then "any_submission".toList
        else "conditions".toList,
        cs.map Condition.toInput, none⟩ := by
  have hmembers : ∀ f m cs : Value,
    RoleConfigBody.fromValue (Admin.json [("form_id", f), ("mode", m), ("conditions", cs)]) =
      RoleConfigBody.build (some f) (some m) (some cs) none := fun f m cs => by
    rw [RoleConfigBody.fromValue_json]
    rfl
  have hbuild : ∀ (text : Text) (inputs : List Value),
    RoleConfigBody.build (some (.string formId)) (some (.string text))
      (some (.array inputs)) none = (inputs.mapM ConditionInput.fromValue).map fun inputs =>
        ⟨some formId, text, inputs, none⟩ := by
    intro text inputs
    simp only [RoleConfigBody.build, RoleConfigBody.conditionsFrom]
    cases inputs.mapM ConditionInput.fromValue with
    | none => rfl
    | some inputs => rfl
  rw [hmembers, Value.str, hbuild, mapM_flattenCondition hcs, Option.map_some]
  rcases hmode with rfl | ⟨hne, rfl⟩
  · rfl
  · have hempty : (cs.map Condition.toValue).isEmpty = false := by
      rw [List.isEmpty_eq_false_iff, ne_eq, List.map_eq_nil_iff]
      exact hne
    rw [hempty]
    rfl

/-- The page reads its configuration as that payload. -/
theorem roleConfigData_resent (hfloat : ∀ x, Text.trim (libs.libs.floatText x) ≠ [])
    (clock : Nat → Instant) {roleId : Text} {guildId : Text}
    (hlink : d.answer (.selectLink guildId roleId) = some link) (h : Saved libs d link parsed) :
    ∃ reply config, (Admin.roleConfigData libs guildId roleId).calmly clock d = (.ok reply, d) ∧
      reply.get "config".toList = some config ∧
        RoleConfigBody.fromValue config = some parsed.resent := by
  obtain ⟨body, schema, isQuiz, -, hparsed⟩ := h.accepted
  obtain ⟨-, -, -, hconditions⟩ := parseRoleConfig_eq_ok hparsed
  have hends : ∀ c ∈ parsed.conditions, ∀ e, c.valueEnd = some e → e.isNull = false := by
    cases hgrant : parsed.grantOnAnySubmission with
    | true =>
      rw [hgrant] at hconditions
      rw [← Except.ok.inj hconditions]
      exact nofun
    | false =>
      rw [hgrant] at hconditions
      exact (resent_conditions hfloat (parseConditions_eq_ok.1 hconditions).2.2).2
  have hmode : parsed.grantOnAnySubmission = true ∨ parsed.conditions ≠ [] ∧
      parsed.grantOnAnySubmission = false := by
    cases hgrant : parsed.grantOnAnySubmission with
    | true => exact Or.inl rfl
    | false =>
      rw [hgrant] at hconditions
      obtain ⟨hne, -, hall⟩ := parseConditions_eq_ok.1 hconditions
      refine Or.inr ⟨fun hempty => hne ?_, rfl⟩
      rw [hempty, List.forall₂_nil_right_iff] at hall
      exact hall
  have hrun : ∃ entries : List (String × Value),
    (Admin.roleConfigData libs guildId roleId).calmly clock d =
      (.ok (Admin.json entries), d) ∧ entries.reverse.lookup "config" = some (Admin.json
        [("form_id", .string (link.formId.getD [])),
          ("mode", .str (if link.grantOnAnySubmission ||
            (link.conditions.asArray.getD []).isEmpty then "any_submission"
            else "conditions")),
          ("conditions", .array
              ((link.conditions.asArray.getD []).map Admin.flattenCondition))]) := by
    rw [AdminM.calmly, Admin.roleConfigData, exec_calm rfl]
    have hanswer : (Session.current ⟨d, none, 0⟩).answer (.selectLink guildId roleId) = some link :=
      hlink
    simp only [hanswer]
    rw [exec_calm rfl]
    exact ⟨_, rfl, rfl⟩
  obtain ⟨entries, hrun, hconfig⟩ := hrun
  refine ⟨_, _, hrun, (Admin.json_get entries "config").trans hconfig, ?_⟩
  rw [h.formId, h.grantOnAnySubmission, h.conditions]
  exact fromValue_config _ _ hends hmode

/-- Whatever its statements meet, a save leaves a link as it was or saved. -/
theorem saved_of_roleConfigSave {body : RoleConfigBody} (weather : Weather) (n : Nat)
    (hlink : link ∈ ((Admin.roleConfigSave libs link.guildId link.roleId body).exec weather
      ⟨d, none, n⟩).2.db.roleLinks.rows) :
    link ∈ d.roleLinks.rows ∨ ∃ parsed, Saved libs d link parsed := by
  rcases Admin.roleLinks_roleConfigSave weather n with h |
    ⟨schema, isQuiz, parsed, hschema, hparsed, h⟩
  · rw [h] at hlink
    exact Or.inl hlink
  · rw [h] at hlink
    exact Or.inr ⟨parsed, saved_of_stored hschema hparsed hlink⟩

/-- A link stays saved as long as the form it is bound to reads the same. -/
theorem Saved.sameForms {d' : Database} (h : Saved libs d link parsed)
    (hforms : Admin.boundSchemaIn libs d' link.guildId link.formId =
      Admin.boundSchemaIn libs d link.guildId link.formId) :
    Saved libs d' link parsed := by
  obtain ⟨body, schema, isQuiz, hschema, hparsed⟩ := h.accepted
  have hformId : link.formId = body.boundFormId :=
    h.formId.trans (formId_of_parseRoleConfig libs.libs hparsed)
  rw [hformId] at hforms
  exact ⟨⟨body, schema, isQuiz, hforms.trans hschema, hparsed⟩, h.formId, h.grantOnAnySubmission,
    h.conditions⟩

private theorem stored_of_saved (hlink : link ∈ d.roleLinks.rows) (h : Saved libs d link parsed) :
    Admin.stored link.guildId link.roleId parsed d = d.roleLinks := by
  refine Table.eq_of_rows ?_
  refine (List.map_congr_left fun row hrow => ?_).trans (List.map_id _)
  by_cases hkey : row.key = (link.guildId, link.roleId)
  · obtain rfl := Table.eq_of_key hrow hlink hkey
    simp only [hkey, decide_true, if_true]
    rw [← h.formId, ← h.grantOnAnySubmission, ← h.conditions]
    rfl
  · simp only [hkey, decide_false, Bool.false_eq_true, if_false]
    rfl

/-- A saved link that is opened and saved again is accepted, parsed to the same form, mode and
conditions, and left as it is; and a normalised value is normalised to itself. -/
theorem resaved_unchanged (hfloat : ∀ x, Text.trim (libs.libs.floatText x) ≠ [])
    (clock : Nat → Instant) (hlink : d.answer (.selectLink link.guildId link.roleId) = some link)
    (h : Saved libs d link parsed) :
    (∃ reply config resent schema isQuiz,
      (Admin.roleConfigData libs link.guildId link.roleId).calmly clock d = (.ok reply, d) ∧
      reply.get "config".toList = some config ∧ RoleConfigBody.fromValue config = some resent ∧
      Admin.boundSchemaIn libs d link.guildId resent.boundFormId = some (schema, isQuiz) ∧
      parseRoleConfig libs.libs resent schema isQuiz = .ok { parsed with viewPermission := none } ∧
      ((Admin.roleConfigSave libs link.guildId link.roleId resent).calmly clock d).1 =
        .ok (Admin.json [("success", .bool true)]) ∧
      ((Admin.roleConfigSave libs link.guildId link.roleId resent).calmly clock d).2.roleLinks =
        d.roleLinks) ∧
    ∀ op v n value, normalizeConditionValue libs.libs op v n = .ok value →
      normalizeConditionValue libs.libs op value n = .ok value := by
  refine ⟨?_, fun op v n value => normalizeConditionValue_idem hfloat⟩
  obtain ⟨reply, config, hdata, hconfig, hresent⟩ := roleConfigData_resent hfloat clock hlink h
  obtain ⟨body, schema, isQuiz, hschema, hparsed⟩ := h.accepted
  have hparsed' := parseRoleConfig_resent hfloat hparsed
  have hbound : parsed.resent.boundFormId = body.boundFormId :=
    (boundFormId_resent (parseRoleConfig_eq_ok hparsed).1).trans (parseRoleConfig_eq_ok hparsed).1
  have hschema' : Admin.boundSchemaIn libs d link.guildId parsed.resent.boundFormId =
      some (schema, isQuiz) := by
    rw [hbound]
    exact hschema
  obtain ⟨m, hexec⟩ := Admin.exec_boundSchema_calm clock 1 hschema'
  obtain ⟨settings, jobs, k, hsave⟩ := exec_roleConfigSave (by rw [hlink]; rfl) hexec hparsed'
  refine ⟨reply, config, parsed.resent, schema, isQuiz, hdata, hconfig, hresent, hschema', hparsed',
    ?_, ?_⟩
  · rw [AdminM.calmly, hsave]
  · rw [AdminM.calmly, hsave, ← formId_of_parseRoleConfig libs.libs hparsed']
    have hstored : Admin.stored link.guildId link.roleId parsed d = d.roleLinks :=
      stored_of_saved (List.mem_of_find?_eq_some hlink) h
    exact hstored

def savedLink : RoleLink where
  guildId := ['g']
  roleId := ['r']
  apiToken := ['k']
  formId := some surveyId.text
  conditions := .array [Condition.toValue ⟨.question "q".toList, .eq, .str "red", none⟩]

def savedDatabase : Database := { surveyDatabase with roleLinks := ⟨[savedLink], by decide⟩ }

/-- The save that has left the link so. -/
def redSave : RoleConfigBody :=
  { conditionsBody [pickerInput "eq" (.str "red")] with formId := some surveyId.text }

private theorem saved_savedLink :
    ∃ parsed, Saved plainAdminLibs savedDatabase savedLink parsed := by
  have hsaved : ((Admin.roleConfigSave plainAdminLibs ['g'] ['r'] redSave).exec (calm fun _ => 0)
      ⟨surveyDatabase, none, 0⟩).2.db.roleLinks.rows = [savedLink] := rfl
  have hlink : savedLink ∈
    ((Admin.roleConfigSave plainAdminLibs savedLink.guildId savedLink.roleId redSave).exec
      (calm fun _ => 0) ⟨surveyDatabase, none, 0⟩).2.db.roleLinks.rows :=
        hsaved ▸ List.mem_singleton_self savedLink
  rcases saved_of_roleConfigSave _ _ hlink with hold | ⟨parsed, hparsed⟩
  · have hconditions := congrArg RoleLink.conditions (List.mem_singleton.1 hold)
    cases hconditions
  · exact ⟨parsed, hparsed.sameForms rfl⟩

/-- The link is saved, opened, and saved again. -/
theorem resaved_unchanged_survey :
    ∃ parsed : ParsedConfig, ∃ reply config resent schema isQuiz,
      parsed.conditions.map Condition.toValue =
        [Condition.toValue ⟨.question "q".toList, .eq, .str "red", none⟩] ∧
      (Admin.roleConfigData plainAdminLibs ['g'] ['r']).calmly (fun _ => 0) savedDatabase =
      (.ok reply, savedDatabase) ∧
      reply.get "config".toList = some config ∧ RoleConfigBody.fromValue config = some resent ∧
      Admin.boundSchemaIn plainAdminLibs savedDatabase ['g'] resent.boundFormId =
      some (schema, isQuiz) ∧
      parseRoleConfig plainLibs resent schema isQuiz = .ok { parsed with viewPermission := none } ∧
      ((Admin.roleConfigSave plainAdminLibs ['g'] ['r'] resent).calmly
        (fun _ => 0) savedDatabase).1 =
        .ok (Admin.json [("success", .bool true)]) ∧
      ((Admin.roleConfigSave plainAdminLibs ['g'] ['r'] resent).calmly
        (fun _ => 0) savedDatabase).2.roleLinks =
        savedDatabase.roleLinks := by
  obtain ⟨parsed, hsaved⟩ := saved_savedLink
  obtain ⟨reply, config, resent, schema, isQuiz, hresaved⟩ := (resaved_unchanged
    (fun _ => (by decide : Text.trim "1.5".toList ≠ [])) (fun _ => 0) rfl hsaved).1
  have hconditions : Value.array [Condition.toValue ⟨.question "q".toList, .eq, .str "red", none⟩] =
      .array (parsed.conditions.map Condition.toValue) := hsaved.conditions
  exact ⟨parsed, reply, config, resent, schema, isQuiz, (Value.array.inj hconditions).symm,
    hresaved⟩

end

end FormRespondentRole
