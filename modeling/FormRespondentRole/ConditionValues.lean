import FormRespondentRole.RoleConfig

/-!
# Values that are saved and values that are read

`normalize_condition_value` writes the expected value of a condition, and `evaluate_single` reads
it.  What is written can be read (`Condition.Interpretable`) when the rule builder sends what it is
meant to send (`ConditionInput.Readable`).  But the default arm of the normalisation passes lists
and objects on, list operators keep elements of any kind, and a date is any text.
-/

namespace FormRespondentRole

open Foundations

/-! ### What a save does to one condition -/

section

variable {libs : Libs} {boundForm : Option FormSchema} {formIsQuiz : Bool}

/-- All that an accepted condition has passed. -/
structure Validates (libs : Libs) (boundForm : Option FormSchema) (formIsQuiz : Bool) (n : Nat)
    (raw : ConditionInput) (c : Condition) : Prop where
  target_ne : Text.trim raw.target ≠ []
  operator : ConditionOperator.fromKey (Text.trim raw.operator) = some c.operator
  target : conditionTarget n (Text.trim raw.target) c.operator boundForm formIsQuiz = .ok c.target
  value : normalizeConditionValue libs c.operator raw.value n = .ok c.value
  valueEnd : conditionEnd libs c.operator raw.valueEnd n = .ok c.valueEnd
  regex : c.operator = .regex → (libs.regexBuild (c.value.asStr.getD [])).isSome

private theorem validateCondition_eq_ok {i : Nat} {raw : ConditionInput} {c : Condition} :
    validateCondition libs i raw boundForm formIsQuiz = .ok c ↔
      Validates libs boundForm formIsQuiz (i + 1) raw c := by
  rw [validateCondition]
  constructor
  · intro h
    by_cases hblank : Text.trim raw.target = []
    · simp only [hblank, if_true] at h
      cases h
    simp only [hblank, if_false] at h
    cases hop : ConditionOperator.fromKey (Text.trim raw.operator) with
    | none =>
      rw [hop] at h
      cases h
    | some op =>
      simp only [hop] at h
      cases htarget : conditionTarget (i + 1) (Text.trim raw.target) op boundForm formIsQuiz with
      | error e =>
        rw [htarget] at h
        cases h
      | ok target =>
        rw [htarget] at h
        cases hvalue : normalizeConditionValue libs op raw.value (i + 1) with
        | error e =>
          rw [hvalue] at h
          cases h
        | ok value =>
          rw [hvalue] at h
          cases hend : conditionEnd libs op raw.valueEnd (i + 1) with
          | error e =>
            rw [hend] at h
            cases h
          | ok valueEnd =>
            rw [hend] at h
            by_cases hregex : (decide (op = .regex) &&
              (libs.regexBuild (value.asStr.getD [])).isNone) = true
            · simp only [bind, Except.bind, pure, Except.pure, hregex, if_true] at h
              cases h
            · simp only [bind, Except.bind, pure, Except.pure, hregex] at h
              cases h
              refine ⟨hblank, hop, htarget, hvalue, hend, ?_⟩
              rintro rfl
              simpa [Option.isSome_iff_ne_none] using hregex
  · intro h
    have hregex : (decide (c.operator = .regex) &&
        (libs.regexBuild (c.value.asStr.getD [])).isNone) = false := by
      by_cases hop : c.operator = .regex
      · have hsome := h.regex hop
        simp only [hop, decide_true, Bool.true_and, Option.isNone_eq_false_iff]
        exact hsome
      · simp only [hop, decide_false, Bool.false_and]
    simp only [h.target_ne, if_false, h.operator, h.target, h.value, h.valueEnd, bind, Except.bind,
      pure, Except.pure, hregex]
    rfl

/-- The number of a condition shows in messages only. -/
theorem normalizeConditionValue_renumber {op : ConditionOperator} {raw v : Value} {n : Nat}
    (m : Nat) (h : normalizeConditionValue libs op raw n = .ok v) :
    normalizeConditionValue libs op raw m = .ok v := by
  cases op with
  | gt | gte | lt | lte | between =>
    simp only [normalizeConditionValue] at h ⊢
    cases hnumber : conditionNumber raw with
    | none =>
      rw [hnumber] at h
      cases h
    | some k =>
      rw [hnumber] at h
      exact h
  | in' | containsAll | containsAny | notContains =>
    simp only [normalizeConditionValue] at h ⊢
    by_cases hempty : conditionList raw = []
    · rw [if_pos hempty] at h
      cases h
    · rw [if_neg hempty] at h ⊢
      exact h
  | before | after =>
    simp only [normalizeConditionValue] at h ⊢
    by_cases hblank : Text.trim (raw.asStr.getD []) = []
    · rw [if_pos hblank] at h
      cases h
    · rw [if_neg hblank] at h ⊢
      exact h
  | eq | neq | contains | regex =>
    cases raw with
    | null => cases h
    | string s =>
      simp only [normalizeConditionValue] at h ⊢
      by_cases hblank : Text.trim s = []
      · rw [if_pos hblank] at h
        cases h
      · rw [if_neg hblank] at h ⊢
        exact h
    | _ => exact h

private theorem conditionTarget_renumber {target : Text} {op : ConditionOperator}
    {t : ConditionTarget} {n : Nat} (m : Nat)
    (h : conditionTarget n target op boundForm formIsQuiz = .ok t) :
    conditionTarget m target op boundForm formIsQuiz = .ok t := by
  unfold conditionTarget at h ⊢
  split at h
  · rename_i hquiz
    rw [if_pos hquiz]
    split at h
    · cases h
    · rename_i his
      rw [if_neg his]
      split at h
      · cases h
      · rename_i hop
        rw [if_neg hop]
        exact h
  · rename_i hquiz
    rw [if_neg hquiz]
    cases boundForm with
    | none => exact h
    | some form =>
      cases hfind : form.findQuestion target with
      | none =>
        simp only [hfind] at h
        cases h
      | some q =>
        simp only [hfind] at h ⊢
        split at h
        · cases h
        · rename_i hlist
          rw [if_neg hlist]
          exact h

private theorem conditionEnd_renumber {op : ConditionOperator} {raw e : Option Value} {n : Nat}
    (m : Nat) (h : conditionEnd libs op raw n = .ok e) : conditionEnd libs op raw m = .ok e := by
  cases op with
  | between =>
    cases raw with
    | none => cases h
    | some v =>
      simp only [conditionEnd] at h ⊢
      cases hvalue : normalizeConditionValue libs .between v n with
      | error err =>
        rw [hvalue] at h
        cases h
      | ok value =>
        rw [hvalue] at h
        rw [normalizeConditionValue_renumber m hvalue]
        exact h
  | _ => exact h

private theorem Validates.renumber {n : Nat} (m : Nat) {raw : ConditionInput} {c : Condition}
    (h : Validates libs boundForm formIsQuiz n raw c) :
    Validates libs boundForm formIsQuiz m raw c :=
  ⟨h.target_ne, h.operator, conditionTarget_renumber m h.target,
    normalizeConditionValue_renumber m h.value,
    conditionEnd_renumber m h.valueEnd, h.regex⟩

private theorem validateConditions_eq_ok {i : Nat} {raws : List ConditionInput}
    {cs : List Condition} :
    validateConditions libs boundForm formIsQuiz i raws = .ok cs ↔
      List.Forall₂ (Validates libs boundForm formIsQuiz 1) raws cs := by
  induction raws generalizing i cs with
  | nil =>
    rw [validateConditions, List.forall₂_nil_left_iff]
    exact ⟨fun h => (Except.ok.inj h).symm, fun h => congrArg Except.ok h.symm⟩
  | cons raw raws ih =>
    rw [validateConditions, List.forall₂_cons_left_iff]
    constructor
    · intro h
      cases hc : validateCondition libs i raw boundForm formIsQuiz with
      | error e =>
        rw [hc] at h
        cases h
      | ok c =>
        cases hcs : validateConditions libs boundForm formIsQuiz (i + 1) raws with
        | error e =>
          rw [hc, hcs] at h
          cases h
        | ok rest =>
          rw [hc, hcs] at h
          exact ⟨c, rest, (validateCondition_eq_ok.1 hc).renumber 1, ih.1 hcs,
            (Except.ok.inj h).symm⟩
    · rintro ⟨c, rest, hc, hrest, rfl⟩
      rw [validateCondition_eq_ok.2 (hc.renumber (i + 1)), ih.2 hrest]
      rfl

/-- What an accepted payload has passed. -/
theorem parseRoleConfig_eq_ok {body : RoleConfigBody} {parsed : ParsedConfig}
    (h : parseRoleConfig libs body boundForm formIsQuiz = .ok parsed) :
    parsed.formId = body.boundFormId ∧ parseMode body.mode = .ok parsed.grantOnAnySubmission ∧
      parseViewPermission body.viewPermission = .ok parsed.viewPermission ∧
      parseConditions libs parsed.grantOnAnySubmission body.conditions boundForm formIsQuiz =
        .ok parsed.conditions := by
  rw [parseRoleConfig] at h
  cases hmode : parseMode body.mode with
  | error e =>
    rw [hmode] at h
    cases h
  | ok grant =>
    cases hvp : parseViewPermission body.viewPermission with
    | error e =>
      rw [hmode, hvp] at h
      cases h
    | ok vp =>
      cases hcs : parseConditions libs grant body.conditions boundForm formIsQuiz with
      | error e =>
        simp only [hmode, hvp, hcs, bind, Except.bind] at h
        cases h
      | ok cs =>
        simp only [hmode, hvp, hcs, bind, Except.bind] at h
        cases h
        exact ⟨rfl, rfl, rfl, hcs⟩

/-- In conditions mode there are between one and twelve of them. -/
theorem parseConditions_eq_ok {raws : List ConditionInput} {cs : List Condition} :
    parseConditions libs false raws boundForm formIsQuiz = .ok cs ↔
      raws ≠ [] ∧ raws.length ≤ maxConditions ∧
        List.Forall₂ (Validates libs boundForm formIsQuiz 1) raws cs := by
  rw [parseConditions]
  simp only [Bool.false_eq_true, if_false, List.isEmpty_iff]
  by_cases hempty : raws = []
  · simp [hempty]
  · by_cases hmany : maxConditions < raws.length
    · simp [hempty, hmany]
    · simp only [hempty, hmany, if_false, validateConditions_eq_ok, not_false_eq_true, true_and,
        ne_eq]
      exact (and_iff_right (Nat.not_lt.1 hmany)).symm

end

/-! ### Interpretable conditions -/

/-- Evaluation can read the expected side. -/
def Condition.Interpretable (libs : Libs) (c : Condition) : Prop :=
  match c.operator with
  | .eq | .neq | .contains => (stringValue libs c.value).isSome
  | .regex => (c.value.asStr.bind libs.regexBuild).isSome
  | .in' | .containsAll | .containsAny | .notContains =>
    ∃ arr, c.value = .array arr ∧ arr ≠ [] ∧ ∀ v ∈ arr, v.asStr.isSome
  | .gt | .gte | .lt | .lte => (numericValue c.value).isSome ∧ ∀ e, c.valueEnd = some e →
    (numericValue e).isSome
  | .between => (numericValue c.value).isSome ∧ ∃ e, c.valueEnd = some e ∧ (numericValue e).isSome
  | .before | .after => (c.value.asStr.bind (parseDatetimeStr libs)).isSome

/-- What the rule builder is meant to send for an operator. -/
def readableValue (libs : Libs) (op : ConditionOperator) (v : Value) : Prop :=
  match op with
  | .eq | .neq | .contains => (∀ a, v ≠ .array a) ∧ ∀ fields, v ≠ .object fields
  | .regex => v.asStr.isSome ∨ ∃ num, v = .number num
  | .in' | .containsAll | .containsAny | .notContains =>
    v.asStr.isSome ∨ ∃ a, v = .array a ∧ ∀ x ∈ a, x.isNull = true ∨ x.asStr.isSome
  | .gt | .gte | .lt | .lte | .between => True
  | .before | .after => (parseDatetimeStr libs (Text.trim (v.asStr.getD []))).isSome

def ConditionInput.Readable (libs : Libs) (raw : ConditionInput) : Prop :=
  ∀ op, ConditionOperator.fromKey (Text.trim raw.operator) = some op →
    readableValue libs op raw.value

section

variable {libs : Libs} {n : Nat} {v value : Value} {op : ConditionOperator}

private theorem numericValue_ofInt64 (k : Int64) : (numericValue (Value.ofInt64 k)).isSome := by
  rw [Value.ofInt64, Value.ofI64]
  split <;> rfl

theorem normalizeConditionValue_number (hop : op ∈ [.gt, .gte, .lt, .lte, .between])
    (h : normalizeConditionValue libs op v n = .ok value) :
    ∃ k, conditionNumber v = some k ∧ value = Value.ofInt64 k := by
  simp only [List.mem_cons, List.not_mem_nil, or_false] at hop
  cases hk : conditionNumber v with
  | none => rcases hop with rfl | rfl | rfl | rfl | rfl <;> simp [normalizeConditionValue, hk] at h
  | some k =>
    have hnumber : normalizeConditionValue libs op v n = .ok (Value.ofInt64 k) := by
      rcases hop with rfl | rfl | rfl | rfl | rfl <;> simp only [normalizeConditionValue, hk]
    rw [hnumber] at h
    exact ⟨k, rfl, (Except.ok.inj h).symm⟩

theorem normalizeConditionValue_list (hop : op ∈ [.in', .containsAll, .containsAny, .notContains]) :
    normalizeConditionValue libs op v n = .ok value ↔ conditionList v ≠ [] ∧
      value = .array (conditionList v) := by
  have hlist : normalizeConditionValue libs op v n =
      if conditionList v = [] then
        .error (conditionError n "list operator needs at least one value.".toList)
      else .ok (.array (conditionList v)) := by
    simp only [List.mem_cons, List.not_mem_nil, or_false] at hop
    rcases hop with rfl | rfl | rfl | rfl <;> rfl
  rw [hlist]
  by_cases hempty : conditionList v = []
  · simp [hempty]
  · simp [hempty, eq_comm]

theorem normalizeConditionValue_date (hop : op ∈ [.before, .after]) :
    normalizeConditionValue libs op v n = .ok value ↔
      Text.trim (v.asStr.getD []) ≠ [] ∧ value = .string (Text.trim (v.asStr.getD [])) := by
  have hdate : normalizeConditionValue libs op v n =
      if Text.trim (v.asStr.getD []) = [] then
        .error (conditionError n "date value required.".toList)
      else .ok (.string (Text.trim (v.asStr.getD []))) := by
    simp only [List.mem_cons, List.not_mem_nil, or_false] at hop
    rcases hop with rfl | rfl <;> rfl
  rw [hdate]
  by_cases hblank : Text.trim (v.asStr.getD []) = []
  · simp [hblank]
  · simp [hblank, eq_comm]

/-- The default arm: blank texts are rejected, numbers become texts, and the rest is passed on. -/
theorem normalizeConditionValue_plain (hop : op ∈ [.eq, .neq, .contains, .regex])
    (h : normalizeConditionValue libs op v n = .ok value) :
    (∃ s, v = .string s ∧ Text.trim s ≠ [] ∧ value = .string s) ∨
      (∃ num, v = .number num ∧ value = .string (num.text libs.floatText)) ∨
      ((∃ b, v = .bool b) ∨ (∃ a, v = .array a) ∨ ∃ fields, v = .object fields) ∧ value = v := by
  have hplain : normalizeConditionValue libs .eq v n = .ok value := by
    simp only [List.mem_cons, List.not_mem_nil, or_false] at hop
    rcases hop with rfl | rfl | rfl | rfl <;> exact h
  cases v with
  | null => cases hplain
  | string s =>
    simp only [normalizeConditionValue] at hplain
    by_cases hblank : Text.trim s = []
    · rw [if_pos hblank] at hplain
      cases hplain
    · rw [if_neg hblank] at hplain
      exact Or.inl ⟨s, rfl, hblank, (Except.ok.inj hplain).symm⟩
  | number num => exact Or.inr (Or.inl ⟨num, rfl, (Except.ok.inj hplain).symm⟩)
  | bool b => exact Or.inr (Or.inr ⟨Or.inl ⟨b, rfl⟩, (Except.ok.inj hplain).symm⟩)
  | array a => exact Or.inr (Or.inr ⟨Or.inr (Or.inl ⟨a, rfl⟩), (Except.ok.inj hplain).symm⟩)
  | object fields =>
    exact Or.inr (Or.inr ⟨Or.inr (Or.inr ⟨fields, rfl⟩), (Except.ok.inj hplain).symm⟩)

/-! ### What is saved can be read -/

private theorem plain_isSome_iff (hop : op ∈ [.eq, .neq, .contains, .regex])
    (h : normalizeConditionValue libs op v n = .ok value) :
    (stringValue libs value).isSome ↔ (∀ a, v ≠ .array a) ∧ ∀ fields, v ≠ .object fields := by
  rcases normalizeConditionValue_plain hop h with
    ⟨s, rfl, -, rfl⟩ | ⟨num, rfl, rfl⟩ | ⟨⟨b, rfl⟩ | ⟨a, rfl⟩ | ⟨fields, rfl⟩, rfl⟩
  · simp [stringValue]
  · simp [stringValue]
  · simp [stringValue]
  · simp [stringValue]
  · simp [stringValue]

/-- An element that the normalisation of a list keeps. -/
private theorem mem_conditionList_array {a : List Value} {x : Value} :
    x ∈ conditionList (.array a) ↔ x ∈ a ∧ x.isNull = false ∧ x.asStr ≠ some [] := by
  rw [conditionList, List.mem_filter, Bool.and_eq_true, Bool.not_eq_true', decide_eq_true_eq]

private theorem list_strings_iff (hne : conditionList v ≠ []) :
    (∀ x ∈ conditionList v, x.asStr.isSome) ↔
      v.asStr.isSome ∨ ∃ a, v = .array a ∧ ∀ x ∈ a, x.isNull = true ∨ x.asStr.isSome := by
  cases v with
  | null => exact absurd rfl hne
  | string s =>
    refine iff_of_true (fun x hx => ?_) (Or.inl rfl)
    obtain ⟨t, -, rfl⟩ := List.mem_map.1 hx
    rfl
  | array a =>
    constructor
    · refine fun h => Or.inr ⟨a, rfl, fun x hx => ?_⟩
      by_cases hnull : x.isNull = true
      · exact Or.inl hnull
      · by_cases hblank : x.asStr = some []
        · exact Or.inr (by rw [hblank]; rfl)
        · exact Or.inr (h x (mem_conditionList_array.2 ⟨hx, Bool.not_eq_true _ ▸ hnull, hblank⟩))
    · rintro (h | ⟨a', heq, h⟩) x hx
      · cases h
      · cases heq
        obtain ⟨hx, hnull, -⟩ := mem_conditionList_array.1 hx
        exact (h x hx).resolve_left (by rw [hnull]; exact Bool.false_ne_true)
  | _ => simp [conditionList, Value.asStr]

/-- An accepted condition is interpretable if, and only if, its value was of a kind that its
operator reads. -/
theorem Validates.interpretable_iff {boundForm : Option FormSchema} {formIsQuiz : Bool}
    {raw : ConditionInput} {c : Condition} (h : Validates libs boundForm formIsQuiz n raw c) :
    c.Interpretable libs ↔
      raw.Readable libs := by
  have hreadable : raw.Readable libs ↔ readableValue libs c.operator raw.value := by
    constructor
    · exact fun hr => hr _ h.operator
    · intro hr op hop
      obtain rfl := Option.some.inj (h.operator.symm.trans hop)
      exact hr
  rw [hreadable]
  obtain ⟨target, op, value, valueEnd⟩ := c
  have hvalue := h.value
  have hend := h.valueEnd
  have hregex := h.regex
  cases op with
  | eq | neq | contains => exact plain_isSome_iff (by simp) hvalue
  | regex =>
    have hcompiles : (libs.regexBuild (value.asStr.getD [])).isSome := hregex rfl
    rcases normalizeConditionValue_plain (by simp) hvalue with
      ⟨s, hs, -, rfl⟩ | ⟨num, hnum, rfl⟩ | ⟨⟨b, hb⟩ | ⟨a, ha⟩ | ⟨fields, hf⟩, hv⟩
    · exact iff_of_true hcompiles (Or.inl (by rw [hs]; rfl))
    · exact iff_of_true hcompiles (Or.inr ⟨num, hnum⟩)
    -- the other kinds are stored as they came, and are no pattern
    all_goals
      rw [show value = raw.value from hv, Condition.Interpretable, readableValue]
      simp [*, Value.asStr]
  | in' | containsAll | containsAny | notContains =>
    obtain ⟨hne, rfl⟩ := (normalizeConditionValue_list (by simp)).1 hvalue
    refine Iff.trans ⟨?_, fun hstrings => ⟨_, rfl, hne, hstrings⟩⟩ (list_strings_iff hne)
    rintro ⟨arr, harr, -, hstrings⟩
    cases harr
    exact hstrings
  | gt | gte | lt | lte =>
    obtain ⟨k, -, rfl⟩ := normalizeConditionValue_number (by simp) hvalue
    refine iff_of_true ⟨numericValue_ofInt64 k, fun e he => ?_⟩ trivial
    cases (Except.ok.inj hend).trans he
  | between =>
    obtain ⟨k, -, rfl⟩ := normalizeConditionValue_number (by simp) hvalue
    refine iff_of_true ⟨numericValue_ofInt64 k, ?_⟩ trivial
    -- the end of a range is read as its start is
    cases hraw : raw.valueEnd with
    | none =>
      rw [hraw] at hend
      cases hend
    | some rawEnd =>
      rw [hraw] at hend
      cases hnormal : normalizeConditionValue libs .between rawEnd n with
      | error e =>
        simp only [conditionEnd, hnormal] at hend
        cases hend
      | ok e =>
        simp only [conditionEnd, hnormal] at hend
        obtain ⟨k, -, rfl⟩ := normalizeConditionValue_number (by simp) hnormal
        exact ⟨_, (Except.ok.inj hend).symm, numericValue_ofInt64 k⟩
  | before | after =>
    obtain ⟨hne, rfl⟩ := (normalizeConditionValue_date (by simp)).1 hvalue
    exact Iff.rfl

end

/-- What a save accepts in conditions mode can be evaluated if, and only if, the payload gives every
operator a value of a kind that it reads. -/
theorem saved_conditions_interpretable_iff {libs : Libs} {body : RoleConfigBody}
    {boundForm : Option FormSchema}
    {formIsQuiz : Bool} {parsed : ParsedConfig} (hmode : body.mode = "conditions".toList)
    (h : parseRoleConfig libs body boundForm formIsQuiz = .ok parsed) :
    (∀ c ∈ parsed.conditions, c.Interpretable libs) ↔
      ∀ raw ∈ body.conditions, raw.Readable libs := by
  obtain ⟨-, hparsed, -, hconditions⟩ := parseRoleConfig_eq_ok h
  have hgrant : parsed.grantOnAnySubmission = false := by
    rw [hmode] at hparsed
    exact (Except.ok.inj hparsed).symm
  rw [hgrant] at hconditions
  obtain ⟨-, -, hall⟩ := parseConditions_eq_ok.1 hconditions
  generalize parsed.conditions = cs at hall
  generalize body.conditions = raws at hall
  induction hall with
  | nil => simp
  | cons hc _ ih =>
    rw [List.forall_mem_cons, List.forall_mem_cons, hc.interpretable_iff]
    exact and_congr_right fun _ => ih

def pickerInput (operator : String) (value : Value) : ConditionInput :=
  ⟨"q".toList, operator.toList, value, none⟩

def conditionsBody (conditions : List ConditionInput) : RoleConfigBody :=
  { mode := "conditions".toList, conditions := conditions }

theorem saved_conditions_interpretable_iff_text :
    (∀ c ∈ [Condition.mk (.question "q".toList) .eq (.str "red") none], c.Interpretable plainLibs) ↔
      ∀ raw ∈ (conditionsBody [pickerInput "eq" (.str "red")]).conditions,
        raw.Readable plainLibs := by
  have hparsed : parseRoleConfig plainLibs (conditionsBody [pickerInput "eq" (.str "red")]) none
    false =
      .ok ⟨none, false, [⟨.question "q".toList, .eq, .str "red", none⟩], none⟩ := rfl
  exact saved_conditions_interpretable_iff rfl hparsed

def checkboxForm : FormSchema :=
  { pages := [{ id := "p".toList, questions := [{ id := "q".toList, kind := .multiChoice }] }] }

/-- The rule builder offers `eq` for a checkbox with a picker of several options, and its list is
saved as it is. -/
theorem not_saved_conditions_interpretable :
    ¬∀ (libs : Libs) (body : RoleConfigBody) (boundForm : Option FormSchema)
      (formIsQuiz : Bool) (parsed : ParsedConfig), body.mode = "conditions".toList →
    parseRoleConfig libs body boundForm formIsQuiz = .ok parsed →
      ∀ c ∈ parsed.conditions, c.Interpretable libs := by
  intro h
  have hread := h plainLibs (conditionsBody [pickerInput "eq" (.array [.str "red"])])
    (some checkboxForm) false
    ⟨none, false, [⟨.question "q".toList, .eq, .array [.str "red"], none⟩],
      none⟩ rfl rfl _ List.mem_cons_self
  cases hread

end FormRespondentRole
