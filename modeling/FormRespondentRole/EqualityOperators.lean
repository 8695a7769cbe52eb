import FormRespondentRole.CheckboxSets
import FormRespondentRole.ConditionValues

/-!
# Equality operators

`neq` is the complement of `eq`, and `in` is `eq` with some element of the list, where all three
read the expected side alike.  They do not: for a question without an answer `neq` wants the
expected value to be a text, and `in` passes over the elements that are no texts
(`equality_operators_iff`).
-/

namespace FormRespondentRole

open Foundations

/-- A value that a save accepts for one of these operators. -/
def AcceptedValue (libs : Libs) (operators : List ConditionOperator) (v : Value) : Prop :=
  ∃ body boundForm formIsQuiz parsed c, parseRoleConfig libs body boundForm formIsQuiz =
    .ok parsed ∧
    c ∈ parsed.conditions ∧ c.operator ∈ operators ∧ c.value = v

section

variable {libs : Libs}

private theorem exists_validates {body : RoleConfigBody} {boundForm : Option FormSchema}
    {formIsQuiz : Bool} {parsed : ParsedConfig} {c : Condition}
    (h : parseRoleConfig libs body boundForm formIsQuiz = .ok parsed) (hc : c ∈ parsed.conditions) :
    ∃ raw ∈ body.conditions, Validates libs boundForm formIsQuiz 1 raw c := by
  obtain ⟨-, -, -, hconditions⟩ := parseRoleConfig_eq_ok h
  cases hgrant : parsed.grantOnAnySubmission with
  | true =>
    rw [hgrant] at hconditions
    rw [← Except.ok.inj hconditions] at hc
    cases hc
  | false =>
    rw [hgrant] at hconditions
    obtain ⟨-, -, hall⟩ := parseConditions_eq_ok.1 hconditions
    obtain ⟨i, hi, rfl⟩ := List.getElem_of_mem hc
    have hraw : i < body.conditions.length := hall.length_eq.symm ▸ hi
    exact ⟨_, List.getElem_mem hraw, hall.get hraw hi⟩

/-- An accepted value of `eq` or `neq` with a text form is a text, and not the empty one, or a
boolean. -/
theorem AcceptedValue.plain {v : Value} (hfloat : ∀ x, libs.floatText x ≠ [])
    (h : AcceptedValue libs [.eq, .neq] v) (hv : (stringValue libs v).isSome) :
    (∃ s, v = .string s ∧ s ≠ []) ∨ ∃ b, v = .bool b := by
  obtain ⟨body, boundForm, formIsQuiz, parsed, c, hparsed, hc, hop, rfl⟩ := h
  obtain ⟨raw, -, hvalid⟩ := exists_validates hparsed hc
  have hplain : c.operator ∈ [.eq, .neq, .contains, .regex] := by
    simp only [List.mem_cons, List.not_mem_nil, or_false] at hop ⊢
    exact hop.elim Or.inl fun hneq => Or.inr (Or.inl hneq)
  rcases normalizeConditionValue_plain hplain hvalid.value with
    ⟨s, -, hblank, hs⟩ | ⟨num, -, hs⟩ | ⟨⟨b, hb⟩ | ⟨a, ha⟩ | ⟨fields, hfields⟩, hs⟩
  · refine Or.inl ⟨s, hs, ?_⟩
    rintro rfl
    exact hblank rfl
  · refine Or.inl ⟨_, hs, ?_⟩
    cases num with
    | posInt n _ => exact Text.ofNat_ne_nil n
    | negInt n hn =>
      cases n with
      | ofNat n => exact Text.ofNat_ne_nil n
      | negSucc n => exact List.cons_ne_nil _ _
    | float x _ => exact hfloat x
  · exact Or.inr ⟨b, hs.trans hb⟩
  · rw [hs, ha] at hv
    cases hv
  · rw [hs, hfields] at hv
    cases hv

/-! ### One condition -/

variable {target : ConditionTarget} {valueEnd : Option Value} {data : ResponseEvalData}

private theorem evaluateSingle_eq_iff {v : Value} :
    evaluateSingle libs ⟨target, .eq, v, valueEnd⟩ data = true ↔
    (actualValue target data).isNull = false ∧
      ∃ s, stringValue libs v = some s ∧ selections libs (actualValue target data) = [s] := by
  cases hnull : (actualValue target data).isNull with
  | true => simp [evaluateSingle, hnull]
  | false => cases hv : stringValue libs v <;> simp [evaluateSingle, hnull, eqMatches, hv]

/-- `neq` is the complement of `eq` for a text, and for a boolean on the questions that were
answered. -/
theorem neq_iff_not_eq_iff {v : Value} (h : (∃ s, v = .string s ∧ s ≠ []) ∨ ∃ b, v = .bool b) :
    ((evaluateSingle libs ⟨target, .neq, v, valueEnd⟩ data = true ↔
        ¬evaluateSingle libs ⟨target, .eq, v, valueEnd⟩ data = true) ↔
      ((actualValue target data).isNull = true → v.asStr.isSome)) := by
  cases hnull : (actualValue target data).isNull with
  | true =>
    rcases h with ⟨s, rfl, hs⟩ | ⟨b, rfl⟩
    · simp [evaluateSingle, hnull, Value.asStr, hs]
    · simp [evaluateSingle, hnull, Value.asStr]
  | false =>
    obtain ⟨s, hs⟩ : ∃ s, stringValue libs v = some s := by
      rcases h with ⟨s, rfl, -⟩ | ⟨b, rfl⟩
      · exact ⟨s, rfl⟩
      · exact ⟨_, rfl⟩
    simp [evaluateSingle, hnull, eqMatches, hs]

private theorem evaluateSingle_in_iff {arr : List Value} :
    evaluateSingle libs ⟨target, .in', .array arr, valueEnd⟩ data = true ↔
      (actualValue target data).isNull = false ∧
        ∃ s, .string s ∈ arr ∧ selections libs (actualValue target data) = [s] := by
  cases hnull : (actualValue target data).isNull with
  | true => simp [evaluateSingle, hnull]
  | false =>
    cases hselections : selections libs (actualValue target data) with
    | nil => simp [evaluateSingle, hnull, hselections]
    | cons only others =>
      cases others with
      | nil =>
        have hexpected : expectedStrings (.array arr) = some (strings arr) := rfl
        simp [evaluateSingle, hnull, hselections, hexpected, mem_strings]
      | cons other others => simp [evaluateSingle, hnull, hselections]

/-- `in` is `eq` with some element when the one selection of the answer, if it is the text of an
element that is no text, is an element itself. -/
theorem in_iff_exists_eq_iff {arr : List Value} :
    ((evaluateSingle libs ⟨target, .in', .array arr, valueEnd⟩ data = true ↔
        ∃ v ∈ arr, evaluateSingle libs ⟨target, .eq, v, valueEnd⟩ data = true) ↔
      ∀ v ∈ arr, v.asStr = none → ∀ s, stringValue libs v = some s →
        selections libs (actualValue target data) = [s] → .string s ∈ arr) := by
  simp only [evaluateSingle_in_iff, evaluateSingle_eq_iff]
  cases hnull : (actualValue target data).isNull with
  | true =>
    have hnone : selections libs (actualValue target data) = [] := by
      cases hactual : actualValue target data with
      | null => rfl
      | _ => rw [hactual] at hnull; cases hnull
    simp [hnone]
  | false =>
    constructor
    · intro hiff v hv _ s hs hone
      obtain ⟨-, t, ht, hone'⟩ := hiff.2 ⟨v, hv, rfl, s, hs, hone⟩
      rwa [List.singleton_inj.1 (hone.symm.trans hone')]
    · intro hall
      constructor
      · rintro ⟨-, s, hs, hone⟩
        exact ⟨_, hs, rfl, s, rfl, hone⟩
      · rintro ⟨v, hv, -, s, hs, hone⟩
        refine ⟨rfl, s, ?_, hone⟩
        cases v with
        | string t =>
          obtain rfl := Option.some.inj hs
          exact hv
        | _ => exact hall _ hv rfl s hs hone

end

/-- `neq` is the complement of `eq` but for a boolean on a question without an answer, and `in` is
`eq` with some element but where the answer is the text of an element that is no text, and of no
other. -/
theorem equality_operators_iff {libs : Libs} (hfloat : ∀ x, libs.floatText x ≠ [])
    (target : ConditionTarget) (valueEnd : Option Value) (data : ResponseEvalData) :
    (∀ v, AcceptedValue libs [.eq, .neq] v → (stringValue libs v).isSome →
      ((evaluateSingle libs ⟨target, .neq, v, valueEnd⟩ data = true ↔
          ¬evaluateSingle libs ⟨target, .eq, v, valueEnd⟩ data = true) ↔
        ((actualValue target data).isNull = true → v.asStr.isSome))) ∧
    ∀ arr, AcceptedValue libs [.in'] (.array arr) →
      ((evaluateSingle libs ⟨target, .in', .array arr, valueEnd⟩ data = true ↔
          ∃ v ∈ arr, evaluateSingle libs ⟨target, .eq, v, valueEnd⟩ data = true) ↔
        ∀ v ∈ arr, v.asStr = none → ∀ s, stringValue libs v = some s →
          selections libs (actualValue target data) = [s] → .string s ∈ arr) :=
  ⟨fun _ haccepted hv => neq_iff_not_eq_iff (haccepted.plain hfloat hv), fun _ _ =>
    in_iff_exists_eq_iff⟩

private theorem acceptedValue_of_picked {operators : List ConditionOperator} {o : String}
    {r v : Value}
    {op : ConditionOperator}
    (h : parseRoleConfig plainLibs (conditionsBody [pickerInput o r]) none false =
      .ok ⟨none, false, [⟨.question "q".toList, op, v, none⟩], none⟩) (hop : op ∈ operators) :
    AcceptedValue plainLibs operators v :=
  ⟨_, _, _, _, _, h, List.mem_singleton_self _, hop, rfl⟩

private theorem plainLibs_floatText (x : F64) : plainLibs.floatText x ≠ [] := by
  change "1.5".toList ≠ []
  decide

/-- A text, and a list of texts. -/
theorem equality_operators_iff_red :
    (evaluateSingle plainLibs ⟨.question "q".toList, .neq, .str "red", none⟩ ⟨.object [], none⟩ =
      true ↔
      ¬evaluateSingle plainLibs ⟨.question "q".toList, .eq, .str "red", none⟩ ⟨.object [], none⟩ =
        true) ∧
    (evaluateSingle plainLibs ⟨.question "q".toList, .in', .array [.str "red"], none⟩ answered =
      true ↔
      ∃ v ∈ [Value.str "red"], evaluateSingle plainLibs ⟨.question "q".toList, .eq, v,
        none⟩ answered = true) :=
  ⟨((equality_operators_iff plainLibs_floatText _ none _).1 _
      (acceptedValue_of_picked (o := "neq") (r := .str "red") rfl (by decide)) rfl).2 fun _ => rfl,
    ((equality_operators_iff plainLibs_floatText _ none answered).2 _
      (acceptedValue_of_picked (o := "in") (r := .str "red") rfl (by decide))).2 fun v hv hstr => by
        rw [List.mem_singleton.1 hv] at hstr
        cases hstr⟩

/-- Neither `eq` nor `neq` of `true` holds of a question that was left out. -/
theorem not_equality_operators :
    ¬∀ (libs : Libs) (target : ConditionTarget) (valueEnd : Option Value) (data : ResponseEvalData),
    (∀ x, libs.floatText x ≠ []) →
    (∀ v, AcceptedValue libs [.eq, .neq] v → (stringValue libs v).isSome →
      (evaluateSingle libs ⟨target, .neq, v, valueEnd⟩ data = true ↔
        ¬evaluateSingle libs ⟨target, .eq, v, valueEnd⟩ data = true)) ∧
    ∀ arr, AcceptedValue libs [.in'] (.array arr) →
      (evaluateSingle libs ⟨target, .in', .array arr, valueEnd⟩ data = true ↔
        ∃ v ∈ arr, evaluateSingle libs ⟨target, .eq, v, valueEnd⟩ data = true) := by
  intro h
  have hcomplement := (h plainLibs (.question "q".toList) none
    ⟨.object [], none⟩ plainLibs_floatText).1 (.bool true)
    (acceptedValue_of_picked (o := "neq") (r := .bool true) rfl (by decide)) rfl
  exact absurd (hcomplement.2 (by decide)) (by decide)

end FormRespondentRole
