import FormRespondentRole.RoleConfig
import FormRespondentRole.Foundations.Binary64Value

/-!
# Numeric thresholds

The number that is submitted with a numeric operator, the number that is stored for it, and the
number that an answer is compared with.  The three are one just for a whole number that fits in 64
bits and has 53 significant bits at most (`numeric_threshold_kept_iff`).
-/

namespace FormRespondentRole

open Foundations

def numericOperators : List ConditionOperator := [.gt, .gte, .lt, .lte, .between]

/-- The number that a JSON value denotes: a number, or a text of one. -/
def denotedNumber : Value → Option ℚ
  | .number (.posInt n _) => some n
  | .number (.negInt n _) => some n
  | .number (.float x _) => x.value
  | .string s => Text.decimal (Text.trim s)
  | _ => none

/-- The number that an operator compares for a value. -/
def comparedNumber (v : Value) : Option ℚ := (numericValue v).bind F64.value

/-- The upper end of a range; the lower end where none is given. -/
def EndsAt (valueEnd : Option Value) (q r : ℚ) : Prop :=
  match valueEnd with
  | none => r = q
  | some e => comparedNumber e = some r

/-- What a numeric operator tells of the answer `a`, the threshold `q`, and the upper end `r` of a
range. -/
def NumericallyHolds (op : ConditionOperator) (a q r : ℚ) : Prop :=
  match op with
  | .gt => q < a
  | .gte => q ≤ a
  | .lt => a < q
  | .lte => a ≤ q
  | _ => q ≤ a ∧ a ≤ r

/-- The stored value is the submitted number `q`, and answers are compared with `q`, be it the value
or the upper end of the condition. -/
structure ThresholdKept (libs : Libs) (op : ConditionOperator) (raw stored : Value)
    (q : ℚ) : Prop where
  submitted : denotedNumber raw = some q
  kept : denotedNumber stored = some q
  compared : comparedNumber stored = some q
  asValue : ∀ {target valueEnd data a r}, comparedNumber (actualValue target data) = some a →
    EndsAt valueEnd q r →
    (evaluateSingle libs ⟨target, op, stored, valueEnd⟩ data = true ↔ NumericallyHolds op a q r)
  asEnd : ∀ {target value data a p}, comparedNumber (actualValue target data) = some a →
    comparedNumber value = some p →
    (evaluateSingle libs ⟨target, op, value, some stored⟩ data = true ↔ NumericallyHolds op a p q)

/-! ### What is compared -/

private theorem exists_of_comparedNumber {v : Value} {q : ℚ} (h : comparedNumber v = some q) :
    ∃ x, numericValue v = some x ∧ x.value = some q := Option.bind_eq_some_iff.1 h

/-- The numeric operators compare the numbers that the values stand for. -/
theorem evaluateSingle_numeric_iff {libs : Libs} {op : ConditionOperator} {target : ConditionTarget}
    {value : Value} {valueEnd : Option Value} {data : ResponseEvalData} {a q r : ℚ}
    (hop : op ∈ numericOperators) (ha : comparedNumber (actualValue target data) = some a)
    (hq : comparedNumber value = some q) (hr : EndsAt valueEnd q r) :
    evaluateSingle libs ⟨target, op, value, valueEnd⟩ data = true ↔ NumericallyHolds op a q r := by
  obtain ⟨x, hx, hxa⟩ := exists_of_comparedNumber ha
  obtain ⟨y, hy, hyq⟩ := exists_of_comparedNumber hq
  have hend : ((valueEnd.bind numericValue).getD y).value = some r := by
    cases valueEnd with
    | none =>
      obtain rfl : r = q := hr
      exact hyq
    | some e =>
      obtain ⟨z, hz, hzr⟩ := exists_of_comparedNumber hr
      rw [Option.bind_some, hz]
      exact hzr
  have hanswered : (actualValue target data).isNull = false := by
    cases hactual : actualValue target data with
    | null =>
      rw [hactual] at hx
      cases hx
    | _ => rfl
  have hcompare : ∀ holds, compareNumbers (actualValue target data) value holds = holds x y := by
    intro holds
    rw [compareNumbers, hx, hy]
  fin_cases hop
  all_goals
    simp only [evaluateSingle, hanswered, hcompare, Bool.false_eq_true, false_and, if_false,
      decide_eq_true_eq,
      Bool.and_eq_true, NumericallyHolds]
  · exact F64.lt_iff_value hyq hxa
  · exact F64.le_iff_value hyq hxa
  · exact F64.lt_iff_value hxa hyq
  · exact F64.le_iff_value hxa hyq
  · exact and_congr (F64.le_iff_value hyq hxa) (F64.le_iff_value hxa hend)

/-! ### What is stored -/

private theorem denotedNumber_ofInt64 (n : Int64) :
    denotedNumber (Value.ofInt64 n) = some (n.toInt : ℚ) := by
  rw [Value.ofInt64, Value.ofI64]
  split
  · rename_i hn
    have hcast : ((n.toInt.toNat : Int) : ℚ) = n.toInt := by rw [Int.toNat_of_nonneg hn]
    exact congrArg some hcast
  · rfl

private theorem comparedNumber_ofInt64 (n : Int64) :
    comparedNumber (Value.ofInt64 n) = some (n.toInt : ℚ) ↔ F64.HoldsInt n.toInt := by
  have hbound : n.toInt.natAbs < 2 ^ 64 := by
    have h₁ := n.le_toInt
    have h₂ := n.toInt_lt
    omega
  rw [← F64.value_ofInt_iff hbound, Value.ofInt64, Value.ofI64]
  split
  · rename_i hn
    have hcast : Float.Model.ofNat n.toInt.toNat = Float.Model.ofInt n.toInt :=
      congrArg Float.Model.ofInt (Int.toNat_of_nonneg hn)
    rw [← hcast]
    rfl
  · rfl

/-- The number that is stored is the submitted one just when that is whole and fits. -/
private theorem conditionNumber_kept_iff {raw : Value} {n : Int64} {q : ℚ}
    (h : conditionNumber raw = some n) (hq : denotedNumber raw = some q) : (n.toInt : ℚ) = q ↔
    ∃ k : Int, (k : ℚ) = q ∧ -2 ^ 63 ≤ k ∧ k < 2 ^ 63 := by
  have hwhole : ∀ {i : Int}, (-2 ^ 63 ≤ i ∧ i < 2 ^ 63) → n = Int64.ofInt i → (i : ℚ) = q →
      ((n.toInt : ℚ) = q ↔ ∃ k : Int, (k : ℚ) = q ∧ -2 ^ 63 ≤ k ∧ k < 2 ^ 63) := by
    rintro i hi rfl rfl
    exact iff_of_true (by rw [Int64.toInt_ofInt_of_le hi.1 hi.2]) ⟨i, rfl, hi⟩
  cases raw with
  | number num =>
    cases num with
    | posInt m hm =>
      obtain rfl : (m : ℚ) = q := Option.some.inj hq
      by_cases hfits : m < 2 ^ 63
      · rw [conditionNumber, Number.asI64, if_pos hfits] at h
        exact hwhole (i := m) (by omega) (Option.some.inj h).symm (by push_cast; rfl)
      · -- what does not fit is clamped
        refine iff_of_false (fun heq => ?_) ?_
        · have hint : n.toInt = m := by exact_mod_cast heq
          have := n.toInt_lt
          omega
        · rintro ⟨k, hk, -, hlt⟩
          have hint : k = m := by exact_mod_cast hk
          omega
    | negInt i hi =>
      exact hwhole (i := i) (by omega) (Option.some.inj h).symm (Option.some.inj hq)
    | float x hx =>
      obtain rfl : x.toInt64 = n := Option.some.inj h
      exact F64.toInt64_eq_value_iff hq
  | string s =>
    obtain ⟨i, hi, hn⟩ := Option.map_eq_some_iff.1 h
    exact hwhole (Text.parseI64_bounds hi) hn.symm
      (Option.some.inj ((Text.decimal_of_parseI64 hi).symm.trans hq))
  | _ => cases h

private theorem normalizeConditionValue_numeric {libs : Libs} {op : ConditionOperator}
    {raw v : Value} {n : Nat} (hop : op ∈ numericOperators)
    (h : normalizeConditionValue libs op raw n = .ok v) :
    ∃ k, conditionNumber raw = some k ∧ v = Value.ofInt64 k := by
  cases hparsed : conditionNumber raw with
  | none => fin_cases hop <;> simp [normalizeConditionValue, hparsed] at h
  | some k =>
    refine ⟨k, rfl, ?_⟩
    fin_cases hop <;> simpa [normalizeConditionValue, hparsed] using h.symm

/-- An accepted number is kept just when it is whole, fits in 64 bits, and has 53 significant bits
at most. -/
theorem numeric_threshold_kept_iff {libs : Libs} {op : ConditionOperator} {raw stored : Value}
    {n : Nat} (hop : op ∈ numericOperators)
    (h : normalizeConditionValue libs op raw n = .ok stored) :
    (∃ q, ThresholdKept libs op raw stored q) ↔
      ∃ k : Int, denotedNumber raw = some (k : ℚ) ∧ (-2 ^ 63 ≤ k ∧ k < 2 ^ 63) ∧
        F64.HoldsInt k := by
  obtain ⟨m, hm, rfl⟩ := normalizeConditionValue_numeric hop h
  constructor
  · rintro ⟨q, hkept⟩
    have hstored := Option.some.inj ((denotedNumber_ofInt64 m).symm.trans hkept.kept)
    obtain ⟨k, rfl, hbounds⟩ := (conditionNumber_kept_iff hm hkept.submitted).1 hstored
    obtain rfl : m.toInt = k := by exact_mod_cast hstored
    exact ⟨_, hkept.submitted, hbounds, (comparedNumber_ofInt64 m).1 hkept.compared⟩
  · rintro ⟨k, hsubmitted, hbounds, hholds⟩
    have hstored : (m.toInt : ℚ) = k := (conditionNumber_kept_iff hm hsubmitted).2 ⟨k, rfl, hbounds⟩
    obtain rfl : m.toInt = k := by exact_mod_cast hstored
    have hcompared := (comparedNumber_ofInt64 m).2 hholds
    exact ⟨_, hsubmitted, denotedNumber_ofInt64 m, hcompared,
      fun ha hr => evaluateSingle_numeric_iff hop ha hcompared hr,
      fun ha hp => evaluateSingle_numeric_iff hop ha hp hcompared⟩

/-- At least 18. -/
theorem numeric_threshold_kept_iff_eighteen :
    ∃ q, ThresholdKept plainLibs .gte (.string " 18".toList) (.number (.posInt 18 (by decide))) q :=
  (numeric_threshold_kept_iff (n := 1) (by decide) rfl).2
    ⟨18, Text.decimal_of_parseI64 (s := "18".toList) rfl, by decide, 18, 0, by decide, rfl⟩

/-- Three halves. -/
def threeHalves : F64 := Float.Model.ofScientific 15 (-1)

/-- A threshold of three halves is stored as one. -/
theorem not_numeric_threshold_kept :
    ¬∀ (libs : Libs) (op : ConditionOperator) (raw stored : Value) (n : Nat),
      op ∈ numericOperators →
      normalizeConditionValue libs op raw n = .ok stored →
        ∃ q, ThresholdKept libs op raw stored q := by
  intro h
  obtain ⟨q, hkept⟩ :=
    h plainLibs .gte (.number (.float threeHalves (by decide))) (.number (.posInt 1 (by decide))) 1
    (by decide) rfl
  have hone : (1 : ℚ) = q := Option.some.inj hkept.kept
  have hvalue : threeHalves.value = some 1 := hkept.submitted.trans (congrArg some hone.symm)
  have hunpack : threeHalves.unpack = .finite .positive (3 * 2 ^ 51) (-52) (by decide) := rfl
  rw [F64.value, hunpack] at hvalue
  norm_num [Float.Model.UnpackedFloat.Sign.apply] at hvalue

end FormRespondentRole
