import FormRespondentRole.AcceptedAnswers
import FormRespondentRole.QuizScore

/-!
# Numeric answers

The number of an answer is compared with the limits of the question and stored as a text.  The text
of a whole number is that of the `i64` next to it, so that the number that is read back is clamped
to 64 bits; and what is not a number passes both comparisons.
-/

namespace FormRespondentRole

open Foundations

namespace Validation

def numericKinds : List QuestionKind := [.number, .scale]

/-- A whole number as it is read back: at most 2^63 on either side. -/
def clamped (k : Int) : Int := max (-2 ^ 63) (min k (2 ^ 63))

private theorem clamped_eq_self_iff {k : Int} : clamped k = k ↔ -2 ^ 63 ≤ k ∧ k ≤ 2 ^ 63 := by
  rw [clamped]
  omega

section

variable {libs : Libs} {displayF64 : F64 → Text} {q : Question} {raw : Option Value} {n : F64}

private theorem toInt_ofIntClamp (k : Int) :
    (Int64.ofIntClamp k).toInt = max (-2 ^ 63) (min k (2 ^ 63 - 1)) := by
  have hmin : Int64.minValue.toInt = -2 ^ 63 := by decide
  have hmax : Int64.maxValue.toInt = 2 ^ 63 - 1 := by decide
  rw [Int64.ofIntClamp]
  split
  · split
    · rw [Int64.toInt_ofIntLE]
      omega
    · omega
  · omega

private theorem numberText_of_value {k : Int} (h : n.value = some (k : ℚ)) :
    numberText displayF64 n = Text.ofInt (max (-2 ^ 63) (min k (2 ^ 63 - 1))) := by
  rw [numberText, if_pos (F64.isWhole_iff.2 ⟨k, h⟩), F64.toInt64_of_value h, toInt_ofIntClamp]

/-- The stored text of a whole number is that of a number within 64 bits, which is read back as it
is but for the largest. -/
theorem parse_numberText_of_value (displayF64 : F64 → Text) {k : Int} (h : n.value = some (k : ℚ)) :
    ∃ x, F64.parse (numberText displayF64 n) = some x ∧ x.value = some (clamped k : ℚ) := by
  have hpower : F64.HoldsInt (2 ^ 63) := ⟨1, 63, by decide, rfl⟩
  rw [numberText_of_value h]
  by_cases hhigh : 2 ^ 63 ≤ k
  · have hlargest : max (-2 ^ 63) (min k (2 ^ 63 - 1)) = (2 ^ 63 - 1 : Nat) := by omega
    have hclamped : clamped k = 2 ^ 63 := by rw [clamped]; omega
    -- it has too many bits, and is rounded up
    have hrounds : Float.Model.ofScientific (2 ^ 63 - 1) 0 =
      Float.Model.ofScientific (2 ^ 63) 0 := by decide
    obtain ⟨x, hx, hvalue⟩ := F64.value_parse_ofInt (z := 2 ^ 63) (by decide) hpower
    rw [hlargest, hclamped]
    refine ⟨x, ?_, hvalue⟩
    rw [← hx]
    exact (F64.parse_ofNat _).trans ((congrArg some hrounds).trans (F64.parse_ofNat _).symm)
  · have hclamped : max (-2 ^ 63) (min k (2 ^ 63 - 1)) = clamped k := by rw [clamped]; omega
    have hbound : (clamped k).natAbs < 2 ^ 64 := by rw [clamped]; omega
    rw [hclamped]
    refine F64.value_parse_ofInt hbound ?_
    by_cases hlow : -2 ^ 63 ≤ k
    · rw [clamped_eq_self_iff.2 ⟨hlow, by omega⟩]
      exact F64.holdsInt_of_value h
    · have hsmallest : clamped k = -2 ^ 63 := by rw [clamped]; omega
      rw [hsmallest]
      exact ⟨1, 63, by decide, rfl⟩

/-- The number `x` that is read back for the number `n`. -/
structure ReadsBack (n x : F64) : Prop where
  whole : ∀ k : Int, n.value = some (k : ℚ) → x.value = some (clamped k : ℚ)
  other : n.isWhole = false → x = n

theorem exists_readsBack (hdisplay : n.isWhole = false → F64.parse (displayF64 n) = some n) :
    ∃ x, F64.parse (numberText displayF64 n) = some x ∧ ReadsBack n x := by
  cases hwhole : n.isWhole with
  | true =>
    obtain ⟨k, hk⟩ := F64.isWhole_iff.1 hwhole
    obtain ⟨x, hx, hvalue⟩ := parse_numberText_of_value displayF64 hk
    refine ⟨x, hx, fun j hj => ?_, fun hnot => ?_⟩
    · obtain rfl : k = j := by exact_mod_cast Option.some.inj (hk.symm.trans hj)
      exact hvalue
    · rw [hwhole] at hnot
      cases hnot
  | false =>
    refine ⟨n, ?_, fun k hk => ?_, fun _ => rfl⟩
    · rw [numberText, hwhole]
      exact hdisplay hwhole
    · rw [F64.isWhole_iff.2 ⟨k, hk⟩] at hwhole
      cases hwhole

/-- How far `w` is from what is read back depends on the number alone. -/
theorem ReadsBack.abs_sub_eq {w x y : F64} (hx : ReadsBack n x) (hy : ReadsBack n y) :
    (w - x).abs = (w - y).abs := by
  cases hwhole : n.isWhole with
  | true =>
    obtain ⟨k, hk⟩ := F64.isWhole_iff.1 hwhole
    exact F64.abs_sub_eq_of_value (hx.whole k hk) (hy.whole k hk)
  | false => rw [hx.other hwhole, hy.other hwhole]

/-- What is read as a number has nothing to trim. -/
theorem asNumber_of_parse {s : Text} {x : F64} (h : F64.parse s = some x) :
    Quiz.asNumber (.string s) = some x := by
  rw [Quiz.asNumber, Text.trim_eq_self (F64.isWhitespace_of_parse h), h]

/-- A number that passes both comparisons. -/
def InLimits (q : Question) (n : F64) : Prop :=
  (∀ b, q.min = some b → ¬n < b) ∧ ∀ b, q.max = some b → ¬b < n

theorem rangeError_eq_none_iff : rangeError displayF64 q n = none ↔ InLimits q n := by
  rw [rangeError, InLimits, Option.or_eq_none_iff]
  refine and_congr ?_ ?_
  · cases q.min <;> simp
  · cases q.max <;> simp

theorem validateQuestion_numeric (hkind : q.kind ∈ numericKinds) :
    validateQuestion libs displayF64 q raw = validateNumber displayF64 q raw := by
  simp only [numericKinds, List.mem_cons, List.not_mem_nil, or_false] at hkind
  rcases hkind with hkind | hkind <;> rw [validateQuestion, hkind]

private theorem validateQuestion_number {stored : Value} (hkind : q.kind ∈ numericKinds)
    (h : validateQuestion libs displayF64 q raw = .ok (some stored))
    (hn : answerNumber raw = some n) :
    stored = .string (numberText displayF64 n) ∧ InLimits q n := by
  rw [validateQuestion_numeric hkind] at h
  obtain ⟨hnone, -⟩ | ⟨m, hm, -, hrange, hstored⟩ := validateNumber_ok h
  · cases hnone
  obtain rfl : m = n := Option.some.inj (hm.symm.trans hn)
  exact ⟨Option.some.inj hstored, rangeError_eq_none_iff.1 hrange⟩

/-! ### Limits -/

/-- What is read back is as far up as a limit that the number is not below. -/
theorem ReadsBack.min_le {x b : F64} (hread : ReadsBack n x) (hb : b.isNaN = false)
    (hn : n.isNaN = false) (h : ¬n < b)
    (hlarge : ∀ (k : Int) (p : ℚ), n.value = some (k : ℚ) → b.value = some p → 2 ^ 63 < k →
      p ≤ 2 ^ 63) : b ≤ x := by
  have hle : b ≤ n := F64.le_of_not_lt hn hb h
  cases hwhole : n.isWhole with
  | false => rwa [hread.other hwhole]
  | true =>
    obtain ⟨k, hk⟩ := F64.isWhole_iff.1 hwhole
    have hx := hread.whole k hk
    cases hbound : b.value with
    | none => exact (F64.le_iff_of_value_none hk hx hbound).1.1 hle
    | some p =>
      have hpk : p ≤ k := (F64.le_iff_value hbound hk).1 hle
      rw [F64.le_iff_value hbound hx]
      by_cases hfits : k ≤ 2 ^ 63
      · have hclamped : k ≤ clamped k := by rw [clamped]; omega
        exact hpk.trans (by exact_mod_cast hclamped)
      · have hclamped : clamped k = 2 ^ 63 := by rw [clamped]; omega
        rw [hclamped]
        exact_mod_cast hlarge k p hk hbound (by omega)

private theorem ReadsBack.le_max {x b : F64} (hread : ReadsBack n x) (hb : b.isNaN = false)
    (hn : n.isNaN = false) (h : ¬b < n)
    (hsmall : ∀ (k : Int) (p : ℚ), n.value = some (k : ℚ) → b.value = some p → k < -2 ^ 63 →
      -2 ^ 63 ≤ p) : x ≤ b := by
  have hle : n ≤ b := F64.le_of_not_lt hb hn h
  cases hwhole : n.isWhole with
  | false => rwa [hread.other hwhole]
  | true =>
    obtain ⟨k, hk⟩ := F64.isWhole_iff.1 hwhole
    have hx := hread.whole k hk
    cases hbound : b.value with
    | none => exact (F64.le_iff_of_value_none hk hx hbound).2.1 hle
    | some p =>
      have hkp : (k : ℚ) ≤ p := (F64.le_iff_value hk hbound).1 hle
      rw [F64.le_iff_value hx hbound]
      by_cases hfits : -2 ^ 63 ≤ k
      · have hclamped : clamped k ≤ k := by rw [clamped]; omega
        exact le_trans (by exact_mod_cast hclamped) hkp
      · have hclamped : clamped k = -2 ^ 63 := by rw [clamped]; omega
        rw [hclamped]
        exact_mod_cast hsmall k p hk hbound (by omega)

end

/-- The stored answer is a number within the limits of the question. -/
def WithinLimits (q : Question) (stored : Value) : Prop :=
  ∃ x, numericValue stored = some x ∧ (∀ b, q.min = some b → b ≤ x) ∧ ∀ b, q.max = some b → x ≤ b

/-- An answer that the limits hold back as they should. -/
structure LimitsHold (q : Question) (n : F64) : Prop where
  answer : n.isNaN = false
  /-- A limit is a number; in JSON it always is. -/
  limits : ∀ b, q.min = some b ∨ q.max = some b → b.isNaN = false
  large : ∀ (b : F64) (k : Int) (p : ℚ), q.min = some b → n.value = some (k : ℚ) →
    b.value = some p → 2 ^ 63 < k →
    p ≤ 2 ^ 63
  small : ∀ (b : F64) (k : Int) (p : ℚ), q.max = some b → n.value = some (k : ℚ) →
    b.value = some p → k < -2 ^ 63 →
    -2 ^ 63 ≤ p

/-- The stored answer is read back as this number, by the conditions and by the score alike. -/
structure KeepsNumber (stored : Value) (p : ℚ) : Prop where
  conditions : ∃ x, numericValue stored = some x ∧ x.value = some p
  score : ∃ x, Quiz.asNumber stored = some x ∧ x.value = some p

end Validation

open Validation

/-- The stored answer is within the limits exactly when the answer is a number and no limit is
beyond 64 bits on the side where the answer is. -/
theorem range_limits_iff (libs : Libs) (displayF64 : F64 → Text) {q : Question}
    (hkind : q.kind ∈ numericKinds) (hset : q.min.isSome ∨ q.max.isSome) {raw : Option Value}
    {stored : Value} (h : validateQuestion libs displayF64 q raw = .ok (some stored)) {n : F64}
    (hn : answerNumber raw = some n)
    (hdisplay : n.isWhole = false → F64.parse (displayF64 n) = some n) :
    WithinLimits q stored ↔ LimitsHold q n := by
  obtain ⟨rfl, hmin, hmax⟩ := validateQuestion_number hkind h hn
  obtain ⟨x, hx, hread⟩ := exists_readsBack hdisplay
  have hread_iff : WithinLimits q (.string (numberText displayF64 n)) ↔
      (∀ b, q.min = some b → b ≤ x) ∧ ∀ b, q.max = some b → x ≤ b := by
    refine ⟨?_, fun hx' => ⟨x, hx, hx'⟩⟩
    rintro ⟨y, hy, hy'⟩
    obtain rfl : y = x := Option.some.inj (hy.symm.trans hx)
    exact hy'
  rw [hread_iff]
  constructor
  · rintro ⟨hlow, hhigh⟩
    refine ⟨?_, ?_, fun b k p hb hk hp hlarge => ?_, fun b k p hb hk hp hsmall => ?_⟩
    · -- what is not a number is stored as it is
      by_contra hnan
      have hnot : n.isWhole = false := by
        by_contra hwhole
        obtain ⟨k, hk⟩ := F64.isWhole_iff.1 (Bool.not_eq_false _ ▸ hwhole)
        rw [F64.isNaN_of_value hk] at hnan
        exact hnan rfl
      rw [← hread.other hnot] at hnan
      rcases hset with hset | hset
      · obtain ⟨b, hb⟩ := Option.isSome_iff_exists.1 hset
        exact hnan (F64.not_isNaN_of_le (hlow b hb)).2
      · obtain ⟨b, hb⟩ := Option.isSome_iff_exists.1 hset
        exact hnan (F64.not_isNaN_of_le (hhigh b hb)).1
    · rintro b (hb | hb)
      · exact (F64.not_isNaN_of_le (hlow b hb)).1
      · exact (F64.not_isNaN_of_le (hhigh b hb)).2
    · have hclamped : clamped k = 2 ^ 63 := by rw [clamped]; omega
      have hle := (F64.le_iff_value hp (hread.whole k hk)).1 (hlow b hb)
      rw [hclamped] at hle
      exact_mod_cast hle
    · have hclamped : clamped k = -2 ^ 63 := by rw [clamped]; omega
      have hle := (F64.le_iff_value (hread.whole k hk) hp).1 (hhigh b hb)
      rw [hclamped] at hle
      exact_mod_cast hle
  · intro hold
    exact ⟨fun b hb => hread.min_le (hold.limits b (Or.inl hb)) hold.answer (hmin b hb) fun k p =>
      hold.large b k p hb,
      fun b hb => hread.le_max (hold.limits b (Or.inr hb)) hold.answer (hmax b hb) fun k p =>
        hold.small b k p hb⟩

/-- A question for a number from 1 to 10. -/
def ratingQuestion : Question where
  id := "q".toList
  kind := .number
  title := "How many?".toList
  min := some (Float.Model.ofScientific 1 0)
  max := some (Float.Model.ofScientific 10 0)

def ratingForm : FormSchema where
  title := "Rating".toList
  pages := [{ id := "p".toList, questions := [ratingQuestion] }]

/-- Two and a half. -/
def twoAndAHalf : F64 := Float.Model.ofScientific 25 (-1)

private theorem twoAndAHalf_accepted :
    validateQuestion plainLibs (fun _ => "2.5".toList) ratingQuestion (some (.str " 2.5")) =
    .ok (some (.str "2.5")) := rfl

theorem range_limits_iff_half : WithinLimits ratingQuestion (.str "2.5") :=
  (range_limits_iff plainLibs _ (n := twoAndAHalf) (by decide) (Or.inl rfl) twoAndAHalf_accepted rfl
    fun _ => rfl).2
    { answer := by decide
      limits := by rintro b (hb | hb) <;> rw [← Option.some.inj hb] <;> decide
      large := fun _ k _ _ hk => absurd (F64.isWhole_iff.2 ⟨k, hk⟩) (by decide)
      small := fun _ k _ _ hk => absurd (F64.isWhole_iff.2 ⟨k, hk⟩) (by decide) }

/-- The word `nan` is accepted as an answer from 1 to 10. -/
theorem not_range_limits :
    sanityCheck ratingForm = .ok () ∧
    validate plainLibs (fun _ => "NaN".toList) ratingForm (.object [("q".toList, .str "nan")]) =
      .ok [("q".toList, .str "NaN")] ∧
    ¬WithinLimits ratingQuestion (.str "NaN") := by
  refine ⟨by rfl, by rfl, ?_⟩
  rintro ⟨x, hx, hlow, -⟩
  obtain rfl : Float.Model.pack .notANumber = x := Option.some.inj hx
  exact absurd (hlow _ rfl) (by decide)

/-- A finite answer is read back as the number that was checked exactly when that has a fraction or
is at most 2^63 on either side. -/
theorem numeric_answer_kept_iff (libs : Libs) (displayF64 : F64 → Text) {q : Question}
    (hkind : q.kind ∈ numericKinds) {raw : Option Value} {stored : Value}
    (h : validateQuestion libs displayF64 q raw = .ok (some stored)) {n : F64}
    (hn : answerNumber raw = some n) {p : ℚ} (hp : n.value = some p)
    (hdisplay : n.isWhole = false → F64.parse (displayF64 n) = some n) :
    KeepsNumber stored p ↔ ∀ k : Int, (k : ℚ) = p → -2 ^ 63 ≤ k ∧ k ≤ 2 ^ 63 := by
  obtain ⟨rfl, -⟩ := validateQuestion_number hkind h hn
  obtain ⟨x, hx, hread⟩ := exists_readsBack hdisplay
  have hscore : Quiz.asNumber (.string (numberText displayF64 n)) = some x := asNumber_of_parse hx
  have hkept : KeepsNumber (.string (numberText displayF64 n)) p ↔ x.value = some p := by
    refine ⟨?_, fun heq => ⟨⟨x, hx, heq⟩, ⟨x, hscore, heq⟩⟩⟩
    rintro ⟨⟨y, hy, heq⟩, -⟩
    obtain rfl : y = x := Option.some.inj (hy.symm.trans hx)
    exact heq
  rw [hkept]
  constructor
  · rintro heq k rfl
    have hvalue := (hread.whole k hp).symm.trans heq
    exact clamped_eq_self_iff.1 (by exact_mod_cast Option.some.inj hvalue)
  · intro hfits
    cases hwhole : n.isWhole with
    | false => rw [hread.other hwhole, hp]
    | true =>
      obtain ⟨k, hk⟩ := F64.isWhole_iff.1 hwhole
      obtain rfl : (k : ℚ) = p := Option.some.inj (hk.symm.trans hp)
      rw [hread.whole k hk, clamped_eq_self_iff.2 (hfits k rfl)]

private theorem twoAndAHalf_value : twoAndAHalf.value = some (5 / 2) := by
  have hunpack : twoAndAHalf.unpack = .finite .positive (5 * 2 ^ 50) (-51) (by decide) := rfl
  rw [F64.value, hunpack]
  norm_num [Float.Model.UnpackedFloat.Sign.apply]

theorem numeric_answer_kept_iff_half : KeepsNumber (.str "2.5") (5 / 2) := by
  refine (numeric_answer_kept_iff plainLibs _ (by decide) twoAndAHalf_accepted rfl twoAndAHalf_value
    fun _ => rfl).2
    fun k hk => ?_
  exact absurd (F64.isWhole_iff.2 ⟨k, twoAndAHalf_value.trans (congrArg some hk.symm)⟩) (by decide)

/-- A question for any number. -/
def countQuestion : Question where
  id := "q".toList
  kind := .number
  title := "How many?".toList

def countForm : FormSchema where
  title := "Count".toList
  pages := [{ id := "p".toList, questions := [countQuestion] }]

/-- Ten to the nineteenth is stored as the largest `i64`. -/
theorem not_numeric_answer_kept :
    sanityCheck countForm = .ok () ∧
    validate plainLibs (fun _ => []) countForm (.object [("q".toList, .str "1e19")]) =
      .ok [("q".toList, .str "9223372036854775807")] ∧
    ∃ n p, answerNumber (some (.str "1e19")) = some n ∧ n.value = some p ∧
      ¬KeepsNumber (.str "9223372036854775807") p := by
  obtain ⟨p, hp⟩ := F64.exists_value (x := Float.Model.ofScientific 1 19) (by decide)
  refine ⟨by rfl, by rfl, _, p, rfl, hp, ?_⟩
  rintro ⟨⟨x, hx, hvalue⟩, -⟩
  have hlargest : F64.parse "9223372036854775807".toList =
    some (Float.Model.ofScientific (2 ^ 63 - 1) 0) := by decide
  obtain rfl : Float.Model.ofScientific (2 ^ 63 - 1) 0 = x :=
    Option.some.inj (hlargest.symm.trans hx)
  exact absurd ((F64.le_iff_value hp hvalue).2 le_rfl) (by decide)

end FormRespondentRole
