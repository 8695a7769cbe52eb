import FormRespondentRole.ChoiceScoring
import FormRespondentRole.NumericAnswers

/-!
# Full marks

Which answers `validate` can store for a question, kind by kind, and which answer keys are reached
by one of them.  A quiz can be answered with full marks exactly when every key is reached and every
other required question has an answer.
-/

namespace FormRespondentRole

open Foundations

namespace Validation

def textKinds : List QuestionKind := [.shortText, .longText]

/-- Some answer to the question is stored as `v`. -/
def Storable (libs : Libs) (displayF64 : F64 → Text) (q : Question) (v : Value) : Prop :=
  ∃ raw, validateQuestion libs displayF64 q raw = .ok (some v)

/-- What `Display` writes for a number with a fraction is read as that number: asked of the numbers
within the limits of a numeric question. -/
def DisplayParses (displayF64 : F64 → Text) (q : Question) : Prop :=
  q.kind ∈ numericKinds → ∀ n, InLimits q n → n.isWhole = false → F64.parse (displayF64 n) = some n

section

variable {libs : Libs} {displayF64 : F64 → Text} {q : Question} {v : Value}

/-! ### What is stored, by kind -/

private theorem isBlank_trimmed {s : Text} (htrim : Text.trim s = s) (hne : s ≠ []) :
    isBlank (some (.string s)) = false := by
  rw [isBlank, htrim]
  exact decide_eq_false hne

private theorem storable_text_iff (hkind : q.kind ∈ textKinds) :
    Storable libs displayF64 q v ↔ ∃ s, v = .string s ∧ Text.trim s = s ∧ s ≠ [] ∧
      s.length ≤ maxLen q := by
  have hcheck : ∀ raw, validateQuestion libs displayF64 q raw = validateText q raw := by
    simp only [textKinds, List.mem_cons, List.not_mem_nil, or_false] at hkind
    intro raw
    rcases hkind with hkind | hkind <;> rw [validateQuestion, hkind]
  simp only [Storable, hcheck]
  constructor
  · rintro ⟨raw, h⟩
    obtain ⟨hnone, -⟩ | ⟨s, hs, htrim, hne, hlength⟩ := validateText_ok h
    · cases hnone
    · exact ⟨s, Option.some.inj hs, htrim, hne, hlength⟩
  · rintro ⟨s, rfl, htrim, hne, hlength⟩
    refine ⟨some (.string s), ?_⟩
    rw [validateText, isBlank_trimmed htrim hne]
    simp [Value.asStr, htrim, Nat.not_lt.2 hlength]

private theorem storable_numeric_iff (hkind : q.kind ∈ numericKinds) :
    Storable libs displayF64 q v ↔
      ∃ raw n, answerNumber raw = some n ∧ InLimits q n ∧
        v = .string (numberText displayF64 n) := by
  simp only [Storable, validateQuestion_numeric hkind]
  constructor
  · rintro ⟨raw, h⟩
    obtain ⟨hnone, -⟩ | ⟨n, hn, -, hrange, hv⟩ := validateNumber_ok h
    · cases hnone
    · exact ⟨raw, n, hn, rangeError_eq_none_iff.1 hrange, Option.some.inj hv⟩
  · rintro ⟨raw, n, hn, hrange, rfl⟩
    have hblank : isBlank raw = false := by
      cases raw with
      | none => cases hn
      | some a =>
        cases a with
        | number m => rfl
        | string s =>
          refine decide_eq_false fun htrim => ?_
          rw [answerNumber, htrim] at hn
          cases hn
        | _ => cases hn
    refine ⟨raw, ?_⟩
    rw [validateNumber, hblank]
    simp [hn, rangeError_eq_none_iff.2 hrange]

/-- Every number is the number of some answer. -/
private theorem exists_answerNumber {n : F64}
    (hdisplay : n.isWhole = false → F64.parse (displayF64 n) = some n) :
    ∃ raw, answerNumber raw = some n := by
  cases hwhole : n.isWhole with
  | true =>
    obtain ⟨k, hk⟩ := F64.isWhole_iff.1 hwhole
    exact ⟨some (.number (.float n (F64.isFinite_of_value hk))), rfl⟩
  | false =>
    have hparse := hdisplay hwhole
    refine ⟨some (.string (displayF64 n)), ?_⟩
    rw [answerNumber, Text.trim_eq_self (F64.isWhitespace_of_parse hparse), hparse]

private theorem storable_single_iff (hkind : q.kind ∈ Quiz.singleChoiceKinds) :
    Storable libs displayF64 q v ↔ ∃ s, v = .string s ∧ Text.trim s ≠ [] ∧ OptionId q s := by
  simp only [Storable, validateQuestion_single hkind]
  constructor
  · rintro ⟨raw, s, -, h⟩
    exact ⟨s, h⟩
  · rintro ⟨s, h⟩
    exact ⟨some (.string s), s, rfl, h⟩

private theorem storable_multi_iff (hkind : q.kind = .multiChoice) :
    Storable libs displayF64 q v ↔
      ∃ a, v = .array a ∧ a ≠ [] ∧ ∀ x ∈ a, ∃ s, x = .string s ∧ OptionId q s := by
  have hcheck : ∀ raw, validateQuestion libs displayF64 q raw = validateMultiChoice q raw := by
    intro raw
    rw [validateQuestion, hkind]
  simp only [Storable, hcheck]
  constructor
  · rintro ⟨raw, h⟩
    obtain ⟨hnone, -⟩ | ⟨a, -, ha, hne, hall⟩ := validateMultiChoice_ok h
    · cases hnone
    · exact ⟨a, Option.some.inj ha, hne, hall⟩
  · rintro ⟨a, rfl, hne, hall⟩
    obtain ⟨x, hx⟩ := List.exists_mem_of_ne_nil a hne
    obtain ⟨-, -, options, hoptions, -⟩ := hall x hx
    have hchosen : chosenOptions options a = .ok a := by
      refine chosenOptions_ok_iff.2 ⟨fun x hx => ?_, rfl⟩
      obtain ⟨s, rfl, options', hoptions', hoption⟩ := hall x hx
      obtain rfl : options' = options := Option.some.inj (hoptions'.symm.trans hoptions)
      exact ⟨s, rfl, hasOption_iff.2 hoption⟩
    have hblank : isBlank (some (.array a)) = false := by simpa [isBlank] using hne
    refine ⟨some (.array a), ?_⟩
    rw [validateMultiChoice, hblank, hoptions]
    simp [Value.asArray, hchosen, Except.map]

private theorem storable_date_iff (hkind : q.kind = .date) :
    Storable libs displayF64 q v ↔ ∃ s, v = .string s ∧ Text.trim s = s ∧ s ≠ [] ∧
      ((libs.parseDate s).isSome ∨ (libs.parseFromRfc3339 s).isSome) := by
  have hcheck : ∀ raw, validateQuestion libs displayF64 q raw = validateDate libs q raw := by
    intro raw
    rw [validateQuestion, hkind]
  simp only [Storable, hcheck]
  constructor
  · rintro ⟨raw, h⟩
    obtain ⟨hnone, -⟩ | ⟨s, hs, hs'⟩ := validateDate_ok h
    · cases hnone
    · exact ⟨s, Option.some.inj hs, hs'⟩
  · rintro ⟨s, rfl, htrim, hne, hparses⟩
    refine ⟨some (.string s), ?_⟩
    rw [validateDate, isBlank_trimmed htrim hne]
    rcases hparses with hparses | hparses <;>
      simp [Value.asStr, htrim, Option.isNone_eq_false_iff.2 hparses]

private theorem ne_nil_of_looksLikeEmail {s : Text} (h : looksLikeEmail s = true) : s ≠ [] := by
  rintro rfl
  cases h

private theorem storable_email_iff (hkind : q.kind = .email) :
    Storable libs displayF64 q v ↔ ∃ s, v = .string s ∧ Text.trim s = s ∧ looksLikeEmail s = true ∧
      (Text.bytes s).length ≤ 320 := by
  have hcheck : ∀ raw, validateQuestion libs displayF64 q raw = validateEmail q raw := by
    intro raw
    rw [validateQuestion, hkind]
  simp only [Storable, hcheck]
  constructor
  · rintro ⟨raw, h⟩
    obtain ⟨hnone, -⟩ | ⟨s, hs, htrim, hemail, hlength⟩ := validateEmail_ok h
    · cases hnone
    · exact ⟨s, Option.some.inj hs, htrim, hemail, hlength⟩
  · rintro ⟨s, rfl, htrim, hemail, hlength⟩
    refine ⟨some (.string s), ?_⟩
    rw [validateEmail, isBlank_trimmed htrim (ne_nil_of_looksLikeEmail hemail)]
    simp [Value.asStr, htrim, hemail, Nat.not_lt.2 hlength]

private theorem storable_agreement_iff (hkind : q.kind = .agreement) :
    Storable libs displayF64 q v ↔ v = .str "true" := by
  have hcheck : ∀ raw, validateQuestion libs displayF64 q raw = validateAgreement q raw := by
    intro raw
    rw [validateQuestion, hkind]
  simp only [Storable, hcheck]
  constructor
  · rintro ⟨raw, h⟩
    obtain ⟨hnone, -⟩ | hv := validateAgreement_ok h
    · cases hnone
    · exact Option.some.inj hv
  · rintro rfl
    exact ⟨some (.bool true), rfl⟩

/-! ### Whether there is an answer -/

/-- A question that is not required may be left out. -/
theorem validateQuestion_none (h : q.required = false) :
    validateQuestion libs displayF64 q none = .ok none := by
  have hrequire : require q = .ok none := by rw [require, h]; rfl
  rw [validateQuestion]
  cases q.kind with
  | shortText | longText => exact hrequire
  | number | scale => exact hrequire
  | singleChoice | dropdown | multiChoice => exact hrequire
  | date | email => exact hrequire
  | agreement =>
    rw [validateAgreement, h]
    rfl
  | info | image | video => rfl

private theorem maxLen_eq_zero_iff : maxLen q = 0 ↔ q.maxLength = some 0 := by
  rw [maxLen]
  cases hlength : q.maxLength with
  | none =>
    refine iff_of_false ?_ fun h => by cases h
    rw [Option.map_none, Option.getD_none]
    split_ifs <;> decide
  | some n =>
    have hzero : n.toUInt64.toNat = 0 ↔ n = 0 := by
      obtain ⟨bits⟩ := n
      rw [← UInt64.toNat_zero, UInt64.toNat_inj]
      exact ⟨fun h => congrArg Int64.ofUInt64 h, fun h => congrArg Int64.toUInt64 h⟩
    rw [Option.map_some, Option.getD_some, asUsize, hzero, Option.some.injEq]

/-- Only a text question can be without any answer: one of at most no characters. -/
theorem exists_storable_iff (hq : q.kind.isAnswerable = true) (hchecked : checkQuestionKind q = [])
    (hdate : (libs.parseDate "2024-01-01".toList).isSome) :
    (∃ v, Storable libs displayF64 q v) ↔ (q.kind ∈ textKinds → q.maxLength ≠ some 0) := by
  have hoption : checkQuestionKind q = checkChoice q → ∃ s, Text.trim s ≠ [] ∧ OptionId q s := by
    intro hchoice
    rw [hchoice, checkChoice_eq_nil_iff] at hchecked
    obtain ⟨o, ho⟩ := List.exists_mem_of_ne_nil _ hchecked.1
    exact ⟨o.id, hchecked.2.2.1.nonblank _ (List.mem_map_of_mem ho), optionId_of_mem ho⟩
  cases hkind : q.kind with
  | shortText | longText =>
    have htext : q.kind ∈ textKinds := by rw [hkind]; decide
    simp only [storable_text_iff htext, ← hkind, htext, true_imp_iff, ne_eq, ← maxLen_eq_zero_iff]
    constructor
    · rintro ⟨v, s, -, -, hne, hlength⟩ hzero
      rw [hzero, Nat.le_zero, List.length_eq_zero_iff] at hlength
      exact hne hlength
    · intro hpos
      exact ⟨_, "a".toList, rfl, by decide, by decide, Nat.pos_of_ne_zero hpos⟩
  | number | scale =>
    have hnumeric : q.kind ∈ numericKinds := by rw [hkind]; decide
    refine iff_of_true ?_ fun h => absurd h (by decide)
    simp only [storable_numeric_iff hnumeric]
    -- what is not a number passes both comparisons
    refine ⟨_, some (.str "nan"), Float.Model.pack .notANumber, rfl, ⟨fun b _ => ?_, fun b _ => ?_⟩,
      rfl⟩
    · exact fun h => absurd (F64.not_isNaN_of_lt h).1 (by decide)
    · exact fun h => absurd (F64.not_isNaN_of_lt h).2 (by decide)
  | singleChoice | dropdown =>
    have hsingle : q.kind ∈ Quiz.singleChoiceKinds := by rw [hkind]; decide
    obtain ⟨s, hs⟩ := hoption (by rw [checkQuestionKind, hkind])
    exact iff_of_true ⟨_, (storable_single_iff hsingle).2 ⟨s, rfl, hs⟩⟩ fun h =>
      absurd h (by decide)
  | multiChoice =>
    obtain ⟨s, -, hs⟩ := hoption (by rw [checkQuestionKind, hkind])
    refine iff_of_true ⟨.array [.string s], (storable_multi_iff hkind).2 ?_⟩ fun h =>
      absurd h (by decide)
    refine ⟨_, rfl, List.cons_ne_nil _ _, fun x hx => ?_⟩
    exact ⟨s, List.mem_singleton.1 hx, hs⟩
  | date =>
    refine iff_of_true ⟨.str "2024-01-01", (storable_date_iff hkind).2 ?_⟩ fun h =>
      absurd h (by decide)
    exact ⟨_, rfl, by decide, by decide, Or.inl hdate⟩
  | email =>
    refine iff_of_true ⟨.str "a@b.co", (storable_email_iff hkind).2 ?_⟩ fun h =>
      absurd h (by decide)
    exact ⟨_, rfl, by decide, by decide, by decide⟩
  | agreement =>
    exact iff_of_true ⟨_, (storable_agreement_iff hkind).2 rfl⟩ fun h => absurd h (by decide)
  | info | image | video =>
    rw [hkind] at hq
    cases hq

end

end Validation

namespace Quiz

/-- Some number within the limits, clamped to 64 bits when it is whole, differs from `w` by less
than the tolerance. -/
def NearLimits (q : Question) (w : F64) : Prop :=
  ∃ n x, Validation.InLimits q n ∧ Validation.ReadsBack n x ∧ (w - x).abs < tolerance

section

variable (libs : Libs) (floatText : F64 → Text) (toLowercase : Text → Text)

/-- The key names an answer of the form that the question asks for. -/
def KeyReachable (q : Question) (correct : Value) : Prop :=
  match q.kind with
  | .shortText | .longText => ∃ want ∈ acceptedAnswers floatText correct, ∃ s,
    Text.trim s = s ∧ s ≠ [] ∧ s.length ≤ Validation.maxLen q ∧
      toLowercase s = toLowercase (Text.trim want)
  | .email => ∃ want ∈ acceptedAnswers floatText correct, ∃ s,
    Text.trim s = s ∧ Validation.looksLikeEmail s = true ∧ (Text.bytes s).length ≤ 320 ∧
      toLowercase s = toLowercase (Text.trim want)
  | .number | .scale => ∃ want ∈ acceptedAnswers floatText correct, ∃ w,
    F64.parse (Text.trim want) = some w ∧ NearLimits q w
  | .date => ∃ want ∈ acceptedAnswers floatText correct,
      (libs.parseDate (Text.trim want)).isSome ∨ (libs.parseFromRfc3339 (Text.trim want)).isSome
  | .agreement => ∃ want ∈ acceptedAnswers floatText correct, Text.trim want = "true".toList
  -- the marked options can be chosen
  | _ => True

/-- A required question has an answer, and the key of a graded one is reached. -/
structure Attainable (q : Question) : Prop where
  answer : q.required = true → q.kind ∈ Validation.textKinds → q.maxLength ≠ some 0
  key : isGraded floatText q = true → ∀ correct, q.correct = some correct →
    KeyReachable libs floatText toLowercase q correct

end

section

variable {libs : Libs} {displayF64 floatText : F64 → Text} {toLowercase : Text → Text}
  {q : Question} {correct : Value}

open Validation

/-- All marked options at once are a match. -/
theorem matchesOptions_marked (h : acceptedAnswers floatText correct ≠ []) :
    matchesOptions floatText correct
    (.array ((acceptedAnswers floatText correct).map Value.string)) = true := by
  have hstrings : strings ((acceptedAnswers floatText correct).map Value.string) =
      acceptedAnswers floatText correct := by
    rw [strings, List.filterMap_map]
    exact List.filterMap_some
  rw [matchesOptions_array, hstrings]
  simp [h]

/-- A text that can be stored is a match when it is, after folding, one of the keys. -/
theorem exists_match_iff {fold : Text → Text} {stored : Text → Prop}
    (htrim : ∀ s, stored s → Text.trim s = s) (hfold : ∀ s, stored s → fold s ≠ []) :
    (∃ v, (∃ s, v = .string s ∧ stored s) ∧ matchesText floatText fold correct v = true) ↔
      ∃ want ∈ acceptedAnswers floatText correct, ∃ s, stored s ∧
        fold s = fold (Text.trim want) := by
  constructor
  · rintro ⟨v, ⟨s, rfl, hs⟩, hmatch⟩
    obtain ⟨-, want, hwant, heq⟩ := matchesText_iff.1 hmatch
    rw [htrim s hs] at heq
    exact ⟨want, hwant, s, hs, heq.symm⟩
  · rintro ⟨want, hwant, s, hs, heq⟩
    refine ⟨_, ⟨s, rfl, hs⟩, matchesText_iff.2 ⟨?_, want, hwant, ?_⟩⟩
    · rw [htrim s hs]
      exact hfold s hs
    · rw [htrim s hs, heq]

/-- A number that can be stored is a match when it is close to one of the keys. -/
private theorem numeric_match_iff (hnumeric : q.kind ∈ numericKinds)
    (hdisplay : DisplayParses displayF64 q) :
    (∃ v, Storable libs displayF64 q v ∧ matchesNumber floatText correct v = true) ↔
      ∃ want ∈ acceptedAnswers floatText correct, ∃ w, F64.parse (Text.trim want) = some w ∧
        NearLimits q w := by
  simp only [storable_numeric_iff hnumeric]
  constructor
  · rintro ⟨v, ⟨raw, n, -, hlimits, rfl⟩, hmatch⟩
    obtain ⟨x, hx, want, hwant, w, hw, hclose⟩ := matchesNumber_iff.1 hmatch
    obtain ⟨y, hy, hread⟩ := exists_readsBack (hdisplay hnumeric n hlimits)
    obtain rfl : x = y := Option.some.inj (hx.symm.trans (asNumber_of_parse hy))
    exact ⟨want, hwant, w, hw, n, x, hlimits, hread, hclose⟩
  · rintro ⟨want, hwant, w, hw, n, x, hlimits, hread, hclose⟩
    obtain ⟨raw, hn⟩ := exists_answerNumber (hdisplay hnumeric n hlimits)
    obtain ⟨y, hy, hready⟩ := exists_readsBack (hdisplay hnumeric n hlimits)
    rw [hread.abs_sub_eq hready] at hclose
    exact ⟨_, ⟨raw, n, hn, hlimits, rfl⟩,
      matchesNumber_iff.2 ⟨y, asNumber_of_parse hy, want, hwant, w, hw, hclose⟩⟩

/-- The key is reached by what can be stored for the question. -/
theorem keyReachable_iff (hlower : ∀ s, s ≠ [] → toLowercase s ≠ [])
    (hdisplay : DisplayParses displayF64 q) (hq : q.kind.isAnswerable = true)
    (hkey : KeyAccepted floatText q) (hcorrect : q.correct = some correct)
    (haccepted : acceptedAnswers floatText correct ≠ []) :
    (∃ v, Storable libs displayF64 q v ∧ keyMatches floatText toLowercase q.kind correct v = true) ↔
      KeyReachable libs floatText toLowercase q correct := by
  obtain ⟨marked, hmarked⟩ := List.exists_mem_of_ne_nil _ haccepted
  -- what a key lists as accepted, and for choices the options
  have hnonblank : ∀ want ∈ acceptedAnswers floatText correct, Text.trim want ≠ [] :=
    fun want hwant => of_decide_eq_true (List.mem_filter.1 hwant).2
  have hoption : q.kind ∈ choiceQuestionKinds → ∀ want ∈ acceptedAnswers floatText correct,
      OptionId q want := by
    intro hchoice want hwant
    obtain ⟨o, ho, rfl⟩ := List.mem_map.1 (hkey.options hchoice correct hcorrect want hwant)
    exact optionId_of_mem ho
  rw [KeyReachable]
  cases hkind : q.kind with
  | shortText | longText =>
    have htext : q.kind ∈ textKinds := by rw [hkind]; decide
    simp only [storable_text_iff htext, keyMatches]
    rw [exists_match_iff (fun s hs => hs.1) fun s hs => hlower s hs.2.1]
    simp only [and_assoc]
  | email =>
    simp only [storable_email_iff hkind, keyMatches]
    rw [exists_match_iff (fun s hs => hs.1) fun s hs => hlower s (ne_nil_of_looksLikeEmail hs.2.1)]
    simp only [and_assoc]
  | number | scale => exact numeric_match_iff (by rw [hkind]; decide) hdisplay
  | date =>
    simp only [storable_date_iff hkind, keyMatches]
    rw [exists_match_iff (fun s hs => hs.1) fun s hs => hs.2.1]
    constructor
    · rintro ⟨want, hwant, s, ⟨-, -, hparses⟩, heq⟩
      obtain rfl : s = Text.trim want := heq
      exact ⟨want, hwant, hparses⟩
    · rintro ⟨want, hwant, hparses⟩
      exact ⟨want, hwant, Text.trim want, ⟨Text.trim_trim want, hnonblank want hwant, hparses⟩, rfl⟩
  | agreement =>
    have htrim : Text.trim "true".toList = "true".toList := by decide
    simp only [storable_agreement_iff hkind, keyMatches, exists_eq_left]
    rw [Value.str, matchesText_iff, htrim]
    exact and_iff_right (by decide)
  | singleChoice | dropdown =>
    -- an option that the key marks can be chosen
    have hsingle : q.kind ∈ singleChoiceKinds := by rw [hkind]; decide
    have hmatch : matchesText floatText id correct (.string marked) = true :=
      matchesText_iff.2 ⟨hnonblank marked hmarked, marked, hmarked, rfl⟩
    refine iff_of_true ⟨_, (storable_single_iff hsingle).2
      ⟨marked, rfl, hnonblank marked hmarked, ?_⟩, hmatch⟩ trivial
    exact hoption (by rw [hkind]; decide) marked hmarked
  | multiChoice =>
    refine iff_of_true ⟨_, (storable_multi_iff hkind).2 ?_, matchesOptions_marked haccepted⟩ trivial
    refine ⟨_, rfl, ?_, fun x hx => ?_⟩
    · exact fun hnil => haccepted (List.map_eq_nil_iff.1 hnil)
    · obtain ⟨want, hwant, rfl⟩ := List.mem_map.1 hx
      exact ⟨want, rfl, hoption (by rw [hkind]; decide) want hwant⟩
  | info | image | video =>
    rw [hkind] at hq
    cases hq

/-- The stored answer earns the points, when there are any. -/
def Earned (floatText : F64 → Text) (toLowercase : Text → Text) (q : Question)
    (stored : Option Value) : Prop :=
  isGraded floatText q = true →
    ∃ correct v, q.correct = some correct ∧ stored = some v ∧
      keyMatches floatText toLowercase q.kind correct v = true

private theorem attainable_iff (hlower : ∀ s, s ≠ [] → toLowercase s ≠ [])
    (hdate : (libs.parseDate "2024-01-01".toList).isSome) (hdisplay : DisplayParses displayF64 q)
    (hq : q.kind.isAnswerable = true) (hchecked : checkQuestionKind q = [])
    (hkey : KeyAccepted floatText q) :
    (∃ raw stored, validateQuestion libs displayF64 q raw = .ok stored ∧
      Earned floatText toLowercase q stored) ↔
      Attainable libs floatText toLowercase q := by
  have hstorable : (∃ v, Storable libs displayF64 q v) ↔ _ := exists_storable_iff hq hchecked hdate
  cases hgraded : isGraded floatText q with
  | true =>
    obtain ⟨correct, hcorrect, haccepted⟩ :=
      (Option.any_eq_true _ _).1 (Bool.and_eq_true_iff.1 hgraded).2
    have hne : acceptedAnswers floatText correct ≠ [] := by simpa using haccepted
    have hreach : _ ↔ KeyReachable libs floatText toLowercase q correct :=
      keyReachable_iff hlower hdisplay hq hkey hcorrect hne
    constructor
    · rintro ⟨raw, stored, hok, hearned⟩
      obtain ⟨correct', v, hcorrect', rfl, hmatch⟩ := hearned hgraded
      obtain rfl : correct' = correct := Option.some.inj (hcorrect'.symm.trans hcorrect)
      refine ⟨fun _ => hstorable.1 ⟨v, raw, hok⟩, fun _ c hc => ?_⟩
      obtain rfl : c = correct' := Option.some.inj (hc.symm.trans hcorrect)
      exact hreach.1 ⟨v, ⟨raw, hok⟩, hmatch⟩
    · intro h
      obtain ⟨v, ⟨raw, hok⟩, hmatch⟩ := hreach.2 (h.key hgraded correct hcorrect)
      exact ⟨raw, some v, hok, fun _ => ⟨correct, v, hcorrect, rfl, hmatch⟩⟩
  | false =>
    have hearned : ∀ stored, Earned floatText toLowercase q stored := fun stored h => by
      rw [hgraded] at h
      cases h
    constructor
    · rintro ⟨raw, stored, hok, -⟩
      refine ⟨fun hrequired => ?_, fun h => ?_⟩
      · obtain ⟨-, hnot⟩ | ⟨v, rfl, -⟩ := validateQuestion_ok hq hok
        · rw [hrequired] at hnot
          cases hnot
        · exact hstorable.1 ⟨v, raw, hok⟩
      · rw [hgraded] at h
        cases h
    · intro h
      cases hrequired : q.required with
      | true =>
        obtain ⟨v, raw, hok⟩ := hstorable.2 (h.answer hrequired)
        exact ⟨raw, some v, hok, hearned _⟩
      | false => exact ⟨none, none, validateQuestion_none hrequired, hearned _⟩

/-! ### The quiz -/

theorem earnedPoints_eq_gradedPoints_iff {verified : List (Text × Value)} {qs : List Question} :
    earnedPoints floatText toLowercase verified qs = gradedPoints floatText qs ↔
      ∀ q ∈ qs, isGraded floatText q = true → answered floatText toLowercase verified q = true := by
  induction qs with
  | nil => exact iff_of_true rfl (List.forall_mem_nil _)
  | cons q qs ih =>
    have hle : earnedPoints floatText toLowercase verified qs ≤ gradedPoints floatText qs :=
      earnedPoints_le qs
    rw [List.forall_mem_cons, ← ih]
    rw [earnedPoints] at hle ⊢
    rw [gradedPoints] at hle ⊢
    cases hgraded : isGraded floatText q with
    | false => simp [earnedPoints, gradedPoints, hgraded]
    | true =>
      have hpos := pointsOf_pos hgraded
      cases hanswered : answered floatText toLowercase verified q with
      | true => simp [earnedPoints, gradedPoints, hgraded, hanswered]
      | false =>
        simp only [hgraded, hanswered, Bool.and_false, List.filter_cons, Bool.false_eq_true,
          if_false, if_true, List.map_cons, List.sum_cons, imp_false, not_true, false_and,
          iff_false]
        omega

end

end Quiz

section

variable {libs : Libs} {displayF64 floatText : F64 → Text} {toLowercase : Text → Text}
  {schema : FormSchema}

open Validation

/-- The questions can be answered independently of one another. -/
theorem exists_answers {qs : List Question} (hids : (qs.map (·.id)).Nodup)
    {good : Question → Option Value → Prop} (h : ∀ q ∈ qs, ∃ raw, good q raw) :
    ∃ answers : List (Text × Value), ∀ q ∈ qs, good q (answers.lookup q.id) := by
  choose! raw hraw using h
  refine ⟨Value.ofEntries (storedEntries (fun q => .ok (raw q)) qs), fun q hq => ?_⟩
  have hlookup : (Value.ofEntries (storedEntries (fun q => .ok (raw q)) qs)).lookup q.id =
      raw q := by
    refine Option.ext fun v => ?_
    rw [Value.lookup_ofEntries_eq_some_iff (keys_storedEntries_nodup hids), mem_storedEntries]
    constructor
    · rintro ⟨q', hq', hid, hv⟩
      obtain rfl : q' = q := List.inj_on_of_nodup_map hids hq' hq hid
      exact Except.ok.inj hv
    · exact fun hv => ⟨q, hq, rfl, congrArg Except.ok hv⟩
  rw [hlookup]
  exact hraw q hq

/-- Full marks are to be had question by question. -/
theorem full_marks_of_questions (hsane : schema.Sane)
    (hkeys : ∀ q ∈ schema.iterQuestions, KeyAccepted floatText q) :
    (∃ raw out, validate libs displayF64 schema raw = .ok out ∧
      (Quiz.computeQuizScore floatText toLowercase schema out).toInt =
      Quiz.gradedPoints floatText schema.iterQuestions) ↔
      ∀ q ∈ schema.iterQuestions, ∃ raw stored,
        validateQuestion libs displayF64 q raw = .ok stored ∧
          Quiz.Earned floatText toLowercase q stored := by
  have hids := hsane.ids_nodup
  have hscore : ∀ out, (Quiz.computeQuizScore floatText toLowercase schema out).toInt =
      Quiz.gradedPoints floatText schema.iterQuestions ↔
        ∀ q ∈ schema.iterQuestions, Quiz.Earned floatText toLowercase q (out.lookup q.id) := by
    intro out
    rw [(Quiz.exactScore_of_sane hsane hkeys out).exact, Quiz.earnedPoints_eq_gradedPoints_iff]
    refine forall₂_congr fun q _ => imp_congr_right fun _ => ?_
    rw [Quiz.answered]
    cases q.correct <;> cases out.lookup q.id <;> simp
  constructor
  · rintro ⟨raw, out, hok, hfull⟩ q hq
    cases raw with
    | object answers => exact ⟨_, _, stored_answer hids hok hq, (hscore out).1 hfull q hq⟩
    | _ => cases hok
  · intro h
    obtain ⟨answers, hanswers⟩ := exists_answers hids h
    choose! stored hstored hearned using hanswers
    obtain ⟨out, hok⟩ : ∃ out, validate libs displayF64 schema (.object answers) = .ok out :=
      ⟨_, (validate_object_iff libs displayF64).2 ⟨fun q hq => ⟨_, hstored q hq⟩, rfl⟩⟩
    refine ⟨.object answers, out, hok, (hscore out).2 fun q hq => ?_⟩
    have heq := (stored_answer hids hok hq).symm.trans (hstored q hq)
    rw [Except.ok.inj heq]
    exact hearned q hq

/-- A quiz can be answered with full marks exactly when each graded question has a key that a stored
answer reaches, and no required text has to be empty. -/
theorem full_marks_iff (libs : Libs) (displayF64 floatText : F64 → Text) {toLowercase : Text → Text}
    (hlower : ∀ s, s ≠ [] → toLowercase s ≠ [])
    (hdate : (libs.parseDate "2024-01-01".toList).isSome)
    {schema : FormSchema} (hdisplay : ∀ q ∈ schema.iterQuestions, DisplayParses displayF64 q)
    (hsane : sanityCheck schema = .ok ()) (hkeys : validateQuizKeys floatText schema = .ok ()) :
    (∃ raw out, validate libs displayF64 schema raw = .ok out ∧
      (Quiz.computeQuizScore floatText toLowercase schema out).toInt =
      Quiz.gradedPoints floatText schema.iterQuestions) ↔
      ∀ q ∈ schema.iterQuestions, Quiz.Attainable libs floatText toLowercase q := by
  have hschema := sanityCheck_eq_ok_iff.1 hsane
  have hquestions := validateQuizKeys_eq_ok_iff.1 hkeys
  rw [full_marks_of_questions hschema hquestions]
  refine forall₂_congr fun q hq => ?_
  obtain ⟨hq', hanswerable⟩ := List.mem_filter.1 hq
  exact Quiz.attainable_iff hlower hdate (hdisplay q hq) hanswerable (hschema.questionKinds q hq')
    (hquestions q hq)

end

/-- Dates are read when they are that of the first of January. -/
def newYearLibs : Libs where
  floatText _ := []
  regexBuild _ := none
  parseFromRfc3339 _ := none
  parseDate s := if s = "2024-01-01".toList then some ⟨1704067200, 0⟩ else none

/-- One text question of at most `limit` characters, with the key `Paris`. -/
def capitalQuestion (limit : Int64) : Question where
  id := "q".toList
  kind := .shortText
  title := "Capital?".toList
  maxLength := some limit
  correct := some (.str "Paris")
  points := some 1

def capitalQuiz (limit : Int64) : FormSchema where
  title := "Quiz".toList
  pages := [{ id := "p".toList, questions := [capitalQuestion limit] }]

private theorem lowered_ne_nil (s : Text) (h : s ≠ []) : s.map Char.toLower ≠ [] :=
  fun hnil => h (List.map_eq_nil_iff.1 hnil)

def seven : F64 := Float.Model.ofScientific 7 0

/-- One number question with the key `7`, and no other number within its limits. -/
def daysQuestion : Question where
  id := "d".toList
  kind := .number
  title := "How many days has a week?".toList
  min := some seven
  max := some seven
  correct := some (.str " 7.0")
  points := some 1

def weekQuiz : FormSchema where
  title := "Quiz".toList
  pages := [{ id := "p".toList, questions := [capitalQuestion 5, daysQuestion] }]

private theorem mem_weekQuiz {q : Question} (h : q ∈ weekQuiz.iterQuestions) :
    q = capitalQuestion 5 ∨ q = daysQuestion := by
  have hmem : q ∈ [capitalQuestion 5, daysQuestion] := h
  simpa using hmem

private theorem value_seven : seven.value = some 7 := by
  have hunpack : seven.unpack = .finite .positive (7 * 2 ^ 50) (-50) (by decide) := rfl
  rw [F64.value, hunpack]
  norm_num [Float.Model.UnpackedFloat.Sign.apply]

private theorem isWhole_of_inLimits_days {n : F64} (h : Validation.InLimits daysQuestion n)
    (hn : n.isNaN = false) :
    n.isWhole = true := by
  have hlow : seven ≤ n := F64.le_of_not_lt hn (by decide) (h.1 _ rfl)
  have hhigh : n ≤ seven := F64.le_of_not_lt (by decide) hn (h.2 _ rfl)
  cases hvalue : n.value with
  | some p =>
    have hp : p = 7 := le_antisymm ((F64.le_iff_value hvalue value_seven).1 hhigh)
      ((F64.le_iff_value value_seven hvalue).1 hlow)
    exact F64.isWhole_iff.2 ⟨7, by rw [hvalue, hp]; norm_num⟩
  | none =>
    -- what is infinite is on one side of seven only
    change seven.unpack.le n.unpack = true at hlow
    change n.unpack.le seven.unpack = true at hhigh
    rw [F64.value] at hvalue
    cases hunpack : n.unpack with
    | notANumber =>
      rw [Float.Model.isNaN, hunpack] at hn
      cases hn
    | infinity s =>
      rw [hunpack] at hlow hhigh
      cases s
      · exact absurd hlow (by decide)
      · exact absurd hhigh (by decide)
    | zero s | finite s m e hm => simp [hunpack] at hvalue

/-- Of what passes the limits only `NaN`, which `Display` writes so, is not a whole number. -/
private theorem displayParses_days :
    Validation.DisplayParses (fun _ => "NaN".toList) daysQuestion := by
  intro _ n hlimits hwhole
  cases hnan : n.isNaN with
  | true =>
    rw [F64.eq_of_isNaN hnan]
    decide
  | false =>
    rw [isWhole_of_inLimits_days hlimits hnan] at hwhole
    cases hwhole

private theorem nearLimits_days : Quiz.NearLimits daysQuestion seven := by
  refine ⟨seven, seven, ⟨?_, ?_⟩, ⟨fun k hk => ?_, fun _ => rfl⟩, by decide⟩
  · intro b hb
    rw [← Option.some.inj hb]
    decide
  · intro b hb
    rw [← Option.some.inj hb]
    decide
  · obtain rfl : k = 7 := by exact_mod_cast Option.some.inj (hk.symm.trans value_seven)
    exact hk

/-- Five characters suffice, and seven is within the limits. -/
theorem full_marks_iff_week :
    ∃ raw out, Validation.validate newYearLibs (fun _ => "NaN".toList) weekQuiz raw = .ok out ∧
      (Quiz.computeQuizScore (fun _ => []) (·.map Char.toLower) weekQuiz out).toInt =
        Quiz.gradedPoints (fun _ => []) weekQuiz.iterQuestions := by
  refine (full_marks_iff newYearLibs (fun _ => "NaN".toList) (fun _ => []) lowered_ne_nil
    (by decide) (fun q hq => ?_)
    (by rfl) (by rfl)).2 fun q hq => ?_
  · obtain rfl | rfl := mem_weekQuiz hq
    · exact fun h => absurd h (by decide)
    · exact displayParses_days
  · obtain rfl | rfl := mem_weekQuiz hq
    · refine ⟨fun _ _ => by decide, fun _ correct hcorrect => ?_⟩
      obtain rfl : Value.str "Paris" = correct := Option.some.inj hcorrect
      exact ⟨_, List.mem_singleton.2 rfl, "Paris".toList, by decide, by decide, by decide, rfl⟩
    · refine ⟨fun _ h => absurd h (by decide), fun _ correct hcorrect => ?_⟩
      obtain rfl : Value.str " 7.0" = correct := Option.some.inj hcorrect
      exact ⟨_, List.mem_singleton.2 rfl, seven, by decide, nearLimits_days⟩

/-- The key is longer than an answer may be. -/
theorem not_full_marks :
    sanityCheck (capitalQuiz 3) = .ok () ∧ validateQuizKeys (fun _ => []) (capitalQuiz 3) = .ok () ∧
    ¬∃ raw out, Validation.validate newYearLibs (fun _ => []) (capitalQuiz 3) raw = .ok out ∧
      (Quiz.computeQuizScore (fun _ => []) (·.map Char.toLower) (capitalQuiz 3) out).toInt =
        Quiz.gradedPoints (fun _ => []) (capitalQuiz 3).iterQuestions := by
  have hsane : sanityCheck (capitalQuiz 3) = .ok () := by rfl
  have hkeys : validateQuizKeys (fun _ => []) (capitalQuiz 3) = .ok () := by rfl
  have hquestions := validateQuizKeys_eq_ok_iff.1 hkeys
  have hq : capitalQuestion 3 ∈ (capitalQuiz 3).iterQuestions := List.mem_singleton.2 rfl
  refine ⟨hsane, hkeys, fun hfull => ?_⟩
  have hreached := (full_marks_of_questions (sanityCheck_eq_ok_iff.1 hsane) hquestions).1 hfull _ hq
  have hattainable := (Quiz.attainable_iff lowered_ne_nil (by decide)
    (fun h => absurd h (by decide)) (by decide) rfl
    (hquestions _ hq)).1 hreached
  obtain ⟨want, hwant, s, -, -, hlength, hlower⟩ := hattainable.key (by decide) _ rfl
  obtain rfl : want = "Paris".toList := List.mem_singleton.1 hwant
  have hlengths := congrArg List.length hlower
  rw [List.length_map, List.length_map] at hlengths
  rw [hlengths] at hlength
  exact absurd hlength (by decide)

end FormRespondentRole
