import FormRespondentRole.CheckboxSets
import FormRespondentRole.SchemaChecks

/-!
# The score of a quiz

`computeQuizScore` walks the questions and adds up the points of those whose answer matches the key.
On a schema that passed the checks at save time nothing saturates, so the total is the sum of these
points.  The lower case of a text is a parameter.
-/

namespace FormRespondentRole

open Foundations

/-- `i32::saturating_add` -/
def saturatingAdd (a b : Int32) : Int32 := Int32.ofIntClamp (a.toInt + b.toInt)

namespace Quiz

/-- The number of an answer. -/
def asNumber : Value → Option F64
  | .number n => some n.asF64
  | .string s => F64.parse (Text.trim s)
  | _ => none

/-- Numbers that differ by less count as equal. -/
def tolerance : F64 := Float.Model.ofScientific 1 (-9)

section

variable (floatText : F64 → Text) (toLowercase : Text → Text)

/-- Whether the chosen options are the marked ones. -/
def matchesOptions (correct actual : Value) : Bool :=
  let want := acceptedAnswers floatText correct
  let got := (actual.asArray.map strings).getD []
  !want.isEmpty && want.all (· ∈ got) && got.all (· ∈ want)

def matchesNumber (correct actual : Value) : Bool :=
  match asNumber actual with
  | some got =>
    ((acceptedAnswers floatText correct).filterMap fun s => F64.parse (Text.trim s)).any fun want =>
      decide ((want - got).abs < tolerance)
  | none => false

/-- A text that is one of the accepted answers, once both are trimmed and `fold` is applied to
them. -/
def matchesText (fold : Text → Text) (correct actual : Value) : Bool :=
  let got := fold (Text.trim (actual.asStr.getD []))
  decide (got ≠ []) && (acceptedAnswers floatText correct).any fun want =>
    fold (Text.trim want) = got

/-- Whether an answer matches the key of a question of this kind. -/
def keyMatches (kind : QuestionKind) (correct actual : Value) : Bool :=
  match kind with
  | .multiChoice => matchesOptions floatText correct actual
  | .number | .scale => matchesNumber floatText correct actual
  | .shortText | .longText | .email => matchesText floatText toLowercase correct actual
  -- single_choice, dropdown and date: the trimmed texts themselves
  | _ => matchesText floatText id correct actual

/-- The total after one more question. -/
def addQuestion (verified : List (Text × Value)) (total : Int32) (q : Question) : Int32 :=
  match q.points with
  | none => total
  | some points =>
    if points ≤ 0 then total
    else
      match q.correct, verified.lookup q.id with
      | some correct, some actual =>
        if keyMatches floatText toLowercase q.kind correct actual then saturatingAdd total points
          else total
      | _, _ => total

/-- The answer is what the key of a question of this kind asks for: for checkboxes the set of the
marked options, for a number one that differs by less than the tolerance, for a text the same
trimmed text in lower case, and otherwise the same trimmed text. -/
def AnswersKey (kind : QuestionKind) (correct actual : Value) : Prop :=
  match kind with
  | .multiChoice => acceptedAnswers floatText correct ≠ [] ∧
      ∃ a, actual = .array a ∧ ∀ s, s ∈ strings a ↔ s ∈ acceptedAnswers floatText correct
  | .number | .scale => ∃ x, asNumber actual = some x ∧
      ∃ want ∈ acceptedAnswers floatText correct, ∃ w, F64.parse (Text.trim want) = some w ∧
        (w - x).abs < tolerance
  | .shortText | .longText | .email => toLowercase (Text.trim (actual.asStr.getD [])) ≠ [] ∧
      ∃ want ∈ acceptedAnswers floatText correct,
        toLowercase (Text.trim want) = toLowercase (Text.trim (actual.asStr.getD []))
  | _ => ∃ s, actual = .string s ∧ Text.trim s ≠ [] ∧
      ∃ want ∈ acceptedAnswers floatText correct, Text.trim want = Text.trim s

def computeQuizScore (schema : FormSchema) (verified : List (Text × Value)) : Int32 :=
  schema.iterQuestions.foldl (addQuestion floatText toLowercase verified) 0

/-! ### The sum -/

/-- Whether the question has an answer that matches its key. -/
def answered (verified : List (Text × Value)) (q : Question) : Bool :=
  (q.correct.bind fun correct => (verified.lookup q.id).map
    (keyMatches floatText toLowercase q.kind correct)).getD false

def pointsOf (q : Question) : Int := (q.points.getD 0).toInt

/-- The points of the graded questions among `qs`. -/
def gradedPoints (qs : List Question) : Int := ((qs.filter (isGraded floatText)).map pointsOf).sum

/-- The points of the graded questions among `qs` whose answer matches the key. -/
def earnedPoints (verified : List (Text × Value)) (qs : List Question) : Int :=
  ((qs.filter fun q =>
    isGraded floatText q && answered floatText toLowercase verified q).map pointsOf).sum

end

section

variable {floatText : F64 → Text} {toLowercase : Text → Text} {verified : List (Text × Value)}

/-! ### What a match is -/

theorem matchesOptions_array (correct : Value) (a : List Value) :
    matchesOptions floatText correct (.array a) =
      (!(acceptedAnswers floatText correct).isEmpty && (acceptedAnswers floatText correct).all
        (· ∈ strings a) &&
        (strings a).all (· ∈ acceptedAnswers floatText correct)) := rfl

private theorem matchesOptions_iff {correct actual : Value} :
    matchesOptions floatText correct actual = true ↔
    acceptedAnswers floatText correct ≠ [] ∧
      ∃ a, actual = .array a ∧ ∀ s, s ∈ strings a ↔ s ∈ acceptedAnswers floatText correct := by
  have hlist : ∀ a, matchesOptions floatText correct (.array a) = true ↔
    acceptedAnswers floatText correct ≠ [] ∧
      ∀ s, s ∈ strings a ↔ s ∈ acceptedAnswers floatText correct := by
    intro a
    rw [matchesOptions_array]
    simp only [Bool.and_eq_true, Bool.not_eq_true', List.isEmpty_eq_false_iff, List.all_eq_true,
      decide_eq_true_eq,
      and_assoc]
    exact and_congr_right fun _ =>
      ⟨fun h s => ⟨h.2 s, h.1 s⟩, fun h => ⟨fun s => (h s).2, fun s => (h s).1⟩⟩
  have hother : ∀ v : Value, v.asArray = none → ¬matchesOptions floatText correct v = true := by
    intro v hv h
    rw [matchesOptions, hv] at h
    cases hwant : acceptedAnswers floatText correct <;> simp [hwant] at h
  cases actual with
  | array a => simp [hlist]
  | _ => exact iff_of_false (hother _ rfl) fun h => by cases h.2.choose_spec.1

theorem matchesNumber_iff {correct actual : Value} : matchesNumber floatText correct actual = true ↔
    ∃ x, asNumber actual = some x ∧
      ∃ want ∈ acceptedAnswers floatText correct, ∃ w, F64.parse (Text.trim want) = some w ∧
        (w - x).abs < tolerance := by
  rw [matchesNumber]
  cases asNumber actual with
  | none => simp
  | some x =>
    simp only [List.any_eq_true, List.mem_filterMap, decide_eq_true_eq, Option.some.injEq,
      exists_eq_left']
    constructor
    · rintro ⟨w, ⟨want, hwant, hw⟩, hclose⟩
      exact ⟨want, hwant, w, hw, hclose⟩
    · rintro ⟨want, hwant, w, hw, hclose⟩
      exact ⟨w, ⟨want, hwant, hw⟩, hclose⟩

private theorem matchesText_iff_asStr {fold : Text → Text} {correct actual : Value} :
    matchesText floatText fold correct actual = true ↔
      fold (Text.trim (actual.asStr.getD [])) ≠ [] ∧
      ∃ want ∈ acceptedAnswers floatText correct,
        fold (Text.trim want) = fold (Text.trim (actual.asStr.getD [])) := by
  rw [matchesText, Bool.and_eq_true, decide_eq_true_iff, List.any_eq_true]
  simp only [decide_eq_true_eq]

/-- The trimmed text of an answer is compared with the trimmed keys. -/
theorem matchesText_iff {fold : Text → Text} {correct : Value} {s : Text} :
    matchesText floatText fold correct (.string s) = true ↔ fold (Text.trim s) ≠ [] ∧
      ∃ want ∈ acceptedAnswers floatText correct, fold (Text.trim want) = fold (Text.trim s) :=
  matchesText_iff_asStr

private theorem matchesText_id_iff {correct actual : Value} :
    matchesText floatText id correct actual = true ↔
    ∃ s, actual = .string s ∧ Text.trim s ≠ [] ∧
      ∃ want ∈ acceptedAnswers floatText correct, Text.trim want = Text.trim s := by
  have hnil : ¬id (Text.trim []) ≠ [] := by decide
  cases actual with
  | string s =>
    rw [matchesText_iff]
    simp
  | _ =>
    exact iff_of_false (fun h => hnil (matchesText_iff_asStr.1 h).1) fun h =>
      by cases h.choose_spec.1

/-- An answer matches the key when it is what the key asks for. -/
theorem keyMatches_iff (kind : QuestionKind) {correct actual : Value} :
    keyMatches floatText toLowercase kind correct actual = true ↔
      AnswersKey floatText toLowercase kind correct actual := by
  cases kind with
  | multiChoice => exact matchesOptions_iff
  | number | scale => exact matchesNumber_iff
  | shortText | longText | email => exact matchesText_iff_asStr
  | singleChoice | dropdown | date | agreement | info | image | video => exact matchesText_id_iff

private theorem acceptedAnswers_ne_nil_of_matches {kind : QuestionKind} {correct actual : Value}
    (h : keyMatches floatText toLowercase kind correct actual = true) :
    acceptedAnswers floatText correct ≠ [] := by
  intro hnil
  have hoptions : matchesOptions floatText correct actual = false := by
    rw [matchesOptions, hnil]; rfl
  have hnumber : matchesNumber floatText correct actual = false := by
    rw [matchesNumber, hnil]
    cases asNumber actual <;> rfl
  have htext : ∀ fold, matchesText floatText fold correct actual = false := by
    intro fold
    rw [matchesText, hnil, List.any_nil, Bool.and_false]
  cases kind <;> simp [keyMatches, hoptions, hnumber, htext] at h

/-- A question adds its points when it is graded and answered as its key says, and nothing
otherwise. -/
theorem addQuestion_eq (total : Int32) (q : Question) :
    addQuestion floatText toLowercase verified total q =
      if isGraded floatText q && answered floatText toLowercase verified q then
        saturatingAdd total (q.points.getD 0)
      else total := by
  rw [addQuestion]
  cases hpoints : q.points with
  | none => simp [isGraded, hpoints]
  | some points =>
    by_cases hpos : points ≤ 0
    · have hnot : ¬0 < points := Int32.not_lt.2 hpos
      simp [isGraded, hpoints, hpos, hnot]
    · have hlt : 0 < points := Int32.not_le.1 hpos
      cases hcorrect : q.correct with
      | none => simp [answered, hcorrect]
      | some correct =>
        cases hactual : verified.lookup q.id with
        | none => simp [answered, hcorrect, hactual]
        | some actual =>
          cases hmatch : keyMatches floatText toLowercase q.kind correct actual with
          | false => simp [answered, hcorrect, hactual, hmatch]
          | true =>
            have hkey := acceptedAnswers_ne_nil_of_matches hmatch
            simp [isGraded, answered, hpoints, hpos, hlt, hcorrect, hactual, hmatch, hkey]

theorem pointsOf_pos {q : Question} (h : isGraded floatText q = true) : 0 < pointsOf q := by
  rw [isGraded, Bool.and_eq_true] at h
  obtain ⟨points, hpoints, hpos⟩ := (Option.any_eq_true _ _).1 h.1
  rw [pointsOf, hpoints]
  exact Int32.lt_iff_toInt_lt.1 (of_decide_eq_true hpos)

private theorem saturatingAdd_toInt {a b : Int32} (hlow : -2 ^ 31 ≤ a.toInt + b.toInt)
    (hhigh : a.toInt + b.toInt < 2 ^ 31) :
    (saturatingAdd a b).toInt = a.toInt + b.toInt := by
  have hmin : Int32.minValue.toInt = -2 ^ 31 := by decide
  have hmax : Int32.maxValue.toInt = 2 ^ 31 - 1 := by decide
  rw [saturatingAdd, Int32.toInt_ofIntClamp (by omega) (by omega)]

private theorem gradedPoints_nonneg (qs : List Question) : 0 ≤ gradedPoints floatText qs := by
  refine List.sum_nonneg fun n hn => ?_
  obtain ⟨q, hq, rfl⟩ := List.mem_map.1 hn
  exact (pointsOf_pos (List.mem_filter.1 hq).2).le

/-- The walk adds up the points that are earned as long as all the points to be had fit. -/
theorem foldl_addQuestion {qs : List Question} {total : Int32} (htotal : 0 ≤ total.toInt)
    (hfits : total.toInt + gradedPoints floatText qs < 2 ^ 31) :
    (qs.foldl (addQuestion floatText toLowercase verified) total).toInt =
      total.toInt + earnedPoints floatText toLowercase verified qs := by
  induction qs generalizing total with
  | nil => simp [earnedPoints]
  | cons q qs ih =>
    have hrest : 0 ≤ gradedPoints floatText qs := gradedPoints_nonneg qs
    rw [List.foldl_cons, addQuestion_eq]
    cases hgraded : isGraded floatText q with
    | false =>
      have hpoints : gradedPoints floatText (q :: qs) = gradedPoints floatText qs := by
        simp [gradedPoints, hgraded]
      have hearned : earnedPoints floatText toLowercase verified (q :: qs) =
          earnedPoints floatText toLowercase verified qs := by simp [earnedPoints, hgraded]
      rw [hpoints] at hfits
      rw [Bool.false_and, if_neg Bool.false_ne_true, ih htotal hfits, hearned]
    | true =>
      have hpos : 0 < pointsOf q := pointsOf_pos hgraded
      have hpoints : gradedPoints floatText (q :: qs) = pointsOf q + gradedPoints floatText qs := by
        simp [gradedPoints, hgraded]
      rw [hpoints] at hfits
      cases hanswered : answered floatText toLowercase verified q with
      | false =>
        have hearned : earnedPoints floatText toLowercase verified (q :: qs) =
            earnedPoints floatText toLowercase verified qs := by simp [earnedPoints, hanswered]
        rw [Bool.and_false, if_neg Bool.false_ne_true, ih htotal (by omega), hearned]
      | true =>
        have hearned : earnedPoints floatText toLowercase verified (q :: qs) =
            pointsOf q + earnedPoints floatText toLowercase verified qs := by
          simp [earnedPoints, hgraded, hanswered]
        have hsum : (saturatingAdd total (q.points.getD 0)).toInt = total.toInt + pointsOf q :=
          saturatingAdd_toInt (by change _ ≤ _ + pointsOf q; omega)
            (by change _ + pointsOf q < _; omega)
        rw [Bool.and_true, if_pos rfl, ih (by omega) (by omega), hearned, hsum, add_assoc]

private theorem foldl_addQuestion_zero {qs : List Question}
    (hfits : gradedPoints floatText qs < 2 ^ 31) :
    (qs.foldl (addQuestion floatText toLowercase verified) 0).toInt =
      earnedPoints floatText toLowercase verified qs := by
  rw [foldl_addQuestion (by decide) (by rw [Int32.toInt_zero, zero_add]; exact hfits),
    Int32.toInt_zero, zero_add]

/-! ### Bounds -/

theorem gradedPoints_append (qs rest : List Question) :
    gradedPoints floatText (qs ++ rest) =
      gradedPoints floatText qs + gradedPoints floatText rest := by
  rw [gradedPoints, gradedPoints, gradedPoints, List.filter_append, List.map_append,
    List.sum_append]

private theorem earnedPoints_nonneg (qs : List Question) :
    0 ≤ earnedPoints floatText toLowercase verified qs := by
  refine List.sum_nonneg fun n hn => ?_
  obtain ⟨q, hq, rfl⟩ := List.mem_map.1 hn
  exact (pointsOf_pos (Bool.and_eq_true_iff.1 (List.mem_filter.1 hq).2).1).le

theorem earnedPoints_le (qs : List Question) :
    earnedPoints floatText toLowercase verified qs ≤ gradedPoints floatText qs := by
  induction qs with
  | nil => exact le_rfl
  | cons q qs ih =>
    rw [earnedPoints] at ih ⊢
    rw [gradedPoints] at ih ⊢
    cases hgraded : isGraded floatText q with
    | false => simpa [hgraded] using ih
    | true =>
      have hpos := pointsOf_pos hgraded
      cases hanswered : answered floatText toLowercase verified q with
      | false =>
        simp only [hgraded, hanswered, Bool.and_false, List.filter_cons, Bool.false_eq_true,
          if_false, if_true, List.map_cons,
          List.sum_cons]
        omega
      | true =>
        simp only [hgraded, hanswered, Bool.and_true, List.filter_cons, if_true, List.map_cons,
          List.sum_cons]
        omega

/-- All the points of an accepted quiz. -/
theorem gradedPoints_le {schema : FormSchema} (hsane : schema.Sane)
    (hkeys : ∀ q ∈ schema.iterQuestions, KeyAccepted floatText q) :
    gradedPoints floatText schema.iterQuestions ≤ 50000000 := by
  have hpoints : ∀ n ∈ (schema.iterQuestions.filter (isGraded floatText)).map pointsOf,
      n ≤ 1000000 := by
    intro n hn
    obtain ⟨q, hq, rfl⟩ := List.mem_map.1 hn
    rw [pointsOf]
    cases hp : q.points with
    | none => decide
    | some points =>
      exact Int32.le_iff_toInt_le.1 ((hkeys q (List.mem_filter.1 hq).1).points points hp).2
  have hlength : ((schema.iterQuestions.filter (isGraded floatText)).map pointsOf).length ≤ 50 :=
    calc ((schema.iterQuestions.filter (isGraded floatText)).map pointsOf).length
        = (schema.iterQuestions.filter (isGraded floatText)).length := List.length_map _
      _ ≤ schema.iterQuestions.length := List.length_filter_le _ _
      _ ≤ schema.questions.length := List.length_filter_le _ _
      _ ≤ 50 := hsane.few
  have hsum := List.sum_le_card_nsmul _ _ hpoints
  rw [nsmul_eq_mul] at hsum
  rw [gradedPoints]
  have hcast : (((schema.iterQuestions.filter (isGraded floatText)).map pointsOf).length : Int) ≤
    50 := by exact_mod_cast hlength
  omega

/-! ### Order -/

/-- The same answer, or a list with the same items in another order. -/
def Reordered (v w : Option Value) : Prop :=
  v = w ∨ ∃ a b, v = some (.array a) ∧ w = some (.array b) ∧ a.Perm b

private theorem keyMatches_perm {kind : QuestionKind} {correct : Value} {a b : List Value}
    (h : a.Perm b) :
    keyMatches floatText toLowercase kind correct (.array a) =
      keyMatches floatText toLowercase kind correct (.array b) := by
  have hmem : ∀ s, s ∈ strings a ↔ s ∈ strings b := fun s => (h.filterMap _).mem_iff
  have hoptions : matchesOptions floatText correct (.array a) =
      matchesOptions floatText correct (.array b) := by
    rw [matchesOptions_array, matchesOptions_array, Bool.eq_iff_iff]
    simp [hmem]
  cases kind with
  | multiChoice => exact hoptions
  | _ => rfl

private theorem answered_reordered {verified' : List (Text × Value)}
    (h : ∀ id, Reordered (verified.lookup id) (verified'.lookup id)) (q : Question) :
    answered floatText toLowercase verified' q =
      answered floatText toLowercase verified q := by
  rw [answered, answered]
  rcases h q.id with heq | ⟨a, b, ha, hb, hperm⟩
  · rw [heq]
  · rw [ha, hb]
    simp only [Option.map_some, keyMatches_perm hperm]

private theorem earnedPoints_perm {qs qs' : List Question} (h : qs'.Perm qs) :
    earnedPoints floatText toLowercase verified qs' =
      earnedPoints floatText toLowercase verified qs :=
  ((h.filter _).map _).sum_eq

/-! ### The score -/

/-- The score of these answers is the sum of the points that are earned. -/
structure ExactScore (floatText : F64 → Text) (toLowercase : Text → Text) (schema : FormSchema)
    (verified : List (Text × Value)) : Prop where
  matching : ∀ kind correct actual, keyMatches floatText toLowercase kind correct actual = true ↔
    AnswersKey floatText toLowercase kind correct actual
  /-- No question is counted twice. -/
  distinct : (schema.iterQuestions.map (·.id)).Nodup
  exact : (computeQuizScore floatText toLowercase schema verified).toInt =
    earnedPoints floatText toLowercase verified schema.iterQuestions
  /-- Neither is any total on the way rounded. -/
  unsaturated : ∀ qs, qs <+: schema.iterQuestions →
    (qs.foldl (addQuestion floatText toLowercase verified) 0).toInt =
      earnedPoints floatText toLowercase verified qs
  nonneg : 0 ≤ (computeQuizScore floatText toLowercase schema verified).toInt
  atMost : (computeQuizScore floatText toLowercase schema verified).toInt ≤
    gradedPoints floatText schema.iterQuestions
  bounded : gradedPoints floatText schema.iterQuestions ≤ 50000000
  anyOrder : ∀ schema' : FormSchema, schema'.questions.Perm schema.questions →
    computeQuizScore floatText toLowercase schema' verified =
      computeQuizScore floatText toLowercase schema verified
  anyOptionOrder : ∀ verified' : List (Text × Value),
    (∀ id, Reordered (verified.lookup id) (verified'.lookup id)) →
    computeQuizScore floatText toLowercase schema verified' =
      computeQuizScore floatText toLowercase schema verified

theorem exactScore_of_sane {schema : FormSchema} (hsane : schema.Sane)
    (hkeys : ∀ q ∈ schema.iterQuestions, KeyAccepted floatText q) (verified : List (Text × Value)) :
    ExactScore floatText toLowercase schema verified := by
  have hbound := gradedPoints_le hsane hkeys
  have hexact : (computeQuizScore floatText toLowercase schema verified).toInt =
      earnedPoints floatText toLowercase verified schema.iterQuestions :=
        foldl_addQuestion_zero (by omega)
  refine
    { matching := fun kind _ _ => keyMatches_iff kind
      distinct := hsane.ids_nodup
      exact := hexact
      unsaturated := ?_
      nonneg := hexact ▸ earnedPoints_nonneg _
      atMost := hexact ▸ earnedPoints_le _
      bounded := hbound
      anyOrder := ?_
      anyOptionOrder := ?_ }
  · rintro qs ⟨rest, hrest⟩
    have hsplit : gradedPoints floatText (qs ++ rest) = _ := gradedPoints_append qs rest
    have hpos : 0 ≤ gradedPoints floatText rest := gradedPoints_nonneg rest
    rw [hrest] at hsplit
    exact foldl_addQuestion_zero (by omega)
  · intro schema' hperm
    have hquestions : schema'.iterQuestions.Perm schema.iterQuestions := hperm.filter _
    have hpoints : gradedPoints floatText schema'.iterQuestions =
        gradedPoints floatText schema.iterQuestions :=
      ((hquestions.filter _).map _).sum_eq
    refine Int32.toInt_inj.1 ?_
    rw [hexact, computeQuizScore, foldl_addQuestion_zero (by omega)]
    exact earnedPoints_perm hquestions
  · intro verified' h
    have hadd : addQuestion floatText toLowercase verified' =
        addQuestion floatText toLowercase verified := by
      funext total q
      rw [addQuestion_eq, addQuestion_eq, answered_reordered h]
    rw [computeQuizScore, hadd, computeQuizScore]

end

end Quiz

/-- The score of an accepted quiz is the exact sum of the points of the graded questions whose
answer matches the key: within bounds, and in whatever order the questions and the ticked options
come. -/
theorem quiz_score_exact {floatText : F64 → Text} (toLowercase : Text → Text) {schema : FormSchema}
    (hsane : sanityCheck schema = .ok ()) (hkeys : validateQuizKeys floatText schema = .ok ())
    (verified : List (Text × Value)) : Quiz.ExactScore floatText toLowercase schema verified :=
  Quiz.exactScore_of_sane (sanityCheck_eq_ok_iff.1 hsane)
    (validateQuizKeys_eq_ok_iff.1 hkeys) verified

/-- Two questions, of three points and of four. -/
def sampleQuiz : FormSchema where
  title := "Quiz".toList
  pages :=
    [{ id := "p1".toList
       questions :=
         [{ id := "capital".toList, kind := .shortText, title := "Capital?".toList,
            correct := some (.str "Paris")
            points := some 3 },
          { id := "colours".toList, kind := .multiChoice, title := "Colours?".toList
            options := some [⟨"r".toList, "Red".toList⟩, ⟨"g".toList, "Green".toList⟩]
            correct := some (.array [.str "r", .str "g"]), points := some 4 }] }]

/-- Both are answered as their keys say. -/
theorem quiz_score_exact_sample :
    (Quiz.computeQuizScore (fun _ => []) (·.map Char.toLower) sampleQuiz
      [("capital".toList, .str "paris"), ("colours".toList, .array [.str "g", .str "r"])]).toInt =
        7 := by
  rw [(quiz_score_exact (·.map Char.toLower) (by rfl) (by rfl) _).exact]
  decide

end FormRespondentRole
