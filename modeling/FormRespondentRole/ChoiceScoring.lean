import FormRespondentRole.AcceptedAnswers
import FormRespondentRole.QuizScore

/-!
# Scoring of single choices

Option ids are told apart as they are when a schema is checked, and with their ends trimmed when a
quiz is scored.  An option that is not marked is scored as correct when its id is that of a marked
one up to white space.
-/

namespace FormRespondentRole

open Foundations

namespace Quiz

section

variable {floatText : F64 → Text} {toLowercase : Text → Text} {verified : List (Text × Value)}
  {q : Question}

/-- The answers but the one to this question. -/
def withoutAnswer (q : Question) (verified : List (Text × Value)) : List (Text × Value) :=
  verified.filter fun e => decide (e.1 ≠ q.id)

private theorem lookup_withoutAnswer (k : Text) :
    (withoutAnswer q verified).lookup k = if k = q.id then none else verified.lookup k := by
  induction verified with
  | nil => simp [withoutAnswer]
  | cons e verified ih =>
    obtain ⟨k', v⟩ := e
    rw [withoutAnswer] at ih ⊢
    by_cases hk' : k' = q.id
    · rw [List.filter_cons_of_neg (by simpa using hk'), ih, List.lookup_cons]
      by_cases hk : k = q.id
      · rw [if_pos hk, if_pos hk]
      · have hne : (k == k') = false := beq_false_of_ne fun heq => hk (heq.trans hk')
        rw [if_neg hk, if_neg hk, hne]
    · rw [List.filter_cons_of_pos (by simpa using hk'), List.lookup_cons, List.lookup_cons, ih]
      by_cases heq : k = k'
      · subst heq
        simp [hk']
      · simp [beq_false_of_ne heq]

/-- The answer to the question adds its points to the score. -/
def Awarded (floatText : F64 → Text) (toLowercase : Text → Text) (schema : FormSchema)
    (verified : List (Text × Value)) (q : Question) : Prop :=
  (computeQuizScore floatText toLowercase schema verified).toInt =
    (computeQuizScore floatText toLowercase schema (withoutAnswer q verified)).toInt + pointsOf q

private theorem earnedPoints_append (qs rest : List Question) :
    earnedPoints floatText toLowercase verified (qs ++ rest) =
    earnedPoints floatText toLowercase verified qs + earnedPoints floatText toLowercase verified
      rest := by
  rw [earnedPoints, earnedPoints, earnedPoints, List.filter_append, List.map_append,
    List.sum_append]

private theorem earnedPoints_congr {verified' : List (Text × Value)} {qs : List Question}
    (h : ∀ q ∈ qs, verified'.lookup q.id = verified.lookup q.id) :
    earnedPoints floatText toLowercase verified' qs =
      earnedPoints floatText toLowercase verified qs := by
  rw [earnedPoints, earnedPoints]
  congr 2
  refine List.filter_congr fun q hq => ?_
  rw [answered, answered, h q hq]

/-- The points of a question are earned or not by its answer alone. -/
theorem earnedPoints_withoutAnswer {qs : List Question} (hids : (qs.map (·.id)).Nodup) (hq : q ∈ qs)
    (hgraded : isGraded floatText q = true) :
    earnedPoints floatText toLowercase verified qs = earnedPoints floatText toLowercase
    (withoutAnswer q verified) qs +
      if answered floatText toLowercase verified q then pointsOf q else 0 := by
  obtain ⟨before, after, rfl⟩ := List.append_of_mem hq
  rw [List.map_append, List.map_cons] at hids
  have hbefore : ∀ q' ∈ before, (withoutAnswer q verified).lookup q'.id =
      verified.lookup q'.id := by
    intro q' hq'
    rw [lookup_withoutAnswer, if_neg]
    intro heq
    exact (List.nodup_append.1 hids).2.2 _ (List.mem_map_of_mem hq') _ List.mem_cons_self heq
  have hafter : ∀ q' ∈ after, (withoutAnswer q verified).lookup q'.id = verified.lookup q'.id := by
    intro q' hq'
    rw [lookup_withoutAnswer, if_neg]
    intro heq
    exact (List.nodup_cons.1 (List.nodup_append.1 hids).2.1).1 (List.mem_map.2 ⟨q', hq', heq⟩)
  have hnone : answered floatText toLowercase (withoutAnswer q verified) q = false := by
    rw [answered, lookup_withoutAnswer, if_pos rfl]
    cases q.correct <;> rfl
  have hcons :
    ∀ answers : List (Text × Value), earnedPoints floatText toLowercase answers (q :: after) =
      (if answered floatText toLowercase answers q then pointsOf q else 0) +
        earnedPoints floatText toLowercase answers after := by
    intro answers
    cases hanswered : answered floatText toLowercase answers q <;> simp [earnedPoints, hgraded,
      hanswered]
  rw [earnedPoints_append, earnedPoints_append, hcons, hcons, hnone, earnedPoints_congr hbefore,
    earnedPoints_congr hafter]
  simp only [Bool.false_eq_true, if_false]
  omega

private theorem awarded_iff {schema : FormSchema} (hsane : schema.Sane)
    (hkeys : ∀ q ∈ schema.iterQuestions, KeyAccepted floatText q) (hq : q ∈ schema.iterQuestions)
    (hgraded : isGraded floatText q = true) :
    Awarded floatText toLowercase schema verified q ↔
      answered floatText toLowercase verified q = true := by
  have hexact : ∀ answers, (computeQuizScore floatText toLowercase schema answers).toInt =
      earnedPoints floatText toLowercase answers schema.iterQuestions := fun answers =>
    (exactScore_of_sane hsane hkeys answers).exact
  have hpos := pointsOf_pos hgraded
  rw [Awarded, hexact, hexact, earnedPoints_withoutAnswer hsane.ids_nodup hq hgraded]
  cases answered floatText toLowercase verified q with
  | true => simp
  | false => simp [hpos.ne']

def singleChoiceKinds : List QuestionKind := [.singleChoice, .dropdown]

private theorem answered_single_iff (hkind : q.kind ∈ singleChoiceKinds) {correct : Value}
    {s : Text} (hcorrect : q.correct = some correct)
    (hs : verified.lookup q.id = some (.string s)) :
    answered floatText toLowercase verified q = true ↔
      Text.trim s ≠ [] ∧ ∃ want ∈ acceptedAnswers floatText correct,
        Text.trim want = Text.trim s := by
  have hmatch : keyMatches floatText toLowercase q.kind correct (.string s) =
      matchesText floatText id correct (.string s) := by
    simp only [singleChoiceKinds, List.mem_cons, List.not_mem_nil, or_false] at hkind
    rcases hkind with hkind | hkind <;> rw [hkind] <;> rfl
  rw [answered, hcorrect, hs]
  simp only [Option.bind_some, Option.map_some, Option.getD_some, hmatch]
  exact matchesText_iff

end

end Quiz

namespace Validation

/-- A single choice accepts the ids of its options as they are. -/
theorem validateQuestion_single {libs : Libs} {displayF64 : F64 → Text} {q : Question}
    (hkind : q.kind ∈ Quiz.singleChoiceKinds) {raw : Option Value} {v : Value} :
    validateQuestion libs displayF64 q raw = .ok (some v) ↔
      ∃ s, raw = some (.string s) ∧ v = .string s ∧ Text.trim s ≠ [] ∧ OptionId q s := by
  have hcheck : validateQuestion libs displayF64 q raw = validateSingleChoice q raw := by
    simp only [Quiz.singleChoiceKinds, List.mem_cons, List.not_mem_nil, or_false] at hkind
    rcases hkind with hkind | hkind <;> rw [validateQuestion, hkind]
  rw [hcheck]
  constructor
  · intro h
    obtain ⟨hnone, -⟩ | ⟨s, rfl, hs, hoption⟩ := validateSingleChoice_ok h
    · cases hnone
    · refine ⟨s, rfl, Option.some.inj hs, fun hblank => ?_, hoption⟩
      have hisBlank : isBlank (some (.string s)) = true := by simpa [isBlank] using hblank
      rw [validateSingleChoice, if_pos hisBlank, require] at h
      split at h <;> cases h
  · rintro ⟨s, rfl, rfl, hblank, options, hoptions, hoption⟩
    have hnot : isBlank (some (.string s)) = false := by simpa [isBlank] using hblank
    rw [validateSingleChoice, hnot, hoptions]
    simp [Value.asStr, hasOption_iff.2 hoption]

end Validation

/-- The question is scored by the options that are marked: whatever it accepts as an answer earns
its points when it is the id of one of them, and only then. -/
def ScoredByOption (libs : Libs) (displayF64 floatText : F64 → Text) (toLowercase : Text → Text)
    (schema : FormSchema) (q : Question) (correct : Value) : Prop :=
  ∀ raw s, Validation.validateQuestion libs displayF64 q raw = .ok (some (.string s)) →
    ∀ verified : List (Text × Value), verified.lookup q.id = some (.string s) →
      (Quiz.Awarded floatText toLowercase schema verified q ↔ s ∈ acceptedAnswers floatText correct)

/-- The points go by the marked options exactly when the ids of the others differ from theirs by
more than white space at the ends. -/
theorem single_choice_scoring_iff (libs : Libs) (displayF64 : F64 → Text) {floatText : F64 → Text}
    (toLowercase : Text → Text) {schema : FormSchema} (hsane : sanityCheck schema = .ok ())
    (hkeys : validateQuizKeys floatText schema = .ok ()) {q : Question}
    (hq : q ∈ schema.iterQuestions) (hkind : q.kind ∈ Quiz.singleChoiceKinds)
    (hgraded : isGraded floatText q = true) {correct : Value}
    (hcorrect : q.correct = some correct) :
    ScoredByOption libs displayF64 floatText toLowercase schema q correct ↔
      ∀ o ∈ q.options.getD [], ∀ m ∈ acceptedAnswers floatText correct,
        Text.trim o.id = Text.trim m →
        o.id ∈ acceptedAnswers floatText correct := by
  have hschema := sanityCheck_eq_ok_iff.1 hsane
  have hawarded : ∀ {verified : List (Text × Value)} {s}, verified.lookup q.id = some (.string s) →
      (Quiz.Awarded floatText toLowercase schema verified q ↔
        Text.trim s ≠ [] ∧ ∃ want ∈ acceptedAnswers floatText correct,
            Text.trim want = Text.trim s) := fun hs =>
    (Quiz.awarded_iff hschema (validateQuizKeys_eq_ok_iff.1 hkeys) hq hgraded).trans
      (Quiz.answered_single_iff hkind hcorrect hs)
  constructor
  · intro h o ho m hm htrim
    have hchoice : checkQuestionKind q = checkChoice q := by
      simp only [Quiz.singleChoiceKinds, List.mem_cons, List.not_mem_nil, or_false] at hkind
      rcases hkind with hkind | hkind <;> rw [checkQuestionKind, hkind]
    have hchecked := hschema.questionKinds q (List.mem_filter.1 hq).1
    rw [hchoice, checkChoice_eq_nil_iff] at hchecked
    have hblank : Text.trim o.id ≠ [] := hchecked.2.2.1.nonblank _ (List.mem_map_of_mem ho)
    -- the option itself is an answer that is accepted
    have hanswer : Validation.validateQuestion libs displayF64 q (some (.string o.id)) =
        .ok (some (.string o.id)) :=
      (Validation.validateQuestion_single hkind).2 ⟨o.id, rfl, rfl, hblank,
        Validation.optionId_of_mem ho⟩
    have hlookup : List.lookup q.id [(q.id, Value.string o.id)] = some (.string o.id) := by simp
    exact (h _ _ hanswer _ hlookup).1 ((hawarded hlookup).2 ⟨hblank, m, hm, htrim.symm⟩)
  · intro h raw s hraw verified hs
    obtain ⟨t, -, heq, hblank, options, hoptions, o, ho, rfl⟩ :=
      (Validation.validateQuestion_single hkind).1 hraw
    obtain rfl := Value.string.inj heq
    rw [hawarded hs]
    constructor
    · rintro ⟨-, m, hm, htrim⟩
      exact h o (by rw [hoptions]; exact ho) m hm htrim.symm
    · exact fun hmem => ⟨hblank, o.id, hmem, rfl⟩

/-- A choice between two options, the first of which is marked. -/
def choiceQuestion (first second : Text) : Question where
  id := "q".toList
  kind := .singleChoice
  title := "Which?".toList
  options := some [⟨first, "One".toList⟩, ⟨second, "Two".toList⟩]
  correct := some (.string first)
  points := some 1

def choiceQuiz (first second : Text) : FormSchema where
  title := "Quiz".toList
  pages := [{ id := "p".toList, questions := [choiceQuestion first second] }]

/-- Options `a` and `b`: only the marked one scores. -/
theorem single_choice_scoring_iff_ab :
    ScoredByOption plainLibs (fun _ => []) (fun _ => []) id (choiceQuiz "a".toList "b".toList)
      (choiceQuestion "a".toList "b".toList) (.str "a") :=
  (single_choice_scoring_iff plainLibs (fun _ => []) id (by rfl) (by rfl) (List.mem_singleton.2 rfl)
    (by decide) (by decide)
    rfl).2 (by decide)

/-- Two options that differ by a blank, of which one is marked: choosing the other scores. -/
theorem not_single_choice_scoring :
    sanityCheck (choiceQuiz "a".toList " a".toList) = .ok () ∧
    validateQuizKeys (fun _ => []) (choiceQuiz "a".toList " a".toList) = .ok () ∧
    ¬ScoredByOption plainLibs (fun _ => []) (fun _ => []) id (choiceQuiz "a".toList " a".toList)
      (choiceQuestion "a".toList " a".toList) (.str "a") := by
  refine ⟨by rfl, by rfl, fun h => ?_⟩
  have hscored := h (some (.str " a")) " a".toList (by rfl) [("q".toList, .str " a")] rfl
  exact absurd (hscored.1 (by rw [Quiz.Awarded]; decide)) (by decide)

end FormRespondentRole
