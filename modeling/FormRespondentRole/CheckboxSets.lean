import FormRespondentRole.FormValidation

/-!
# Checkbox answers as sets

Two array answers with the same strings qualify alike for every operator but `eq`, `neq` and `in`,
which ask for a list of one element: they tell a repeated selection from a single one
(`checkbox_set_iff`).
-/

namespace FormRespondentRole

open Foundations

/-- The strings of an array answer. -/
def strings (a : List Value) : List Text := a.filterMap Value.asStr

/-- The same set of strings. -/
def SameStrings (a b : List Value) : Prop := ∀ s, s ∈ strings a ↔ s ∈ strings b

/-- Two responses that differ in one answer only: `a` in the one, and `b` in the other. -/
structure AnswerReplaced (questionId : Text) (a b : List Value)
    (data data' : ResponseEvalData) : Prop where
  before : data.answers.get questionId = some (.array a)
  after : data'.answers.get questionId = some (.array b)
  others : ∀ id, id ≠ questionId → data'.answers.get id = data.answers.get id
  totalScore : data'.totalScore = data.totalScore

section

variable (libs : Libs)

/-- The single selections that a condition asks for. -/
def singles (c : Condition) : List Text :=
  match c.operator with
  | .eq | .neq => (stringValue libs c.value).toList
  | .in' => strings (c.value.asArray.getD [])
  | _ => []

/-- Whether `b` is the one selection `s` just when `a` is, for the selections that the condition
asks for. -/
def SameSingles (a b : List Value) (c : Condition) : Prop :=
  ∀ s ∈ singles libs c, strings a = [s] ↔ strings b = [s]

end

section

variable {libs : Libs} {questionId : Text} {a b : List Value} {data data' : ResponseEvalData}
  {c : Condition}

private theorem evaluateSingle_congr (h : actualValue c.target data = actualValue c.target data') :
    evaluateSingle libs c data = evaluateSingle libs c data' := by
  unfold evaluateSingle
  rw [h]

private theorem AnswerReplaced.actualValue_of_ne (h : AnswerReplaced questionId a b data data')
    (hne : c.target ≠ .question questionId) :
    actualValue c.target data = actualValue c.target data' := by
  cases htarget : c.target with
  | question id =>
    have hid : id ≠ questionId := fun heq => hne (by rw [htarget, heq])
    simp only [actualValue, h.others id hid]
  | quizTotalScore => simp only [actualValue, h.totalScore]

private theorem AnswerReplaced.actualValue_before (h : AnswerReplaced questionId a b data data') :
    actualValue (.question questionId) data = .array a := by
  simp only [actualValue, h.before, Option.getD_some]

private theorem AnswerReplaced.actualValue_after (h : AnswerReplaced questionId a b data data') :
    actualValue (.question questionId) data' = .array b := by
  simp only [actualValue, h.after, Option.getD_some]

/-- Two lists with the same elements are equal when each of them has one element. -/
private theorem eq_of_singletons {s t : Text} (h : SameStrings a b) (ha : strings a = [s])
    (hb : strings b = [t]) :
    s = t := by
  have hs := (h s).1 (by rw [ha]; exact List.mem_singleton_self s)
  rw [hb] at hs
  exact List.mem_singleton.1 hs

private theorem any_congr {A B : List Text} (h : ∀ s, s ∈ A ↔ s ∈ B) (p : Text → Bool) :
    A.any p = B.any p := by
  rw [Bool.eq_iff_iff, List.any_eq_true, List.any_eq_true]
  exact exists_congr fun s => and_congr_left' (h s)

/-- What an operator makes of an array answer with these strings. -/
private theorem evaluateSingle_array {op : ConditionOperator} {value : Value}
    {valueEnd : Option Value} (hactual : actualValue (.question questionId) data = .array a) :
    evaluateSingle libs ⟨.question questionId, op, value, valueEnd⟩ data =
      match op with
      | .eq => ((stringValue libs value).map fun s => decide (strings a = [s])).getD false
      | .neq => ((stringValue libs value).map fun s => !decide (strings a = [s])).getD false
      | .contains => ((stringValue libs value).map fun needle =>
        (strings a).any (Text.contains · needle)).getD false
      | .regex => ((value.asStr.bind libs.regexBuild).map fun isMatch =>
        (strings a).any isMatch).getD false
      | .in' => decide (∃ s ∈ strings (value.asArray.getD []), strings a = [s])
      | .containsAll => ((expectedStrings value).map (·.all (· ∈ strings a))).getD false
      | .containsAny => ((expectedStrings value).map (·.any (· ∈ strings a))).getD false
      | .notContains => ((expectedStrings value).map (!·.any (· ∈ strings a))).getD true
      | _ => false := by
  have hnull : (Value.array a).isNull = false := rfl
  have hselections : selections libs (.array a) = strings a := rfl
  cases op with
  | eq => simp [evaluateSingle, hactual, hnull, eqMatches, hselections]
  | neq => simp [evaluateSingle, hactual, hnull, eqMatches, hselections, Function.comp_def]
  | contains =>
    simp only [evaluateSingle, hactual, hnull, hselections]
    cases stringValue libs value <;> simp
  | regex =>
    simp only [evaluateSingle, hactual, hnull, hselections]
    cases value.asStr.bind libs.regexBuild <;> simp
  | in' =>
    simp only [evaluateSingle, hactual, hnull, hselections]
    have hexpected : ∀ only, ((expectedStrings value).map (·.any (· = only))).getD false =
        decide (only ∈ strings (value.asArray.getD [])) := by
      intro only
      cases harr : value.asArray with
      | none => simp [expectedStrings, harr, strings]
      | some arr =>
        have hany : (strings arr).any (· = only) = decide (only ∈ strings arr) := by
          rw [Bool.eq_iff_iff, List.any_eq_true]
          simp
        simp only [expectedStrings, harr, Option.map_some, Option.getD_some]
        exact hany
    simp only [hexpected]
    cases strings a with
    | nil => simp
    | cons first rest => cases rest <;> simp
  | containsAll | containsAny | notContains => simp [evaluateSingle, hactual, hnull, hselections]
  | gt | gte | lt | lte | between => simp [evaluateSingle, hactual, compareNumbers, numericValue]
  | before | after => simp [evaluateSingle, hactual, compareDates, parseDatetime, Value.asStr]

private theorem evaluateSingle_replaced_iff (h : AnswerReplaced questionId a b data data')
    (hsame : SameStrings a b) :
    evaluateSingle libs c data = evaluateSingle libs c data' ↔
      (c.target = .question questionId → SameSingles libs a b c) := by
  by_cases htarget : c.target = .question questionId
  · obtain ⟨target, op, value, valueEnd⟩ := c
    obtain rfl : target = .question questionId := htarget
    rw [evaluateSingle_array h.actualValue_before, evaluateSingle_array h.actualValue_after]
    have hmem : ∀ s, decide (s ∈ strings a) = decide (s ∈ strings b) :=
      fun s => decide_eq_decide.2 (hsame s)
    have hany : ∀ p, (strings a).any p = (strings b).any p := any_congr hsame
    cases op with
    | eq => cases hvalue : stringValue libs value <;> simp [SameSingles, singles, hvalue]
    | neq => cases hvalue : stringValue libs value <;> simp [SameSingles, singles, hvalue]
    | in' =>
      simp only [SameSingles, singles, decide_eq_decide, forall_const]
      constructor
      · intro hiff s hs
        constructor
        · intro ha
          obtain ⟨t, -, hb⟩ := hiff.1 ⟨s, hs, ha⟩
          rwa [eq_of_singletons hsame ha hb]
        · intro hb
          obtain ⟨t, -, ha⟩ := hiff.2 ⟨s, hs, hb⟩
          rwa [← eq_of_singletons hsame ha hb]
      · exact fun hall => exists_congr fun s => and_congr_right fun hs => hall s hs
    | contains | regex | containsAll | containsAny | notContains =>
      simp [SameSingles, singles, hany, hmem]
    | gt | gte | lt | lte | between | before | after => simp [SameSingles, singles]
  · exact iff_of_true (evaluateSingle_congr (h.actualValue_of_ne htarget)) fun heq =>
      absurd heq htarget

private theorem evaluate_singleton (c : Condition) (data : ResponseEvalData) :
    evaluate libs false [c] data = evaluateSingle libs c data := by
  rw [evaluate]
  simp

end

/-! ### Repeated options are stored -/

theorem mem_strings {a : List Value} {s : Text} : s ∈ strings a ↔ .string s ∈ a := by
  rw [strings, List.mem_filterMap]
  constructor
  · rintro ⟨v, hv, hs⟩
    cases v with
    | string t =>
      obtain rfl := Option.some.inj hs
      exact hv
    | _ => cases hs
  · exact fun h => ⟨_, h, rfl⟩

/-- A map in which the value of one key is another one. -/
def replaceEntry (key : Text) (v : Value) (fields : List (Text × Value)) : List (Text × Value) :=
  fields.map fun e => (e.1, if e.1 = key then v else e.2)

private theorem lookup_replaceEntry (key k : Text) (v : Value) (fields : List (Text × Value)) :
    (replaceEntry key v fields).lookup k = (fields.lookup k).map fun w => if k = key then v
      else w := by
  induction fields with
  | nil => rfl
  | cons e fields ih =>
    obtain ⟨k', w⟩ := e
    have hcons : replaceEntry key v ((k', w) :: fields) = (k', if k' = key then v else w) ::
      replaceEntry key v fields := rfl
    rw [hcons, List.lookup_cons, List.lookup_cons]
    by_cases hk : k = k'
    · simp [hk]
    · rw [beq_eq_false_iff_ne.2 hk]
      exact ih

private theorem insertEntry_replaceEntry (key k : Text) (v w : Value)
    (fields : List (Text × Value)) :
    Value.insertEntry k (if k = key then v else w) (replaceEntry key v fields) =
      replaceEntry key v (Value.insertEntry k w fields) := by
  induction fields with
  | nil => rfl
  | cons e fields ih =>
    have hcons : replaceEntry key v (e :: fields) = (e.1, if e.1 = key then v else e.2) ::
      replaceEntry key v fields := rfl
    rw [hcons, Value.insertEntry, Value.insertEntry]
    split
    · rfl
    split
    · rfl
    · rw [ih]
      rfl

private theorem ofEntries_replaceEntry (key : Text) (v : Value) (entries : List (Text × Value)) :
    Value.ofEntries (replaceEntry key v entries) = replaceEntry key v
    (Value.ofEntries entries) := by
  have hfold : ∀ fields, (replaceEntry key v entries).foldl
    (fun fields e => Value.insertEntry e.1 e.2 fields)
      (replaceEntry key v fields) =
        replaceEntry key v (entries.foldl (fun fields e =>
          Value.insertEntry e.1 e.2 fields) fields) := by
    induction entries with
    | nil => exact fun _ => rfl
    | cons e entries ih =>
      intro fields
      have hcons : replaceEntry key v (e :: entries) = (e.1, if e.1 = key then v else e.2) ::
        replaceEntry key v entries := rfl
      rw [hcons, List.foldl_cons, List.foldl_cons, insertEntry_replaceEntry, ih]
  exact hfold []

namespace Validation

section

variable {libs : Libs} {displayF64 : F64 → Text} {q : Question} {options : List QuestionOption}
  {a b : List Value}

private theorem chosenOptions_cons_string (s : Text) (rest : List Value) :
    chosenOptions options (.string s :: rest) =
      if hasOption options s then (chosenOptions options rest).map (.string s :: ·)
      else .error ("Option \"".toList ++ s ++ "\" is not valid for this question.".toList) := by
  rw [chosenOptions]
  rfl

theorem chosenOptions_ok_iff {chosen : List Value} :
    chosenOptions options a = .ok chosen ↔
      (∀ v ∈ a, ∃ s, v = .string s ∧ hasOption options s = true) ∧ chosen = a := by
  induction a generalizing chosen with
  | nil =>
    exact ⟨fun h => ⟨List.forall_mem_nil _, (Except.ok.inj h).symm⟩, fun h =>
      congrArg Except.ok h.2.symm⟩
  | cons v rest ih =>
    cases v with
    | string s =>
      rw [chosenOptions_cons_string]
      by_cases hs : hasOption options s = true
      · rw [if_pos hs]
        constructor
        · intro h
          cases hrest : chosenOptions options rest with
          | error e => simp [hrest, Except.map] at h
          | ok chosen' =>
            simp only [hrest, Except.map, Except.ok.injEq] at h
            obtain ⟨hall, rfl⟩ := ih.1 hrest
            exact ⟨List.forall_mem_cons.2 ⟨⟨s, rfl, hs⟩, hall⟩, h.symm⟩
        · rintro ⟨hall, rfl⟩
          rw [ih.2 ⟨(List.forall_mem_cons.1 hall).2, rfl⟩]
          rfl
      · rw [if_neg hs]
        refine iff_of_false (fun h => by cases h) fun h => ?_
        obtain ⟨t, ht, hopt⟩ := (List.forall_mem_cons.1 h.1).1
        cases ht
        exact hs hopt
    | _ =>
      refine iff_of_false (fun h => ?_) fun h => ?_
      · cases h
      · obtain ⟨s, hs, -⟩ := (List.forall_mem_cons.1 h.1).1
        cases hs

/-- An array answer is stored as it is when a checkbox question offers all its selections, and not
at all otherwise. -/
theorem validateQuestion_array_iff {answer : Option Value}
    (hq : q.kind.isAnswerable = true) (ha : a ≠ []) :
    validateQuestion libs displayF64 q (some (.array a)) = .ok answer ↔
      (q.kind = .multiChoice ∧ answer = some (.array a) ∧
        ∃ options, q.options = some options ∧ ∀ v ∈ a, ∃ s, v = .string s ∧
          hasOption options s = true) ∨
      (q.kind = .agreement ∧ answer = none ∧ q.required = false) := by
  have hblank : isBlank (some (.array a)) = false := by
    simpa [isBlank] using ha
  rw [validateQuestion]
  cases hkind : q.kind with
  | multiChoice =>
    simp only [validateMultiChoice, hblank]
    cases hoptions : q.options with
    | none => simp [Value.asArray]
    | some options =>
      simp only [Option.bind_some, Value.asArray, Bool.false_eq_true, if_false, true_and,
        Option.some.injEq,
        exists_eq_left', reduceCtorEq, false_and, or_false]
      cases hchosen : chosenOptions options a with
      | error e =>
        refine iff_of_false (fun h => by cases h) fun h => ?_
        cases hchosen.symm.trans (chosenOptions_ok_iff.2 ⟨h.2, rfl⟩)
      | ok chosen =>
        obtain ⟨hall, rfl⟩ := chosenOptions_ok_iff.1 hchosen
        exact ⟨fun h => ⟨(Except.ok.inj h).symm, hall⟩, fun h => congrArg Except.ok h.1.symm⟩
  | agreement =>
    have hfalsy : truthy (some (.array a)) = false := rfl
    simp only [validateAgreement, hfalsy]
    cases q.required with
    | true => simp
    | false => simpa using eq_comm
  | shortText | longText => simp [validateText, hblank, Value.asStr]
  | number | scale => simp [validateNumber, hblank, answerNumber]
  | singleChoice | dropdown => simp [validateSingleChoice, hblank, Value.asStr]
  | date => simp [validateDate, hblank, Value.asStr]
  | email => simp [validateEmail, hblank, Value.asStr]
  | info | image | video => simp [hkind, QuestionKind.isAnswerable] at hq

/-- A checkbox answer with the same selections passes the check too. -/
private theorem validateQuestion_replaced {answer : Option Value} (hq : q.kind.isAnswerable = true)
    (hsame : SameStrings a b) (hb : ∀ v ∈ b, ∃ s, v = .string s) (hne : b ≠ [])
    (h : validateQuestion libs displayF64 q (some (.array a)) = .ok answer) :
    validateQuestion libs displayF64 q (some (.array b)) = .ok (answer.map fun _ => .array b) := by
  have hmem : ∀ {s : Text}, .string s ∈ b → .string s ∈ a :=
    fun hs => mem_strings.1 ((hsame _).2 (mem_strings.2 hs))
  have ha : a ≠ [] := by
    obtain ⟨v, hv⟩ := List.exists_mem_of_ne_nil b hne
    obtain ⟨s, rfl⟩ := hb v hv
    exact List.ne_nil_of_mem (hmem hv)
  rw [validateQuestion_array_iff hq hne]
  rcases (validateQuestion_array_iff hq ha).1 h with ⟨hkind, rfl, options, hoptions, hall⟩ |
    ⟨hkind, rfl, hreq⟩
  · refine Or.inl ⟨hkind, rfl, options, hoptions, fun v hv => ?_⟩
    obtain ⟨s, rfl⟩ := hb v hv
    exact hall _ (hmem hv)
  · exact Or.inr ⟨hkind, rfl, hreq⟩

/-- A submission with another array of the same selections is accepted too, and stored with that
array. -/
theorem validate_replaced {schema : FormSchema} {answers out : List (Text × Value)}
    {questionId : Text} (hsame : SameStrings a b) (hb : ∀ v ∈ b, ∃ s, v = .string s) (hne : b ≠ [])
    (hanswer : answers.lookup questionId = some (.array a))
    (h : validate libs displayF64 schema (.object answers) = .ok out) :
    validate libs displayF64 schema (.object (replaceEntry questionId (.array b) answers)) =
      .ok (replaceEntry questionId (.array b) out) := by
  obtain ⟨hall, rfl⟩ := (validate_object_iff libs displayF64).1 h
  have hcheck : ∀ q ∈ schema.iterQuestions, ∀ answer,
      validateQuestion libs displayF64 q (answers.lookup q.id) = .ok answer →
        validateQuestion libs displayF64 q
          ((replaceEntry questionId (.array b) answers).lookup q.id) =
          .ok (answer.map fun w => if q.id = questionId then .array b else w) := by
    intro q hq answer hok
    rw [lookup_replaceEntry]
    by_cases hid : q.id = questionId
    · rw [hid, hanswer] at hok
      have hanswerable : q.kind.isAnswerable = true := (List.mem_filter.1 hq).2
      simpa [hid, hanswer] using validateQuestion_replaced hanswerable hsame hb hne hok
    · simpa [hid] using hok
  rw [validate_object_iff]
  refine ⟨fun q hq => ?_, ?_⟩
  · obtain ⟨answer, hok⟩ := hall q hq
    exact ⟨_, hcheck q hq answer hok⟩
  · rw [← ofEntries_replaceEntry, replaceEntry, storedEntries, storedEntries, List.map_filterMap]
    congr 1
    refine List.filterMap_congr fun q hq => ?_
    obtain ⟨answer, hok⟩ := hall q hq
    rw [hcheck q hq answer hok, hok]
    cases answer <;> rfl

end

end Validation

/-- Replacing an array answer by another one with the same strings changes the result of a condition
just when the condition asks for a single selection that is all of one answer, and repeated in the
other; and such an answer passes the check of the submission and is stored as it is. -/
theorem checkbox_set_iff {libs : Libs} {questionId : Text} {a b : List Value}
    {data data' : ResponseEvalData} {c : Condition} (h : AnswerReplaced questionId a b data data')
    (hsame : SameStrings a b) :
    (evaluate libs false [c] data = evaluate libs false [c] data' ↔
      (c.target = .question questionId → SameSingles libs a b c)) ∧
    ∀ displayF64 schema answers out, (∀ v ∈ b, ∃ s, v = .string s) → b ≠ [] →
      answers.lookup questionId = some (.array a) →
      Validation.validate libs displayF64 schema (.object answers) = .ok out →
        Validation.validate libs displayF64 schema
        (.object (replaceEntry questionId (.array b) answers)) =
          .ok (replaceEntry questionId (.array b) out) := by
  refine ⟨?_, fun _ _ _ _ hb hne hanswer hok =>
    Validation.validate_replaced hsame hb hne hanswer hok⟩
  rw [evaluate_singleton, evaluate_singleton]
  exact evaluateSingle_replaced_iff h hsame

/-- A response with this checkbox answer. -/
def ticked (options : List Text) : ResponseEvalData :=
  ⟨.object [("q".toList, .array (options.map .string))], none⟩

private theorem answerReplaced_ticked (xs ys : List Text) :
    AnswerReplaced "q".toList (xs.map .string) (ys.map .string) (ticked xs) (ticked ys) where
  before := rfl
  after := rfl
  others id hid := by
    have hkey : (id == "q".toList) = false := beq_eq_false_iff_ne.2 hid
    have hnone : ∀ zs, (ticked zs).answers.get id = none := by
      intro zs
      rw [ticked, Value.get, List.lookup_cons, hkey]
      rfl
    rw [hnone, hnone]
  totalScore := rfl

private theorem sameStrings_red :
    SameStrings (["red".toList].map .string) (["red".toList, "red".toList].map .string) := by
  intro s
  simp [strings, Value.asStr]

/-- Red ticked once and twice, and a condition on blue. -/
theorem checkbox_set_iff_blue :
    evaluate plainLibs false [⟨.question "q".toList, .eq, .str "blue", none⟩]
    (ticked ["red".toList]) =
      evaluate plainLibs false [⟨.question "q".toList, .eq, .str "blue", none⟩]
      (ticked ["red".toList, "red".toList]) :=
  (checkbox_set_iff (answerReplaced_ticked _ _) sameStrings_red).1.2
    fun _ s hs => by
      obtain rfl : s = "blue".toList := List.mem_singleton.1 hs
      decide

/-- Red ticked twice is not red. -/
theorem not_checkbox_set :
    ¬∀ (libs : Libs) (questionId : Text) (a b : List Value) (data data' : ResponseEvalData)
      (c : Condition),
      AnswerReplaced questionId a b data data' → SameStrings a b →
        evaluate libs false [c] data = evaluate libs false [c] data' := by
  intro h
  have heq := h plainLibs _ _ _ _ _ ⟨.question "q".toList, .eq, .str "red", none⟩
    (answerReplaced_ticked ["red".toList] ["red".toList, "red".toList]) sameStrings_red
  exact absurd heq (by decide)

end FormRespondentRole
