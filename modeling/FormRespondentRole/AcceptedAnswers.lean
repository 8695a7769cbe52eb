import FormRespondentRole.CheckboxSets
import FormRespondentRole.SchemaChecks

/-!
# Accepted answers

What `validate` lets through: one answer at most for each question, of a form that goes by the kind
of the question, and one for each required question.  What it turns away it turns away with errors
that name questions.
-/

namespace FormRespondentRole

open Foundations

namespace Validation

/-- The greatest number of characters of a text answer, as the schema states it. -/
def textLimit (q : Question) : Int :=
  (q.maxLength.map Int64.toInt).getD (if q.kind = .longText then 4000 else 100)

/-- The text is the id of one of the options. -/
def OptionId (q : Question) (s : Text) : Prop :=
  ∃ options, q.options = some options ∧ ∃ o ∈ options, o.id = s

/-- What is stored for a question, by its kind. -/
def WellFormedAnswer (libs : Libs) (q : Question) (v : Value) : Prop :=
  match q.kind with
  | .shortText | .longText =>
    ∃ s, v = .string s ∧ Text.trim s = s ∧ s ≠ [] ∧
      ((∀ n, q.maxLength = some n → 0 ≤ n) → s.length ≤ textLimit q)
  | .number | .scale => ∃ s, v = .string s
  | .singleChoice | .dropdown => ∃ s, v = .string s ∧ OptionId q s
  | .multiChoice => ∃ a, v = .array a ∧ a ≠ [] ∧ ∀ x ∈ a, ∃ s, x = .string s ∧ OptionId q s
  | .date => ∃ s, v = .string s ∧ Text.trim s = s ∧
    ((libs.parseDate s).isSome ∨ (libs.parseFromRfc3339 s).isSome)
  | .email => ∃ s, v = .string s ∧ Text.trim s = s ∧ looksLikeEmail s = true ∧
    (Text.bytes s).length ≤ 320
  | .agreement => v = .str "true"
  | .info | .image | .video => False

section

variable {libs : Libs} {displayF64 : F64 → Text} {q : Question} {raw : Option Value}

/-! ### One question -/

theorem require_ok {answer : Option Value} (h : require q = .ok answer) :
    answer = none ∧ q.required = false := by
  rw [require] at h
  split at h
  · cases h
  · rename_i hrequired
    exact ⟨(Except.ok.inj h).symm, Bool.not_eq_true _ ▸ hrequired⟩

theorem hasOption_iff {options : List QuestionOption} {s : Text} :
    hasOption options s = true ↔ ∃ o ∈ options, o.id = s := by
  simp [hasOption]

theorem optionId_of_mem {o : QuestionOption} (h : o ∈ q.options.getD []) : OptionId q o.id := by
  cases hoptions : q.options with
  | none =>
    rw [hoptions] at h
    cases h
  | some options =>
    rw [hoptions] at h
    exact ⟨options, hoptions, o, h, rfl⟩

private theorem trim_ne_nil_of_not_blank {s : Text} (h : isBlank (some (.string s)) = false) :
    Text.trim s ≠ [] := by
  simpa [isBlank] using h

private theorem maxLen_eq (h : ∀ n, q.maxLength = some n → 0 ≤ n) :
    (maxLen q : Int) = textLimit q := by
  rw [maxLen, textLimit]
  cases hlength : q.maxLength with
  | none => split_ifs <;> rfl
  | some n =>
    have hn : 0 ≤ n.toInt := Int64.le_iff_toInt_le.1 (h n hlength)
    have hcast : n.toNatClampNeg = n.toInt.toNat := rfl
    rw [Option.map_some, Option.map_some, Option.getD_some, Option.getD_some, asUsize,
      Int64.toNat_toUInt64_of_le (h n hlength), hcast, Int.toNat_of_nonneg hn]

/-- The string of an answer that is one. -/
theorem asStr_bind_eq_some {s : Text} (h : raw.bind Value.asStr = some s) :
    raw = some (.string s) := by
  obtain ⟨v, rfl, hv⟩ := Option.bind_eq_some_iff.1 h
  cases v with
  | string t => rw [Option.some.inj hv]
  | _ => cases hv

theorem validateText_ok {answer : Option Value} (h : validateText q raw = .ok answer) :
    answer = none ∧ q.required = false ∨
      ∃ s, answer = some (.string s) ∧ Text.trim s = s ∧ s ≠ [] ∧ s.length ≤ maxLen q := by
  rw [validateText] at h
  split at h
  · exact Or.inl (require_ok h)
  rename_i hblank
  split at h
  · cases h
  rename_i s hs
  split at h
  · cases h
  rename_i hlength
  rw [asStr_bind_eq_some hs] at hblank
  exact Or.inr ⟨_, (Except.ok.inj h).symm, Text.trim_trim s,
    trim_ne_nil_of_not_blank (Bool.not_eq_true _ ▸ hblank),
    Nat.not_lt.1 hlength⟩

theorem validateNumber_ok {answer : Option Value}
    (h : validateNumber displayF64 q raw = .ok answer) :
    answer = none ∧ q.required = false ∨ ∃ n, answerNumber raw = some n ∧ isBlank raw = false ∧
      rangeError displayF64 q n = none ∧ answer = some (.string (numberText displayF64 n)) := by
  rw [validateNumber] at h
  split at h
  · exact Or.inl (require_ok h)
  rename_i hblank
  split at h
  · cases h
  rename_i n hn
  split at h
  · cases h
  rename_i hrange
  exact Or.inr ⟨n, hn, Bool.not_eq_true _ ▸ hblank, hrange, (Except.ok.inj h).symm⟩

theorem validateSingleChoice_ok {answer : Option Value}
    (h : validateSingleChoice q raw = .ok answer) :
    answer = none ∧ q.required = false ∨ ∃ s, raw = some (.string s) ∧ answer = some (.string s) ∧
      OptionId q s := by
  rw [validateSingleChoice] at h
  split at h
  · exact Or.inl (require_ok h)
  split at h
  · cases h
  · cases h
  rename_i s options hs hoptions
  split at h
  · rename_i hoption
    exact Or.inr ⟨s, asStr_bind_eq_some hs, (Except.ok.inj h).symm, options, hoptions,
      hasOption_iff.1 hoption⟩
  · cases h

theorem validateMultiChoice_ok {answer : Option Value}
    (h : validateMultiChoice q raw = .ok answer) :
    answer = none ∧ q.required = false ∨
      ∃ a, raw = some (.array a) ∧ answer = some (.array a) ∧ a ≠ [] ∧ ∀ x ∈ a, ∃ s, x = .string s ∧
        OptionId q s := by
  rw [validateMultiChoice] at h
  split at h
  · exact Or.inl (require_ok h)
  rename_i hblank
  split at h
  · cases h
  · cases h
  rename_i a options ha hoptions
  obtain ⟨v, rfl, hv⟩ := Option.bind_eq_some_iff.1 ha
  obtain rfl : v = .array a := by
    cases v with
    | array xs => rw [Option.some.inj hv]
    | _ => cases hv
  cases hchosen : chosenOptions options a with
  | error msg =>
    rw [hchosen] at h
    cases h
  | ok chosen =>
    rw [hchosen] at h
    obtain ⟨hall, rfl⟩ := chosenOptions_ok_iff.1 hchosen
    refine Or.inr ⟨chosen, rfl, (Except.ok.inj h).symm, ?_, fun x hx => ?_⟩
    · rintro rfl
      exact hblank rfl
    · obtain ⟨s, rfl, hoption⟩ := hall x hx
      exact ⟨s, rfl, options, hoptions, hasOption_iff.1 hoption⟩

theorem validateDate_ok {answer : Option Value} (h : validateDate libs q raw = .ok answer) :
    answer = none ∧ q.required = false ∨ ∃ s, answer = some (.string s) ∧ Text.trim s = s ∧ s ≠ [] ∧
      ((libs.parseDate s).isSome ∨ (libs.parseFromRfc3339 s).isSome) := by
  rw [validateDate] at h
  split at h
  · exact Or.inl (require_ok h)
  rename_i hblank
  split at h
  · cases h
  rename_i s hs
  split at h
  · cases h
  rename_i hparses
  rw [asStr_bind_eq_some hs] at hblank
  refine Or.inr ⟨_, (Except.ok.inj h).symm, Text.trim_trim s,
    trim_ne_nil_of_not_blank (Bool.not_eq_true _ ▸ hblank), ?_⟩
  rw [Bool.and_eq_true, Option.isNone_iff_eq_none, Option.isNone_iff_eq_none, not_and_or] at hparses
  exact hparses.imp Option.isSome_iff_ne_none.2 Option.isSome_iff_ne_none.2

theorem validateEmail_ok {answer : Option Value} (h : validateEmail q raw = .ok answer) :
    answer = none ∧ q.required = false ∨ ∃ s, answer = some (.string s) ∧ Text.trim s = s ∧
      looksLikeEmail s = true ∧ (Text.bytes s).length ≤ 320 := by
  rw [validateEmail] at h
  split at h
  · exact Or.inl (require_ok h)
  split at h
  · cases h
  rename_i s hs
  split at h
  · cases h
  rename_i hemail
  split at h
  · cases h
  rename_i hlength
  refine Or.inr ⟨_, (Except.ok.inj h).symm, Text.trim_trim s, ?_, Nat.not_lt.1 hlength⟩
  simpa using hemail

theorem validateAgreement_ok {answer : Option Value} (h : validateAgreement q raw = .ok answer) :
    answer = none ∧ q.required = false ∨ answer = some (.str "true") := by
  rw [validateAgreement] at h
  split at h
  · split at h
    · cases h
    · rename_i hrequired
      exact Or.inl ⟨(Except.ok.inj h).symm, Bool.not_eq_true _ ▸ hrequired⟩
  · exact Or.inr (Except.ok.inj h).symm

/-- An answerable question that passes its check is answered in the form of its kind, or left out
though not required. -/
theorem validateQuestion_ok {answer : Option Value} (hq : q.kind.isAnswerable = true)
    (h : validateQuestion libs displayF64 q raw = .ok answer) :
    answer = none ∧ q.required = false ∨ ∃ v, answer = some v ∧ WellFormedAnswer libs q v := by
  rw [validateQuestion] at h
  simp only [WellFormedAnswer]
  cases hkind : q.kind with
  | shortText | longText =>
    simp only [hkind] at h
    refine (validateText_ok h).imp_right ?_
    rintro ⟨s, rfl, htrim, hne, hlength⟩
    refine ⟨_, rfl, s, rfl, htrim, hne, fun hnonneg => ?_⟩
    rw [← maxLen_eq hnonneg]
    exact_mod_cast hlength
  | number | scale =>
    simp only [hkind] at h
    refine (validateNumber_ok h).imp_right ?_
    rintro ⟨n, -, -, -, rfl⟩
    exact ⟨_, rfl, _, rfl⟩
  | singleChoice | dropdown =>
    simp only [hkind] at h
    refine (validateSingleChoice_ok h).imp_right ?_
    rintro ⟨s, -, rfl, hoption⟩
    exact ⟨_, rfl, s, rfl, hoption⟩
  | multiChoice =>
    simp only [hkind] at h
    refine (validateMultiChoice_ok h).imp_right ?_
    rintro ⟨a, -, rfl, hne, hall⟩
    exact ⟨_, rfl, a, rfl, hne, hall⟩
  | date =>
    simp only [hkind] at h
    refine (validateDate_ok h).imp_right ?_
    rintro ⟨s, rfl, htrim, -, hparses⟩
    exact ⟨_, rfl, s, rfl, htrim, hparses⟩
  | email =>
    simp only [hkind] at h
    refine (validateEmail_ok h).imp_right ?_
    rintro ⟨s, rfl, hs⟩
    exact ⟨_, rfl, s, rfl, hs⟩
  | agreement =>
    simp only [hkind] at h
    refine (validateAgreement_ok h).imp_right ?_
    rintro rfl
    exact ⟨_, rfl, rfl⟩
  | info | image | video => simp [hkind, QuestionKind.isAnswerable] at hq

/-! ### The schema -/

variable {schema : FormSchema} {answers out : List (Text × Value)}

theorem mem_storedEntries {check : Question → Except Text (Option Value)} {qs : List Question}
    {k : Text} {v : Value} :
    (k, v) ∈ storedEntries check qs ↔ ∃ q ∈ qs, q.id = k ∧ check q = .ok (some v) := by
  rw [storedEntries, List.mem_filterMap]
  refine exists_congr fun q => and_congr_right fun _ => ?_
  cases check q with
  | error msg => simp [Except.toOption]
  | ok answer => cases answer <;> simp [Except.toOption]

theorem keys_storedEntries_nodup {check : Question → Except Text (Option Value)}
    {qs : List Question} (h : (qs.map (·.id)).Nodup) :
    ((storedEntries check qs).map Prod.fst).Nodup := by
  induction qs with
  | nil => exact List.nodup_nil
  | cons q qs ih =>
    obtain ⟨hid, hnodup⟩ := List.nodup_cons.1 h
    have hcons : storedEntries check (q :: qs) =
        ((check q).toOption.join.map fun v => (q.id, v)).toList ++ storedEntries check qs := by
      rw [storedEntries, List.filterMap_cons]
      cases (check q).toOption.join <;> rfl
    rw [hcons, List.map_append]
    cases hstored : (check q).toOption.join with
    | none => exact ih hnodup
    | some v =>
      refine List.nodup_cons.2 ⟨fun hmem => hid ?_, ih hnodup⟩
      obtain ⟨⟨k, w⟩, hkw, hk⟩ := List.mem_map.1 hmem
      obtain ⟨q', hq', hid', -⟩ := mem_storedEntries.1 hkw
      exact List.mem_map.2 ⟨q', hq', hid'.trans hk⟩

/-- With distinct ids the check of a question says what is stored for it. -/
theorem stored_answer (hids : (schema.iterQuestions.map (·.id)).Nodup)
    (h : validate libs displayF64 schema (.object answers) = .ok out) {q : Question}
    (hq : q ∈ schema.iterQuestions) :
    validateQuestion libs displayF64 q (answers.lookup q.id) = .ok (out.lookup q.id) := by
  obtain ⟨hall, rfl⟩ := (validate_object_iff libs displayF64).1 h
  obtain ⟨answer, hanswer⟩ := hall q hq
  have hunique : ∀ q' ∈ schema.iterQuestions, q'.id = q.id → q' = q := fun q' hq' hid =>
    List.inj_on_of_nodup_map hids hq' hq hid
  rw [hanswer, Except.ok.injEq]
  refine Option.ext fun v => ?_
  rw [Value.lookup_ofEntries_eq_some_iff (keys_storedEntries_nodup hids), mem_storedEntries]
  constructor
  · rintro rfl
    exact ⟨q, hq, rfl, hanswer⟩
  · rintro ⟨q', hq', hid, hv⟩
    obtain rfl := hunique q' hq' hid
    exact Except.ok.inj (hanswer.symm.trans hv)

private theorem mem_reportedErrors {check : Question → Except Text (Option Value)}
    {qs : List Question} {e : FieldError} :
    e ∈ reportedErrors check qs ↔ ∃ q ∈ qs, e.questionId = q.id ∧ check q = .error e.message := by
  rw [reportedErrors, List.mem_filterMap]
  refine exists_congr fun q => and_congr_right fun _ => ?_
  obtain ⟨id, message⟩ := e
  cases check q with
  | error msg =>
    simp only [Option.some.injEq, FieldError.mk.injEq, Except.error.injEq]
    exact and_congr_left' eq_comm
  | ok answer => simp

/-- The errors of an object are those of its questions. -/
theorem validate_object_error {errors : List FieldError}
    (h : validate libs displayF64 schema (.object answers) = .error errors) :
    errors ≠ [] ∧ errors =
      reportedErrors (fun q => validateQuestion libs displayF64 q (answers.lookup q.id))
        schema.iterQuestions := by
  simp only [validate, foldl_record, List.nil_append] at h
  split at h
  · cases h
  · rename_i hne
    obtain rfl := Except.error.inj h
    exact ⟨hne, rfl⟩

/-- Only the answers to the questions are looked at. -/
theorem validate_congr {answers' : List (Text × Value)}
    (h : ∀ q ∈ schema.iterQuestions, answers'.lookup q.id = answers.lookup q.id) :
    validate libs displayF64 schema (.object answers') = validate libs displayF64 schema
    (.object answers) := by
  have hcheck : ∀ c : Checked, schema.iterQuestions.foldl
        (fun c q => c.record q (validateQuestion libs displayF64 q (answers'.lookup q.id))) c =
      schema.iterQuestions.foldl
          (fun c q => c.record q (validateQuestion libs displayF64 q (answers.lookup q.id))) c :=
    fun c => List.foldl_ext _ _ c fun c q hq => by rw [h q hq]
  simp only [validate, hcheck]

end

end Validation

open Validation in
/-- What `validate` accepts is well formed and complete, what it rejects is rejected with errors
about questions of the schema, and nothing but the answers to these has a say. -/
theorem accepted_answers_well_formed (libs : Libs) (displayF64 : F64 → Text) {schema : FormSchema}
    (hsane : sanityCheck schema = .ok ()) :
    (∀ raw out, validate libs displayF64 schema raw = .ok out →
      (∀ key v, (key, v) ∈ out → ∃ q ∈ schema.iterQuestions, q.id = key ∧
        WellFormedAnswer libs q v) ∧
        ∀ q ∈ schema.iterQuestions, q.required = true → (out.lookup q.id).isSome) ∧
    (∀ raw errors, validate libs displayF64 schema raw = .error errors → errors ≠ [] ∧
      ∀ e ∈ errors, (∃ q ∈ schema.iterQuestions, e.questionId = q.id) ∨
        e.questionId = [] ∧ ∀ fields, raw ≠ .object fields) ∧
    ∀ answers answers' : List (Text × Value),
      (∀ q ∈ schema.iterQuestions, answers'.lookup q.id = answers.lookup q.id) →
        validate libs displayF64 schema (.object answers') =
          validate libs displayF64 schema (.object answers) := by
  have hids : (schema.iterQuestions.map (·.id)).Nodup := (sanityCheck_eq_ok_iff.1 hsane).ids_nodup
  refine ⟨fun raw out h => ?_, fun raw errors h => ?_, fun _ _ => validate_congr⟩
  · cases raw with
    | object answers =>
      refine ⟨fun key v hmem => ?_, fun q hq hrequired => ?_⟩
      · obtain ⟨-, rfl⟩ := (validate_object_iff libs displayF64).1 h
        obtain ⟨q, hq, hid, hok⟩ := mem_storedEntries.1 (Value.mem_ofEntries hmem)
        rcases validateQuestion_ok (List.mem_filter.1 hq).2 hok with ⟨hnone, -⟩ | ⟨w, hw, hformed⟩
        · cases hnone
        · obtain rfl := Option.some.inj hw
          exact ⟨q, hq, hid, hformed⟩
      · rcases validateQuestion_ok (List.mem_filter.1 hq).2
          (stored_answer hids h hq) with ⟨-, hnot⟩ | ⟨v, hv, -⟩
        · rw [hrequired] at hnot
          cases hnot
        · rw [hv]
          rfl
    | _ => cases h
  · cases raw with
    | object answers =>
      obtain ⟨hne, rfl⟩ := validate_object_error h
      refine ⟨hne, fun e he => Or.inl ?_⟩
      obtain ⟨q, hq, hid, -⟩ := mem_reportedErrors.1 he
      exact ⟨q, hq, hid⟩
    | _ =>
      obtain rfl := Except.error.inj h
      refine ⟨List.cons_ne_nil _ _, fun e he => Or.inr ?_⟩
      rw [List.mem_singleton.1 he]
      exact ⟨rfl, fun _ heq => by cases heq⟩

/-- A form with one required question. -/
def nameForm : FormSchema where
  title := "Name".toList
  pages := [{ id := "p".toList,
              questions := [{ id := "q".toList, kind := .shortText, title := "Name?".toList,
                              required := true }] }]

private theorem nameForm_sane : sanityCheck nameForm = .ok () := rfl

/-- A name, a number in place of a name, and a name beside an answer to no question. -/
theorem accepted_answers_well_formed_name :
    (∃ q ∈ nameForm.iterQuestions, q.id = "q".toList ∧
      Validation.WellFormedAnswer plainLibs q (.str "Ann")) ∧
    [FieldError.mk "q".toList "Answer must be text.".toList] ≠ [] ∧
    Validation.validate plainLibs (fun _ => []) nameForm
    (.object [("a".toList, .null), ("q".toList, .str "Ann")]) =
      Validation.validate plainLibs (fun _ => []) nameForm
      (.object [("q".toList, .str "Ann")]) := by
  obtain ⟨haccepted, hrejected, hcongr⟩ :=
    accepted_answers_well_formed plainLibs (fun _ => []) nameForm_sane
  refine ⟨?_, ?_, ?_⟩
  · exact (haccepted (.object [("q".toList, .str " Ann")])
      [("q".toList, .str "Ann")] rfl).1 _ _ List.mem_cons_self
  · exact (hrejected (.object [("q".toList, .bool true)]) _ rfl).1
  · refine hcongr _ _ fun q hq => ?_
    rw [List.mem_singleton.1 hq]
    rfl

end FormRespondentRole
