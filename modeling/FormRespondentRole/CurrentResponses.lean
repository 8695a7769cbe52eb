import FormRespondentRole.AcceptedAnswers
import FormRespondentRole.StoredForms

/-!
# Responses of the current version

A response whose version is the one that its form has now is a well-formed and complete set of
answers to the questions that the form asks now, and its score is the exact one for the answer keys
of now, in every state of the service (`current_responses_well_formed`).  A submit that has loaded a
form is never turned away because of the form itself (`grade_of_sound`).
-/

namespace FormRespondentRole

open Foundations

/-- The answers are well formed and complete for the form, and a quiz has the exact score. -/
structure WellGraded (x : ServiceLibs) (form : Form) (schema : FormSchema)
    (verified : List (Text × Value)) (totalScore : Option Int32) : Prop where
  reads : FormSchema.fromValue form.schema = some schema
  wellFormed : ∀ key v, (key, v) ∈ verified → ∃ q ∈ schema.iterQuestions, q.id = key ∧
    Validation.WellFormedAnswer x.libs q v
  complete : ∀ q ∈ schema.iterQuestions, q.required = true → (verified.lookup q.id).isSome
  ungraded : form.isQuiz = false → totalScore = none
  graded : form.isQuiz = true → ∃ score, totalScore = some score ∧
    score.toInt = Quiz.earnedPoints x.libs.floatText x.toLowercase verified schema.iterQuestions ∧
      0 ≤ score.toInt ∧ score.toInt ≤ Quiz.gradedPoints x.libs.floatText schema.iterQuestions

section

variable {x : ServiceLibs} {form : Form} {schema : FormSchema}

/-- What `validate` accepts, question by question. -/
theorem validated_answers (hsane : schema.SaneUntitled) {raw : Value} {out : List (Text × Value)}
    (h : Validation.validate x.libs x.displayF64 schema raw = .ok out) :
    (∀ key v, (key, v) ∈ out → ∃ q ∈ schema.iterQuestions, q.id = key ∧
      Validation.WellFormedAnswer x.libs q v) ∧
      ∀ q ∈ schema.iterQuestions, q.required = true → (out.lookup q.id).isSome := by
  obtain ⟨title, hsane⟩ := hsane
  cases raw with
  | object answers =>
    constructor
    · intro key v hmem
      obtain ⟨-, rfl⟩ := (Validation.validate_object_iff x.libs x.displayF64).1 h
      obtain ⟨q, hq, hid, hok⟩ := Validation.mem_storedEntries.1 (Value.mem_ofEntries hmem)
      rcases Validation.validateQuestion_ok (List.mem_filter.1 hq).2 hok with ⟨hnone, -⟩ |
        ⟨w, hw, hformed⟩
      · cases hnone
      · obtain rfl := Option.some.inj hw
        exact ⟨q, hq, hid, hformed⟩
    · intro q hq hrequired
      have hstored := Validation.stored_answer hsane.ids_nodup h hq
      rcases Validation.validateQuestion_ok (List.mem_filter.1 hq).2 hstored with ⟨-, hnot⟩ |
        ⟨v, hv, -⟩
      · rw [hrequired] at hnot
        cases hnot
      · rw [hv]
        rfl
  | _ => cases h

/-- A sound form grades whatever is sent, or turns it away for the answers alone. -/
theorem grade_of_sound (hform : form.Sound x) (body : SubmitBody) :
    (∃ errors, grade x.validator form body = .error (.validationFailed errors)) ∨
      ∃ g schema verified, grade x.validator form body = .ok g ∧ g.answers = .object verified ∧
        WellGraded x form schema verified g.totalScore := by
  obtain ⟨schema, hreads, hsane, hkeys⟩ := hform.schema
  have hread : x.validator.fromValue form.schema = .ok schema := schemaFromValue_ok hreads
  rw [grade, hread]
  dsimp only [Except.mapError, bind, Except.bind]
  cases hvalid : x.validator.validate schema body.answers with
  | error errors => exact Or.inl ⟨errors, rfl⟩
  | ok verified =>
    obtain ⟨hformed, hcomplete⟩ := validated_answers hsane hvalid
    refine Or.inr ⟨_, schema, verified, rfl, rfl, hreads, hformed, hcomplete, fun hquiz => ?_,
      fun hquiz => ?_⟩
    · exact if_neg (Bool.eq_false_iff.1 hquiz)
    · obtain ⟨title, hsane⟩ := hsane
      -- the title has no say in the score
      have hexact : Quiz.ExactScore x.libs.floatText x.toLowercase
          { schema with title := title } verified :=
        Quiz.exactScore_of_sane hsane (validateQuizKeys_eq_ok_iff.1 (hkeys hquiz)) verified
      exact ⟨_, if_pos hquiz, hexact.exact, hexact.nonneg, hexact.atMost⟩

/-! ### Runs of the service -/

variable {s t : Service} {es : List ServiceEvent}

/-- In any run, the form that a submit has loaded grades every body, or turns it away for its
answers. -/
theorem submits_graded (hquiet : s.Quiet)
    (hhomes : ∀ form ∈ s.db.forms.rows, (s.homes form.id).isSome)
    (hforms : ∀ form ∈ s.db.forms.rows, form.Sound x)
    (hrun : (serviceSystem x.admin x.submit).Run (fun _ _ _ => True) s es t) :
    ∀ tx ∈ t.submits, ∀ form, tx.form? = some form → ∀ body,
      (∃ errors, grade x.validator form body = .error (.validationFailed errors)) ∨
        ∃ g schema verified, grade x.validator form body = .ok g ∧ g.answers = .object verified ∧
          WellGraded x form schema verified g.totalScore := by
  intro tx htx form hloaded body
  have hsound : t.SubmitsSound x.submit :=
    hrun.invariant (P := Service.SubmitsSound x.submit) (fun _ _ _ h _ hstep =>
      submitsSound_step h hstep) hquiet.submitsSound
  have hform : form ∈ t.db.forms.rows :=
    SubmitTx.Sound.form_mem (hsound.sound.transactions tx htx) hloaded
  exact grade_of_sound ((formsSound_run hquiet hhomes hforms hrun).forms form hform) body

/-- In any run, a response of the version that its form has now is a well-formed and complete set of
answers to the questions of now, with the exact score. -/
theorem current_responses_well_formed (hquiet : s.Quiet)
    (hhomes : ∀ form ∈ s.db.forms.rows, (s.homes form.id).isSome)
    (hforms : ∀ form ∈ s.db.forms.rows, form.Sound x) (hresponses : s.db.responses.rows = [])
    (haccepted : s.accepted = [])
    (hrun : (serviceSystem x.admin x.submit).Run (fun _ _ _ => True) s es t) :
    ∀ row ∈ t.db.responses.rows, ∀ form ∈ t.db.forms.rows, form.id.text = row.formId →
      row.schemaVersion = form.version →
      ∃ schema verified, row.answers = .object verified ∧
        WellGraded x form schema verified row.totalScore := by
  intro row hrow form hform hid hversion
  obtain ⟨htraced, hknew⟩ := traced_known_run hquiet hhomes hresponses haccepted hrun
  obtain ⟨a, -, -, -, hgraded, hanswers, hscore⟩ :=
    (graded_of_version (htraced row hrow) hknew hform hid).2 hversion
  have hgrade : grade x.validator form a.submission.body = .ok a.graded := hgraded
  rcases grade_of_sound ((formsSound_run hquiet hhomes hforms hrun).forms form hform)
      a.submission.body with
    ⟨errors, herrors⟩ | ⟨g', schema, verified, hg', hverified, hwell⟩
  · rw [hgrade] at herrors
    cases herrors
  · rw [hgrade] at hg'
    obtain rfl := Except.ok.inj hg'
    exact ⟨schema, verified, hanswers.trans hverified, hscore.symm ▸ hwell⟩

end

/-! ### The quiz, answered -/

theorem submits_graded_quiz : ∃ t : Service, ∃ tx ∈ t.submits, ∃ form, tx.form? = some form ∧
    form.slug = ['0'] ∧ ∀ body,
    (∃ errors, grade plainService.validator form body = .error (.validationFailed errors)) ∨
      ∃ g schema verified, grade plainService.validator form body = .ok g ∧
        g.answers = .object verified ∧
        WellGraded plainService form schema verified g.totalScore := by
  obtain ⟨t, hrun, -, hsubmits⟩ := createAndAnswer_runs
  obtain ⟨tx, htx, hslug⟩ :=
    List.mem_map.1 (hsubmits.symm ▸ List.mem_singleton_self (some ['0']) : some ['0'] ∈
      t.submits.map _)
  obtain ⟨form, hform, hslug⟩ := Option.map_eq_some_iff.1 hslug
  exact ⟨t, tx, htx, form, hform, hslug,
    submits_graded (x := plainService) ⟨rfl, rfl⟩ emptyService_forms emptyService_forms hrun tx htx
      form hform⟩

private theorem createAndAnswer_commits :
    ∃ t, (serviceSystem plainService.admin plainService.submit).Run (fun _ _ _ => True) emptyService
    (createAndAnswer ++ [.submit (.commit 0)]) t ∧
      t.db.responses.rows.map (fun row => (row.formId, row.schemaVersion, row.totalScore)) =
      [(surveyId.text, 1, some 50)] ∧
      t.db.forms.rows.map (fun form => (form.id, form.version)) = [(surveyId, 1)] := by
  have hexec : ((serviceSystem plainService.admin plainService.submit).exec emptyService
      (createAndAnswer ++ [.submit (.commit 0)])).any (fun t =>
        t.db.responses.rows.map (fun row => (row.formId, row.schemaVersion, row.totalScore)) =
          [(surveyId.text, 1, some 50)] ∧
          t.db.forms.rows.map (fun form => (form.id, form.version)) = [(surveyId, 1)]) := by
    decide +kernel
  obtain ⟨t, ht, hrows⟩ := (Option.any_eq_true _ _).1 hexec
  exact ⟨t, System.Run.of_exec ht fun _ _ _ _ => trivial, of_decide_eq_true hrows⟩

theorem current_responses_well_formed_quiz :
    ∃ (row : FormResponse) (form : Form) (schema : FormSchema) (verified : List (Text × Value)),
    row.totalScore = some 50 ∧ row.answers = .object verified ∧
      WellGraded plainService form schema verified row.totalScore := by
  obtain ⟨t, hrun, hresponses, hforms⟩ := createAndAnswer_commits
  obtain ⟨row, hrow, hrowId⟩ := List.map_eq_singleton_iff.1 hresponses
  obtain ⟨form, hform, hformId⟩ := List.map_eq_singleton_iff.1 hforms
  obtain ⟨hid, hversion, hscore⟩ : row.formId = surveyId.text ∧ row.schemaVersion = 1 ∧
      row.totalScore = some 50 := by
    simpa using hrowId
  obtain ⟨hid', hversion'⟩ := Prod.mk.inj hformId
  obtain ⟨schema, verified, hanswers, hwell⟩ :=
    current_responses_well_formed (x := plainService) ⟨rfl, rfl⟩ emptyService_forms
    emptyService_forms rfl rfl hrun row (hrow ▸ List.mem_singleton_self row) form
      (hform ▸ List.mem_singleton_self form)
    (hid' ▸ hid.symm) (hversion.trans hversion'.symm)
  exact ⟨row, form, schema, verified, hscore, hanswers, hwell⟩

end FormRespondentRole
