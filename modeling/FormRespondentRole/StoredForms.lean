import FormRespondentRole.FormChecks
import FormRespondentRole.ServiceSubmits

/-!
# Stored forms

The columns of a form pass the checks of a save in every state of the service, whatever requests run
at the same time (`stored_forms_sound`): forms come from the starter templates, from saves and from
copies.  Only the title inside the schema of a fresh form is not checked.

So a stored schema always reads, and no request fails because one does not.
-/

namespace FormRespondentRole

open Foundations Admin

section

variable {x : ServiceLibs} {form : Form} {guildId : Text}

/-! ### What requests write -/

/-- What is stored has been checked, as long as what is read has. -/
def checked (x : ServiceLibs) : Protocol AdminCall (fun c => Except AppError c.Answer) Unit where
  asks _ c := match c with
    | .insertForm form => form.Sound x
    | .updateForm _ _ _ edit => edit.Sound x
    | _ => True
  moves _ c r _ := match c, r with
    | .selectForm .., .ok (some form) => Form.Sound x form
    | _, .error e => ∀ msg, e ≠ .internal msg
    | _, _ => True

def slugCollision : Text := "slug collision after 5 attempts".toList

/-- No internal error but the one about slugs. -/
def Expected {α : Type} (r : Except AppError α) : Prop :=
  ∀ msg, r = .error (.internal msg) → msg = slugCollision

/-- The handlers keep to the protocol, and end without an internal error but the one about slugs. -/
abbrev Checked {α : Type} (x : ServiceLibs) (p : AdminM α) : Prop :=
  p.run.Follows (checked x) (fun _ r => Expected r) ()

section

variable {α β : Type} {c : AdminCall} {formId : Text}

private theorem expected_ok (a : α) : Expected (.ok a : Except AppError α) := fun _ h => by cases h

private theorem expected_error {e : AppError} (h : ∀ msg, e ≠ .internal msg) :
    Expected (.error e : Except AppError α) :=
  fun msg heq => absurd (Except.error.inj heq) (h msg)

private theorem checked_moves_error {e : AppError} : (checked x).moves () c (.error e) () ↔
    ∀ msg, e ≠ .internal msg := by
  cases c <;> exact Iff.rfl

private theorem checked_query_bind {f : c.Answer → AdminM α} (hasks : (checked x).asks () c)
    (h : ∀ a, (checked x).moves () c (.ok a) () → Checked x (f a)) : Checked x (query c >>= f) :=
  Program.follows_ask_bind.2 ⟨hasks, fun _ _ hmove => expected_error (checked_moves_error.1 hmove),
    fun a _ hmove => h a hmove⟩

/-- A statement that stores no form and reads none. -/
theorem checked_plain_bind {f : c.Answer → AdminM α} (hedits : c.editsForms = false)
    (h : ∀ a, Checked x (f a)) :
    Checked x (query c >>= f) := by
  refine checked_query_bind ?_ fun a _ => h a
  cases c with
  | insertForm form => cases hedits
  | updateForm id guildId version edit => cases hedits
  | _ => trivial

private theorem checked_tryQuery_bind {f : Except AppError c.Answer → AdminM α}
    (hasks : (checked x).asks () c) (h : ∀ r, Checked x (f r)) : Checked x (tryQuery c >>= f) :=
  Program.follows_attempt_bind.2 ⟨hasks, fun r _ _ => h r⟩

theorem Checked.bind {p : AdminM α} {f : α → AdminM β} (hp : Checked x p)
    (hf : ∀ a, Checked x (f a)) : Checked x (p >>= f) := by
  refine Program.Follows.except_bind (hp.mono fun _ r hr => ?_)
  cases r with
  | ok a => exact hf a
  | error e => exact fun msg h => hr msg (congrArg Except.error (Except.error.inj h))

theorem Checked.map {p : AdminM α} {f : α → β} (hp : Checked x p) : Checked x (f <$> p) := by
  refine Program.Follows.except_map (hp.mono fun _ r hr => ?_)
  cases r with
  | ok a => exact expected_ok _
  | error e => exact fun msg h => hr msg (congrArg Except.error (Except.error.inj h))

private theorem checked_liftExcept_bind {p : Except AppError α} {f : α → AdminM β}
    (hp : RejectsOnly p) (h : ∀ a, p = .ok a → Checked x (f a)) :
    Checked x (Admin.liftExcept p >>= f) := by
  cases p with
  | error e =>
    obtain ⟨msg, rfl⟩ := hp e rfl
    exact expected_error (by simp)
  | ok a => exact h a rfl

private theorem checked_formUuid_bind {f : Uuid → AdminM α} (h : ∀ u, Checked x (f u)) :
    Checked x (formUuid x.admin formId >>= f) := by
  rw [formUuid]
  cases x.admin.parseUuid formId with
  | none => exact expected_error (by simp)
  | some u => exact h u

/-- Loading a form, which has to be there. -/
theorem checked_selectForm_bind {u : Uuid} {e : AppError} {f : Form → AdminM α}
    (he : ∀ msg, e ≠ .internal msg) (h : ∀ form, Form.Sound x form → Checked x (f form)) :
    Checked x (do match ← query (.selectForm u guildId) with
      | none => throw e
      | some form => f form) := by
  refine checked_query_bind trivial fun form hform => ?_
  cases form with
  | none => exact expected_error he
  | some form => exact h form hform

private theorem enqueueEach_checked (keys : List LinkKey) : Checked x (enqueueEach keys) := by
  induction keys with
  | nil => exact expected_ok _
  | cons key keys ih => exact checked_tryQuery_bind trivial fun _ => ih

private theorem resyncLinks_checked {parsed : FormSchema} (keys : List LinkKey) :
    Checked x (resyncLinks parsed keys) := by
  induction keys with
  | nil => exact expected_ok _
  | cons key keys ih =>
    refine checked_plain_bind rfl fun link => ?_
    cases link with
    | none => exact expected_error (by simp [rowNotFound])
    | some link => exact checked_tryQuery_bind trivial fun _ => ih.bind fun _ => expected_ok _

private theorem insertWithRetry_checked (slugs : List Text) (h : form.Sound x) :
    Checked x (insertWithRetry form slugs) := by
  induction slugs with
  | nil => exact fun msg heq => (AppError.internal.inj (Except.error.inj heq)).symm
  | cons slug slugs ih =>
    refine checked_query_bind h fun inserted _ => ?_
    cases inserted with
    | true => exact expected_ok _
    | false => exact ih

private theorem listData_checked : Checked x (listData x.admin guildId) :=
  checked_plain_bind rfl fun _ => checked_plain_bind rfl fun _ => expected_ok _

private theorem createForm_checked {draws : Draws} {templateName : Text} {title : Option Text} :
    Checked x (createForm x.admin guildId draws templateName title) :=
  checked_liftExcept_bind freshForm_rejects fun _ hform =>
    insertWithRetry_checked _ (freshForm_sound hform)

private theorem builderData_checked : Checked x (builderData x.admin guildId formId) :=
  checked_formUuid_bind fun _ => checked_selectForm_bind (by simp [formNotFound]) fun _ _ =>
    checked_plain_bind rfl fun _ => checked_plain_bind rfl fun _ => expected_ok _

private theorem updateForm_checked {body : UpdateBody} :
    Checked x (updateForm x.admin guildId formId body) := by
  refine checked_formUuid_bind fun u => checked_liftExcept_bind (checkUpdate_rejects _ _)
    fun checkedEdit hchecked => ?_
  refine checked_query_bind (checkUpdate_sound hchecked) fun count _ => ?_
  by_cases hcount : count = (0 : Nat)
  · simp only [hcount, if_true]
    refine checked_plain_bind rfl fun version => ?_
    cases version with
    | none => exact expected_error (by simp [formNotFound])
    | some version => exact expected_error (by simp)
  · simp only [hcount, if_false]
    refine checked_plain_bind rfl fun keys => (resyncLinks_checked keys).bind fun warnings =>
      checked_plain_bind rfl fun version => ?_
    cases version with
    | none => exact expected_error (by simp [rowNotFound])
    | some version => exact expected_ok _

private theorem deleteForm_checked : Checked x (deleteForm x.admin guildId formId) := by
  refine checked_formUuid_bind fun u => checked_plain_bind rfl fun owns => ?_
  cases owns with
  | false => exact expected_error (by simp [formNotFound])
  | true =>
    refine checked_plain_bind rfl fun keys => checked_plain_bind rfl fun _ =>
      checked_plain_bind rfl fun _ => ?_
    refine checked_plain_bind rfl fun _ => checked_plain_bind rfl fun deleted => ?_
    by_cases hdeleted : deleted = (0 : Nat)
    · simp only [hdeleted, if_true]
      exact expected_error (by simp [formNotFound])
    · simp only [hdeleted, if_false]
      exact checked_plain_bind rfl fun _ => (enqueueEach_checked keys).bind fun _ => expected_ok _

private theorem duplicateForm_checked {draws : Draws} :
    Checked x (duplicateForm x.admin guildId formId draws) := by
  refine checked_formUuid_bind fun u => checked_selectForm_bind (by simp [formNotFound])
    fun src hsrc => ?_
  -- the copy has the columns that are checked
  exact insertWithRetry_checked _ ⟨hsrc.schema, hsrc.quiz, hsrc.passingScore, hsrc.minAccountAge,
    hsrc.maxAttempts, hsrc.cooldown,
    hsrc.policy, hsrc.webhook⟩

private theorem responsesData_checked : Checked x (responsesData x.admin guildId formId) :=
  checked_formUuid_bind fun _ => checked_selectForm_bind (by simp [formNotFound]) fun _ _ =>
    checked_plain_bind rfl fun _ => expected_ok _

/-- The schema of the export reads. -/
theorem responsesCsv_checked : Checked x (responsesCsv x.admin guildId formId) := by
  refine checked_formUuid_bind fun u => checked_selectForm_bind (by simp [formNotFound])
    fun form hform => ?_
  obtain ⟨schema, hreads, -⟩ := hform.schema
  have hread : x.admin.schemaFromValue form.schema = .ok schema := schemaFromValue_ok hreads
  rw [hread]
  exact checked_liftExcept_bind (rejectsOnly_ok schema) fun _ _ => checked_plain_bind rfl fun _ =>
    expected_ok _

private theorem deleteResponse_checked {responseId : Text} :
    Checked x (deleteResponse x.admin guildId formId responseId) := by
  refine checked_formUuid_bind fun u => ?_
  cases x.admin.parseUuid responseId with
  | none => exact expected_error (by simp)
  | some respId =>
    refine checked_plain_bind rfl fun owns => ?_
    cases owns with
    | false => exact expected_error (by simp [formNotFound])
    | true =>
      refine checked_plain_bind rfl fun discordId => ?_
      cases discordId with
      | none => exact expected_error (by simp)
      | some discordId => exact checked_tryQuery_bind trivial fun _ => expected_ok _

private theorem deleteAllResponses_checked :
    Checked x (deleteAllResponses x.admin guildId formId) := by
  refine checked_formUuid_bind fun u => checked_plain_bind rfl fun owns => ?_
  cases owns with
  | false => exact expected_error (by simp [formNotFound])
  | true =>
    refine checked_plain_bind rfl fun keys => checked_plain_bind rfl fun _ => ?_
    exact (enqueueEach_checked keys).bind fun _ => expected_ok _

private theorem roleConfigData_checked {roleId : Text} :
    Checked x (roleConfigData x.admin guildId roleId) := by
  refine checked_plain_bind rfl fun link => ?_
  cases link with
  | none => exact expected_error (by simp [linkNotFound])
  | some link => exact checked_plain_bind rfl fun _ => expected_ok _

private theorem boundSchema_checked {body : RoleConfigBody} :
    Checked x (boundSchema x.admin guildId body) := by
  rw [boundSchema]
  cases body.boundFormId with
  | none => exact expected_ok _
  | some fid =>
    dsimp only
    cases x.admin.parseUuid fid with
    | none => exact expected_error (by simp)
    | some u => exact checked_selectForm_bind (by simp) fun form _ => expected_ok _

private theorem roleConfigSave_checked {roleId : Text} {body : RoleConfigBody} :
    Checked x (roleConfigSave x.admin guildId roleId body) := by
  refine checked_plain_bind rfl fun link => ?_
  cases link with
  | none => exact expected_error (by simp [linkNotFound])
  | some link =>
    refine boundSchema_checked.bind fun schema =>
      checked_liftExcept_bind (parseRoleConfig_rejects _ _ _ _) fun parsed _ => ?_
    refine checked_plain_bind rfl fun _ => checked_plain_bind rfl fun _ => ?_
    have hsaved : Checked x (saveViewPermission guildId parsed.viewPermission) := by
      cases parsed.viewPermission with
      | none => exact expected_ok _
      | some viewPermission =>
        refine ⟨trivial, fun r _ hmove => ?_⟩
        cases r with
        | ok u => exact expected_ok u
        | error e => exact expected_error (checked_moves_error.1 hmove)
    exact hsaved.bind fun _ => checked_plain_bind rfl fun _ =>
      checked_tryQuery_bind trivial fun _ => expected_ok _

private theorem setViewPermission_checked {viewPermission : Text} :
    Checked x (setViewPermission guildId viewPermission) := by
  rw [setViewPermission]
  split
  · exact expected_error (by simp)
  · exact checked_plain_bind rfl fun _ => expected_ok _

private theorem program_checked (guildId : Text) (req : AdminRequest) :
    Checked x (req.program x.admin guildId) := by
  cases req with
  | listData => exact listData_checked.map
  | createForm draws templateName title => exact createForm_checked.map
  | builderData formId => exact builderData_checked.map
  | updateForm formId body => exact updateForm_checked.map
  | deleteForm formId => exact deleteForm_checked.map
  | duplicateForm formId draws => exact duplicateForm_checked.map
  | responsesData formId => exact responsesData_checked.map
  | responsesCsv formId => exact responsesCsv_checked.map
  | deleteResponse formId responseId => exact deleteResponse_checked.map
  | deleteAllResponses formId => exact deleteAllResponses_checked.map
  | roleConfigData roleId => exact roleConfigData_checked.map
  | roleConfigSave roleId body => exact roleConfigSave_checked.map
  | setViewPermission viewPermission => exact setViewPermission_checked.map

/-! ### Runs of the service -/

/-- The forms are sound, and the requests store sound ones. -/
structure Service.FormsSound (x : ServiceLibs) (s : Service) : Prop where
  remembers : s.Remembers
  forms : ∀ form ∈ s.db.forms.rows, form.Sound x
  requests : ∀ task ∈ s.requests, task.conn.program.Follows (checked x) (fun _ r => Expected r) ()

variable {s s' t : Service} {e : ServiceEvent} {d d' : Database}

/-- What a statement answers is as the protocol says. -/
theorem checked_moves_answer {rows : List RowRef} (h : ∀ form ∈ d.forms.rows, form.Sound x)
    (c : AdminCall) :
    (checked x).moves () c (.ok (d.answerOn rows c)) () := by
  cases c with
  | selectForm u guild =>
    change (checked x).moves () (.selectForm u guild) (.ok (d.form? u guild)) ()
    cases hform : d.form? u guild with
    | none => trivial
    | some form => exact h form (List.mem_of_find?_eq_some hform)
  | _ => trivial

private theorem refusalOn_database {rows : List RowRef} {c : AdminCall} {err : AppError}
    (h : d.refusalOn rows c = some err) :
    ∃ msg, err = .database msg := by
  have hrefusal : d.refusal c = some err := by
    cases c with
    | updateForm id guildId version edit =>
      rw [Database.refusalOn] at h
      split at h
      · cases h
      · exact h
    | _ => exact h
  cases c with
  | updateForm id guildId version edit =>
    obtain ⟨-, herr⟩ := Option.ite_none_right_eq_some.1 hrefusal
    exact ⟨_, (Option.some.inj herr).symm⟩
  | insertForm form =>
    obtain ⟨-, herr⟩ := Option.ite_none_right_eq_some.1 hrefusal
    exact ⟨_, (Option.some.inj herr).symm⟩
  | _ => cases hrefusal

/-- A request goes on with what the statement answers on the tables as it finds them, or with an
error of the database. -/
theorem program_of_finish {held : RowRef → Bool} {outcome : Outcome} {now : Instant}
    {conn next : Connection Reply} (h : conn.finish held outcome now d = some (next, d')) :
    ∃ c k r, conn.program = .call c k ∧ next.program = k r ∧
      ((∃ msg, r = .error (.database msg)) ∨ ∃ rows, r = .ok ((conn.view d).answerOn rows c)) := by
  rw [Connection.finish] at h
  split at h
  · rename_i c k rows hprogram hfound
    refine ⟨c, k, ?_⟩
    cases outcome with
    | failed e =>
      obtain ⟨rfl, -⟩ := Prod.mk.inj (Option.some.inj h)
      exact ⟨_, hprogram, rfl, Or.inl ⟨e, rfl⟩⟩
    | done =>
      obtain ⟨-, h⟩ := Option.ite_none_left_eq_some.1 h
      split at h
      · rename_i hrefusal
        obtain ⟨msg, rfl⟩ := refusalOn_database hrefusal
        obtain ⟨rfl, -⟩ := Prod.mk.inj (Option.some.inj h)
        exact ⟨_, hprogram, rfl, Or.inl ⟨msg, rfl⟩⟩
      · obtain ⟨rfl, -⟩ := Prod.mk.inj (Option.some.inj h)
        exact ⟨_, hprogram, rfl, Or.inr ⟨rows, rfl⟩⟩
    | lost e =>
      obtain ⟨-, h⟩ := Option.ite_none_left_eq_some.1 h
      split at h
      · rename_i hrefusal
        obtain ⟨msg, rfl⟩ := refusalOn_database hrefusal
        obtain ⟨rfl, -⟩ := Prod.mk.inj (Option.some.inj h)
        exact ⟨_, hprogram, rfl, Or.inl ⟨msg, rfl⟩⟩
      · obtain ⟨rfl, -⟩ := Prod.mk.inj (Option.some.inj h)
        exact ⟨_, hprogram, rfl, Or.inl ⟨e, rfl⟩⟩
  · cases h

/-- The forms after a step. -/
theorem forms_sound_step (h : s.FormsSound x) (hstep : serviceStep x.admin x.submit s e = some s') :
    ∀ form ∈ s'.db.forms.rows, form.Sound x := by
  intro form hform
  cases forms_of_serviceStep h.remembers hstep with
  | kept hforms => exact h.forms form (hforms ▸ hform)
  | finished hparty hafter hfresh =>
    have hchecked := h.requests _ (mem_of_partyAt hparty)
    cases hafter with
    | kept hsub => exact h.forms form (hsub.subset hform)
    | inserted hprogram hslug hforms =>
      rw [hprogram] at hchecked
      rw [hforms] at hform
      rcases List.mem_append.1 hform with hform | hform
      · exact h.forms form hform
      · obtain rfl := List.mem_singleton.1 hform
        exact hchecked.1
    | updated hprogram hp hforms =>
      rw [hprogram] at hchecked
      rw [hforms] at hform
      obtain ⟨row, hrow, rfl⟩ := Table.mem_update.1 hform
      split
      · exact hchecked.1
      · exact h.forms row hrow

theorem formsSound_step (h : s.FormsSound x) (hstep : serviceStep x.admin x.submit s e = some s') :
    s'.FormsSound x := by
  refine ⟨remembers_step h.remembers hstep, forms_sound_step h hstep, ?_⟩
  cases e with
  | submit e =>
    rw [serviceStep] at hstep
    split at hstep
    · cases hstep
    · obtain ⟨state, -, rfl⟩ := Option.map_eq_some_iff.1 hstep
      exact h.requests
  | request guildId req =>
    obtain rfl := Option.some.inj hstep
    intro task htask
    rcases List.mem_cons.1 htask with rfl | htask
    · exact program_checked guildId req
    · exact h.requests task htask
  | start i =>
    simp only [serviceStep, Option.bind_eq_some_iff, Option.map_eq_some_iff] at hstep
    obtain ⟨⟨pre, task, post⟩, hparty, conn, hstart, rfl⟩ := hstep
    intro task' htask'
    rcases mem_middle.1 htask' with rfl | htask'
    · obtain ⟨c, k, -, -, rfl⟩ := Connection.start_eq_some hstart
      exact h.requests task (mem_of_partyAt hparty)
    · exact h.requests task' (mem_of_partyAt_others hparty htask')
  | finish i outcome now =>
    simp only [serviceStep, Option.bind_eq_some_iff, Option.ite_none_left_eq_some,
      Option.map_eq_some_iff] at hstep
    obtain ⟨⟨pre, task, post⟩, hparty, -, ⟨conn, d'⟩, hfinish, rfl⟩ := hstep
    intro task' htask'
    rcases mem_middle.1 htask' with rfl | htask'
    · have htask := mem_of_partyAt hparty
      obtain ⟨c, k, r, hprogram, hnext, hr⟩ := program_of_finish hfinish
      have hchecked := h.requests task htask
      rw [hprogram] at hchecked
      have hanswer : (checked x).moves () c r () →
          conn.program.Follows (checked x) (fun _ r => Expected r) () := by
        rw [hnext]
        exact hchecked.2 r ()
      refine hanswer ?_
      rcases hr with ⟨msg, rfl⟩ | ⟨rows, rfl⟩
      · exact checked_moves_error.2 (by simp)
      · have hsub := (h.remembers.requests task htask).forms_view (d := s.db)
        exact checked_moves_answer (fun form hform => h.forms form (hsub.subset hform)) c
    · exact h.requests task' (mem_of_partyAt_others hparty htask')
  | close i =>
    simp only [serviceStep, Option.map_eq_some_iff] at hstep
    obtain ⟨⟨pre, task, post⟩, hparty, rfl⟩ := hstep
    exact fun task' htask' => h.requests task' (mem_of_partyAt_others hparty htask')
  | link c =>
    simp only [serviceStep] at hstep
    split at hstep
    · cases hstep
    · obtain rfl := Option.some.inj hstep
      exact h.requests

theorem formsSound_run {es : List ServiceEvent} (hquiet : s.Quiet)
    (hhomes : ∀ form ∈ s.db.forms.rows, (s.homes form.id).isSome)
    (hforms : ∀ form ∈ s.db.forms.rows, form.Sound x)
    (hrun : (serviceSystem x.admin x.submit).Run (fun _ _ _ => True) s es t) : t.FormsSound x := by
  refine hrun.invariant (P := Service.FormsSound x) (fun _ _ _ h _ hstep => formsSound_step h hstep)
    ⟨hquiet.remembers hhomes, hforms, fun task htask => ?_⟩
  rw [hquiet.2] at htask
  exact absurd htask List.not_mem_nil

/-- In any run of the service the stored forms pass the checks of a save, and a request that is done
has not failed internally, unless no slug was free. -/
theorem stored_forms_sound {es : List ServiceEvent} (hquiet : s.Quiet)
    (hhomes : ∀ form ∈ s.db.forms.rows, (s.homes form.id).isSome)
    (hforms : ∀ form ∈ s.db.forms.rows, form.Sound x)
    (hrun : (serviceSystem x.admin x.submit).Run (fun _ _ _ => True) s es t) :
    (∀ form ∈ t.db.forms.rows, form.Sound x) ∧
      ∀ task ∈ t.requests, ∀ msg, task.conn.program = .pure (.error (.internal msg)) →
        msg = slugCollision := by
  have ht := formsSound_run hquiet hhomes hforms hrun
  refine ⟨ht.forms, fun task htask msg hprogram => ?_⟩
  have hchecked := ht.requests task htask
  rw [hprogram] at hchecked
  exact hchecked msg rfl

end

end

/-! ### A quiz from its template -/

def plainService : ServiceLibs where
  libs := plainLibs
  web := hookLibs
  parseUuid := Uuid.parseHyphenated
  toRfc3339 _ := []
  displayF64 _ := []
  toLowercase := id
  serdeError _ := []
  hashtextextended _ := 0
  baseUrl := []

/-- Before anyone has come. -/
def emptyService : Service :=
  ⟨⟨Table.empty, Table.empty, Table.empty, Table.empty, JobTable.empty⟩, [], [], [], fun _ => none⟩

theorem emptyService_forms {P : Form → Prop} : ∀ form ∈ emptyService.db.forms.rows, P form :=
  fun _ hform => absurd hform List.not_mem_nil

/-- A quiz is created, and answered with a right answer and two wrong ones. -/
def createAndAnswer : List ServiceEvent :=
  .request ['g'] (.createForm ⟨surveyId, ['p'], fun n => Text.ofNat n⟩ "server_quiz".toList
    (some ['Q'])) :: stepsOf 0 1 ++
    ([.begin ⟨['0'], ['m'], ['M'],
      ⟨.object (Value.ofEntries [("q1".toList, .str "lounge"), ("q2".toList, .str "yes"),
        ("q3".toList, .array [.str "doxx"]), ("q4".toList, .str "modteam"),
          ("q_agree".toList, .bool true)]), 1⟩⟩ 1, .advance 0 .load,
      .advance 0 (.vet 1 1 (.ok [])), .advance 0 .lock, .advance 0 (.read none),
        .advance 0 (.write 2 1)] : List SubmitEvent).map .submit

theorem createAndAnswer_runs :
    ∃ t, (serviceSystem plainService.admin plainService.submit).Run
    (fun _ _ _ => True) emptyService createAndAnswer t ∧
    t.db.forms.rows.map (fun form => (form.slug, form.isQuiz)) = [(['0'], true)] ∧
    t.submits.map (fun tx => tx.form?.map (·.slug)) = [some ['0']] := by
  have hexec : ((serviceSystem plainService.admin plainService.submit).exec
      emptyService createAndAnswer).any (fun t =>
      t.db.forms.rows.map (fun form => (form.slug, form.isQuiz)) = [(['0'], true)] ∧
        t.submits.map (fun tx => tx.form?.map (·.slug)) = [some ['0']]) := by
    decide +kernel
  obtain ⟨t, ht, hseen⟩ := (Option.any_eq_true _ _).1 hexec
  exact ⟨t, System.Run.of_exec ht fun _ _ _ _ => trivial, of_decide_eq_true hseen⟩

theorem stored_forms_sound_quiz :
    ∃ t : Service, t.db.forms.rows.map (fun form => (form.slug, form.isQuiz)) = [(['0'], true)] ∧
    ∀ form ∈ t.db.forms.rows, form.Sound plainService := by
  obtain ⟨t, hrun, hforms, -⟩ := createAndAnswer_runs
  exact ⟨t, hforms, (stored_forms_sound (x := plainService)
    ⟨rfl, rfl⟩ emptyService_forms emptyService_forms hrun).1⟩

end FormRespondentRole
