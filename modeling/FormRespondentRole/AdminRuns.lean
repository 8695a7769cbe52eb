import FormRespondentRole.ResponseHandlers
import FormRespondentRole.RoleConfigHandlers

/-!
# Runs of admin handlers

A handler alone with the database.  `AdminM.exec` runs it through a weather, one statement after the
other; a run in calm weather meets no failure (`AdminM.calmly`).
-/

namespace FormRespondentRole

open Foundations

/-- The statement gets to the database. -/
def Outcome.carried : Outcome → Bool
  | failed _ => false
  | _ => true

/-- The result of a handler that meets this weather, with the session it leaves. -/
def AdminM.exec {α : Type} (weather : Weather) (p : AdminM α) (s : Session) :
    Except AppError α × Session :=
  p.run.run (serveSql weather) s

/-- The session after a statement that is carried out. -/
def Session.after (weather : Weather) (c : AdminCall) (s : Session) : Session :=
  Session.exec (weather.clock s.calls) { s with calls := s.calls + 1 } c

section

variable {α β : Type} {weather : Weather} {s : Session} {c : AdminCall}

@[simp] theorem exec_pure (a : α) : (pure a : AdminM α).exec weather s = (.ok a, s) := rfl

@[simp] theorem exec_throw (e : AppError) : (throw e : AdminM α).exec weather s = (.error e, s) :=
  rfl

@[simp] theorem throw_bind (e : AppError) (f : α → AdminM β) :
    (throw e >>= f : AdminM β) = throw e := rfl

theorem exec_query_bind (c : AdminCall) (f : c.Answer → AdminM α) :
    (query c >>= f).exec weather s = match serveSql weather c s with
      | (.ok a, next) => (f a).exec weather next
      | (.error e, next) => (.error e, next) := by
  rw [AdminM.exec, query, Program.run_ask_bind, Program.run_call]
  rcases serveSql weather c s with ⟨_ | _, next⟩ <;> rfl

theorem exec_tryQuery_bind (c : AdminCall) (f : Except AppError c.Answer → AdminM α) :
    (tryQuery c >>= f).exec weather s = (f (serveSql weather c s).1).exec weather
    (serveSql weather c s).2 := rfl

theorem exec_bind (p : AdminM α) (f : α → AdminM β) :
    (p >>= f).exec weather s = match p.exec weather s with
      | (.ok a, next) => (f a).exec weather next
      | (.error e, next) => (.error e, next) := by
  change Program.run (serveSql weather) (p.run >>= _) s = _
  rw [Program.run_bind, AdminM.exec]
  rcases p.run.run (serveSql weather) s with ⟨_ | _, next⟩ <;> rfl

theorem exec_bind_of_ok {p : AdminM α} {f : α → AdminM β} {a : α} {next : Session}
    (h : p.exec weather s = (.ok a, next)) :
    (p >>= f).exec weather s = (f a).exec weather next := by
  rw [exec_bind, h]

theorem exec_bind_of_error {p : AdminM α} {f : α → AdminM β} {e : AppError} {next : Session}
    (h : p.exec weather s = (.error e, next)) : (p >>= f).exec weather s = (.error e, next) := by
  rw [exec_bind, h]

theorem serveSql_done (h : weather.outcome s.calls = .done) (hr : s.current.refusal c = none) :
    serveSql weather c s = (.ok (s.current.answer c), s.after weather c) := by
  simp only [serveSql, h, hr]
  rfl

theorem serveSql_failed {e : Text} (h : weather.outcome s.calls = .failed e) :
    serveSql weather c s = (.error (.database e), { s with calls := s.calls + 1 }) := by
  simp only [serveSql, h]

theorem serveSql_lost {e : Text} (h : weather.outcome s.calls = .lost e)
    (hr : s.current.refusal c = none) :
    serveSql weather c s = (.error (.database e), s.after weather c) := by
  simp only [serveSql, h, hr]
  rfl

theorem serveSql_refused {e : AppError} (h : (weather.outcome s.calls).carried = true)
    (hr : s.current.refusal c = some e) :
    serveSql weather c s = (.error e, { s with calls := s.calls + 1 }) := by
  cases houtcome : weather.outcome s.calls with
  | failed e =>
    rw [houtcome] at h
    cases h
  | done => simp only [serveSql, houtcome, hr]
  | lost e => simp only [serveSql, houtcome, hr]

theorem exec_query_of_done {f : c.Answer → AdminM α} (h : weather.outcome s.calls = .done)
    (hr : s.current.refusal c = none) :
    (query c >>= f).exec weather s = (f (s.current.answer c)).exec weather (s.after weather c) := by
  rw [exec_query_bind, serveSql_done h hr]

/-- What a run leaves, by its first statement: it goes well, or it ends the run, carried out or
not. -/
theorem exec_query_leaves {P : Session → Prop} {f : c.Answer → AdminM α}
    (hr : s.current.refusal c = none) (hfailed : P { s with calls := s.calls + 1 })
    (hlost : P (s.after weather c))
    (hdone : P ((f (s.current.answer c)).exec weather (s.after weather c)).2) :
        P ((query c >>= f).exec weather s).2 := by
  rw [exec_query_bind]
  cases h : weather.outcome s.calls with
  | done =>
    rw [serveSql_done h hr]
    exact hdone
  | failed e =>
    rw [serveSql_failed h]
    exact hfailed
  | lost e =>
    rw [serveSql_lost h hr]
    exact hlost

end

/-! ### Re-syncs of links -/

/-- The queue after an `enqueue_config_sync` as the n-th statement. -/
def JobTable.resynced (weather : Weather) (n : Nat) (key : LinkKey) (t : JobTable) : JobTable :=
  if (weather.outcome n).carried then
    t.enqueue (weather.clock n) .configSync (configSyncPayload key.1 key.2) configSyncDelaySecs
  else t

/-- The queue after one such statement for each link, from the n-th on. -/
def JobTable.resyncedEach (weather : Weather) : Nat → List LinkKey → JobTable → JobTable
  | _, [], t => t
  | n, key :: keys, t => resyncedEach weather (n + 1) keys (t.resynced weather n key)

/-- The queue after the loop of a save, which reads each link first and ends where it cannot. -/
def JobTable.resyncedSaved (weather : Weather) : Nat → List LinkKey → JobTable → JobTable
  | _, [], t => t
  | n, key :: keys, t =>
    match weather.outcome n with
    | .done => resyncedSaved weather (n + 2) keys (t.resynced weather (n + 1) key)
    | _ => t

section

variable {weather : Weather} {d : Database} {n : Nat}

theorem serveSql_resync (guildId roleId : Text) :
    (serveSql weather (.enqueueConfigSync guildId roleId) ⟨d, none, n⟩).2 =
      ⟨{ d with jobs := d.jobs.resynced weather n (guildId, roleId) }, none, n + 1⟩ := by
  rw [JobTable.resynced]
  cases h : weather.outcome n with
  | done => rw [serveSql_done h rfl]; rfl
  | failed e => rw [serveSql_failed h]; rfl
  | lost e => rw [serveSql_lost h rfl]; rfl

theorem exec_enqueueEach (keys : List LinkKey) :
    (Admin.enqueueEach keys).exec weather ⟨d, none, n⟩ =
      (.ok (), ⟨{ d with jobs := d.jobs.resyncedEach weather n keys }, none, n + keys.length⟩) := by
  induction keys generalizing d n with
  | nil => rfl
  | cons key keys ih =>
    rw [Admin.enqueueEach, exec_tryQuery_bind, serveSql_resync, ih]
    simp only [JobTable.resyncedEach, List.length_cons, Nat.add_assoc, Nat.add_comm 1]

/-- The loop of a save leaves the queue as described, and everything else. -/
theorem exec_resyncLinks (weather : Weather) (n : Nat) (parsed : FormSchema) {keys : List LinkKey}
    (hkeys : ∀ key ∈ keys, (d.roleLinks.rows.find? (·.key = key)).isSome) :
    ∃ r m, (Admin.resyncLinks parsed keys).exec weather ⟨d, none, n⟩ =
      (r, ⟨{ d with jobs := d.jobs.resyncedSaved weather n keys }, none, m⟩) := by
  induction keys generalizing d n with
  | nil => exact ⟨_, _, rfl⟩
  | cons key keys ih =>
    obtain ⟨link, hlink⟩ := Option.isSome_iff_exists.1 (hkeys key List.mem_cons_self)
    rw [Admin.resyncLinks, exec_query_bind, JobTable.resyncedSaved]
    cases h : weather.outcome n with
    | failed e => exact ⟨_, _, by rw [serveSql_failed h]⟩
    | lost e => exact ⟨_, _, by rw [serveSql_lost h rfl]; rfl⟩
    | done =>
      rw [serveSql_done h rfl]
      have hanswer : (Session.current ⟨d, none, n⟩).answer (.selectLink key.1 key.2) = some link :=
        hlink
      have hafter : Session.after weather (.selectLink key.1 key.2) ⟨d, none, n⟩ =
        ⟨d, none, n + 1⟩ := rfl
      simp only [hanswer, hafter]
      obtain ⟨r, m, hrest⟩ :=
        ih (d := { d with jobs := d.jobs.resynced weather (n + 1) key }) (n := n + 2)
        fun key hkey => hkeys key (List.mem_cons_of_mem _ hkey)
      rw [exec_tryQuery_bind, serveSql_resync, exec_bind, hrest]
      cases r with
      | ok warnings => exact ⟨_, _, rfl⟩
      | error e => exact ⟨_, _, rfl⟩

end

/-! ### Calm weather -/

def calm (clock : Nat → Instant) : Weather := ⟨clock, fun _ => .done⟩

theorem exec_calm {α : Type} {clock : Nat → Instant} {s : Session} {c : AdminCall}
    {f : c.Answer → AdminM α} (hr : s.current.refusal c = none) :
    (query c >>= f).exec (calm clock) s = (f (s.current.answer c)).exec (calm clock)
    (s.after (calm clock) c) :=
  exec_query_of_done rfl hr

/-- What a handler answers and leaves when no statement fails. -/
def AdminM.calmly {α : Type} (clock : Nat → Instant) (p : AdminM α) (d : Database) :
    Except AppError α × Database :=
  let r := p.exec (calm clock) ⟨d, none, 0⟩
  (r.1, r.2.db)

theorem JobTable.nextId_resyncedEach (clock : Nat → Instant) (n : Nat) (keys : List LinkKey)
    (t : JobTable) :
    (t.resyncedEach (calm clock) n keys).nextId = t.nextId + keys.length := by
  induction keys generalizing n t with
  | nil => rfl
  | cons key keys ih =>
    rw [resyncedEach, ih, List.length_cons]
    exact Nat.add_right_comm _ _ _

private theorem JobTable.nextId_resyncedSaved (clock : Nat → Instant) (n : Nat)
    (keys : List LinkKey) (t : JobTable) :
    (t.resyncedSaved (calm clock) n keys).nextId = t.nextId + keys.length := by
  induction keys generalizing n t with
  | nil => rfl
  | cons key keys ih =>
    change (resyncedSaved (calm clock) (n + 2) keys _).nextId = _
    rw [ih, List.length_cons]
    exact Nat.add_right_comm _ _ _

/-! ### Calm runs -/

namespace Database

/-- A form is gone, with its responses and its bindings, as they are found under this text. -/
def cascade (d : Database) (id : Uuid) (guildId formId : Text) : Database :=
  { d with
    forms := d.forms.delete fun form => form.id = id ∧ form.guildId = guildId
    roleLinks := d.roleLinks.update (·.formId = some formId) unbindSet
    responses := d.responses.delete (·.formId = formId) }

def boundKeys (d : Database) (formId : Text) : List LinkKey :=
  (d.boundLinks formId).map RoleLink.key

theorem find_boundKeys (d : Database) (formId : Text) :
    ∀ key ∈ d.boundKeys formId, (d.roleLinks.rows.find? (·.key = key)).isSome := by
  intro key hkey
  obtain ⟨link, hlink, rfl⟩ := List.mem_map.1 hkey
  exact List.find?_isSome.2 ⟨link, (List.mem_filter.1 hlink).1, decide_eq_true rfl⟩

theorem form?_eq_some {d : Database} {id : Uuid} {guildId : Text} {form : Form}
    (h : d.form? id guildId = some form) :
    form ∈ d.forms.rows ∧ form.id = id ∧ form.guildId = guildId :=
  ⟨List.mem_of_find?_eq_some h,
    of_decide_eq_true (List.find?_some (p := fun f : Form =>
      decide (f.id = id ∧ f.guildId = guildId)) h)⟩

end Database

section

open Admin

variable {libs : AdminLibs} {clock : Nat → Instant} {guildId formId : Text} {u : Uuid}
  {d : Database}

theorem ownsForm_answer (id : Uuid) (n : Nat) :
    (Session.current ⟨d, none, n⟩).answer (.ownsForm id guildId) = (d.form? id guildId).isSome :=
  rfl

theorem exec_deleteForm (h : libs.parseUuid formId = some u) :
    (deleteForm libs guildId formId).exec (calm clock) ⟨d, none, 0⟩ = match d.form? u guildId with
      | none => (.error formNotFound, ⟨d, none, 1⟩)
      | some _ => (.ok (json [("success", .bool true)]),
          ⟨{ d.cascade u guildId formId with jobs := d.jobs.resyncedEach (calm clock) 7
                                               (d.boundKeys formId) }, none,
            7 + (d.boundKeys formId).length⟩) := by
  simp only [deleteForm, formUuid, h, pure_bind, throw_bind]
  rw [exec_calm rfl, ownsForm_answer]
  cases hform : d.form? u guildId with
  | none => rfl
  | some form =>
    simp only [Option.isSome_some, Bool.not_true, Bool.false_eq_true, if_false]
    rw [exec_calm rfl, exec_calm rfl, exec_calm rfl, exec_calm rfl, exec_calm rfl]
    split
    · rename_i hzero
      obtain ⟨hmem, hkey⟩ := Database.form?_eq_some hform
      have hnone := List.filter_eq_nil_iff.1 (List.length_eq_zero_iff.1 hzero) form hmem
      exact absurd (decide_eq_true hkey) hnone
    · rw [exec_calm rfl]
      exact (exec_bind_of_ok (exec_enqueueEach _)).trans rfl

theorem exec_deleteAllResponses (h : libs.parseUuid formId = some u) :
    (deleteAllResponses libs guildId formId).exec (calm clock) ⟨d, none, 0⟩ =
      match d.form? u guildId with
      | none => (.error formNotFound, ⟨d, none, 1⟩)
      | some _ => (.ok (json [("success", .bool true),
        ("deleted", jsonNat (d.formResponses formId).length)]),
          ⟨{ d with
            responses := d.responses.delete (·.formId = formId)
            jobs := d.jobs.resyncedEach (calm clock) 3 (d.boundKeys formId) }, none,
            3 + (d.boundKeys formId).length⟩) := by
  simp only [deleteAllResponses, formUuid, h, pure_bind, throw_bind]
  rw [exec_calm rfl, ownsForm_answer]
  cases hform : d.form? u guildId with
  | none => rfl
  | some form =>
    simp only [Option.isSome_some, Bool.not_true, Bool.false_eq_true, if_false]
    rw [exec_calm rfl, exec_calm rfl]
    exact (exec_bind_of_ok (exec_enqueueEach _)).trans rfl

theorem exec_deleteResponse {responseId : Text} {r : Uuid} (h : libs.parseUuid formId = some u)
    (hr : libs.parseUuid responseId = some r) :
    (deleteResponse libs guildId formId responseId).exec (calm clock) ⟨d, none, 0⟩ =
      match d.form? u guildId with
      | none => (.error formNotFound, ⟨d, none, 1⟩)
      | some _ => match d.responses.rows.find? fun row =>
        decide (row.id = r ∧ row.formId = formId) with
        | none => (.error (.notFound "Response not found.".toList),
            ⟨{ d with responses := d.responses.delete fun row => row.id = r ∧ row.formId = formId },
              none, 2⟩)
        | some row => (.ok (json [("success", .bool true), ("discord_id", .string row.discordId)]),
            ⟨{ d with
              responses := d.responses.delete fun row => row.id = r ∧ row.formId = formId
              jobs := d.jobs.enqueue (clock 2) .playerSync
                (PlayerSyncPayload.updated row.discordId).toValue 0 },
              none, 3⟩) := by
  simp only [deleteResponse, formUuid, h, hr, pure_bind, throw_bind]
  rw [exec_calm rfl, ownsForm_answer]
  cases hform : d.form? u guildId with
  | none => rfl
  | some form =>
    simp only [Option.isSome_some, Bool.not_true, Bool.false_eq_true, if_false]
    rw [exec_calm rfl]
    have hanswer : (Session.current
      (Session.after (calm clock) (.ownsForm u guildId) ⟨d, none, 0⟩)).answer
        (.deleteResponse r formId) =
        (d.responses.rows.find? fun row => decide (row.id = r ∧ row.formId = formId)).map
          (·.discordId) := rfl
    rw [hanswer]
    cases d.responses.rows.find? fun row => decide (row.id = r ∧ row.formId = formId) <;> rfl

theorem exec_responsesData (h : libs.parseUuid formId = some u) :
    (responsesData libs guildId formId).exec (calm clock) ⟨d, none, 0⟩ =
      match d.form? u guildId with
      | none => (.error formNotFound, ⟨d, none, 1⟩)
      | some form => (.ok (json [("title", .string form.title), ("schema", form.schema),
        ("is_quiz", .bool form.isQuiz),
          ("slug", .string form.slug), ("preview_token", .string form.previewToken),
          ("responses", .array ((d.answer (.selectRecentResponses formId)).map
              (responseJson libs)))]), ⟨d, none, 2⟩) := by
  simp only [responsesData, formUuid, h, pure_bind]
  rw [exec_calm rfl]
  have hanswer : (Session.current ⟨d, none, 0⟩).answer (.selectForm u guildId) =
    d.form? u guildId := rfl
  rw [hanswer]
  cases d.form? u guildId <;> rfl

theorem exec_responsesCsv (h : libs.parseUuid formId = some u) :
    (responsesCsv libs guildId formId).exec (calm clock) ⟨d, none, 0⟩ = match d.form? u guildId with
      | none => (.error formNotFound, ⟨d, none, 1⟩)
      | some form => match libs.schemaFromValue form.schema with
        | .error e => (.error (.internal ("schema invalid: ".toList ++ e)), ⟨d, none, 1⟩)
        | .ok schema => (.ok ("form-".toList ++ form.slug ++ "-responses.csv".toList,
            csvRow (csvHeader form.isQuiz schema.iterQuestions) ++
                (d.answer (.selectResponses formId)).flatMap fun row =>
              csvRow (csvCells libs form.isQuiz schema.iterQuestions row)), ⟨d, none, 2⟩) := by
  simp only [responsesCsv, formUuid, h, pure_bind]
  rw [exec_calm rfl]
  have hanswer : (Session.current ⟨d, none, 0⟩).answer (.selectForm u guildId) =
    d.form? u guildId := rfl
  rw [hanswer]
  cases d.form? u guildId with
  | none => rfl
  | some form => cases hschema : libs.schemaFromValue form.schema <;> simp only [hschema] <;> rfl

/-- A save of a form that is turned away before it reads the links of the form. -/
def turnedAway (libs : AdminLibs) (d : Database) (id : Uuid) (guildId : Text)
    (body : UpdateBody) : Prop :=
  match checkUpdate libs body with
  | .error _ => True
  | .ok (edit, _) => (d.refusal (.updateForm id guildId body.version edit)).isSome ∨
      d.answer (.updateForm id guildId body.version edit) = (0 : Nat)

/-- Once it has changed the form, a save only looks at the links that it finds. -/
theorem exec_updateForm (clock : Nat → Instant) {body : UpdateBody}
    (h : libs.parseUuid formId = some u) (hbody : ¬turnedAway libs d u guildId body) :
    ∃ edit parsed, checkUpdate libs body = .ok (edit, parsed) ∧
      (updateForm libs guildId formId body).exec (calm clock) ⟨d, none, 0⟩ =
        (do
          let warnings ← resyncLinks parsed (d.boundKeys formId)
          match ← query (.selectVersion u guildId) with
          | none => throw rowNotFound
          | some newVersion =>
            return json [("version", jsonInt newVersion),
              ("warnings", .array ((quizWarnings libs body.isQuiz parsed ++
                warnings).map .string))] :
          AdminM Value).exec (calm clock)
              ⟨d.effect (clock 0) (.updateForm u guildId body.version edit), none, 2⟩ := by
  rw [turnedAway] at hbody
  cases hcheck : checkUpdate libs body with
  | error e => exact absurd trivial (by simpa only [hcheck] using hbody)
  | ok checked =>
    obtain ⟨edit, parsed⟩ := checked
    simp only [hcheck, not_or] at hbody
    obtain ⟨hrefusal, hcount⟩ := hbody
    refine ⟨edit, parsed, rfl, ?_⟩
    simp only [updateForm, formUuid, h, hcheck, Admin.liftExcept, pure_bind]
    rw [exec_calm (s := ⟨d, none, 0⟩) (Option.not_isSome_iff_eq_none.1 hrefusal)]
    split
    · rename_i hzero
      exact absurd hzero hcount
    · rw [exec_calm rfl]
      rfl

/-- After a save, each of the links has its job. -/
theorem nextId_saved {parsed : FormSchema} {isQuiz : Bool} {n : Nat} :
    ((do
      let warnings ← resyncLinks parsed (d.boundKeys formId)
      match ← query (.selectVersion u guildId) with
      | none => throw rowNotFound
      | some newVersion =>
        return json [("version", jsonInt newVersion),
          ("warnings", .array ((quizWarnings libs isQuiz parsed ++ warnings).map .string))] :
      AdminM Value).exec (calm clock) ⟨d, none, n⟩).2.db.jobs.nextId =
    d.jobs.nextId + (d.boundKeys formId).length := by
  obtain ⟨r, m, hexec⟩ := exec_resyncLinks (calm clock) n parsed (Database.find_boundKeys d formId)
  rw [exec_bind, hexec]
  cases r with
  | error e => exact JobTable.nextId_resyncedSaved clock n _ _
  | ok warnings =>
    simp only
    rw [exec_calm rfl]
    split <;> exact JobTable.nextId_resyncedSaved clock n _ _

/-- What a save that is turned away answers and leaves does not depend on the spelling. -/
theorem exec_updateForm_turnedAway (clock : Nat → Instant) {body : UpdateBody}
    (hbody : turnedAway libs d u guildId body) :
    ∃ out, ∀ formId, libs.parseUuid formId = some u →
      (updateForm libs guildId formId body).exec (calm clock) ⟨d, none, 0⟩ = out := by
  by_cases hex : ∃ formId, libs.parseUuid formId = some u
  · obtain ⟨other, hother⟩ := hex
    refine ⟨(updateForm libs guildId other body).exec (calm clock) ⟨d, none, 0⟩, fun formId h => ?_⟩
    rw [turnedAway] at hbody
    cases hcheck : checkUpdate libs body with
    | error e =>
      simp only [updateForm, formUuid, h, hother, hcheck, Admin.liftExcept, pure_bind]
      rfl
    | ok checked =>
      obtain ⟨edit, parsed⟩ := checked
      simp only [hcheck] at hbody
      cases hrefusal : d.refusal (.updateForm u guildId body.version edit) with
      | some e =>
        simp only [updateForm, formUuid, h, hother, hcheck, Admin.liftExcept, pure_bind]
        rw [exec_query_bind, exec_query_bind, serveSql_refused (s := ⟨d, none, 0⟩) rfl hrefusal]
      | none =>
        have hcount := hbody.resolve_left (by rw [hrefusal]; exact Bool.false_ne_true)
        simp only [updateForm, formUuid, h, hother, hcheck, Admin.liftExcept, pure_bind]
        rw [exec_calm (s := ⟨d, none, 0⟩) hrefusal, exec_calm (s := ⟨d, none, 0⟩) hrefusal]
        exact congrArg (fun p : AdminM Value => p.exec (calm clock) _)
          ((if_pos hcount).trans (if_pos hcount).symm)
  · exact ⟨(.error formNotFound, ⟨d, none, 0⟩), fun formId h => absurd ⟨formId, h⟩ hex⟩

/-- A save of a role configuration, once the chosen form is read and the payload is accepted. -/
theorem exec_roleConfigSave {roleId : Text} {body : RoleConfigBody} {schema : Option FormSchema}
    {isQuiz : Bool} {parsed : ParsedConfig} {n : Nat}
    (hlink : (d.answer (.selectLink guildId roleId)).isSome)
    (hschema : (boundSchema libs guildId body).exec (calm clock) ⟨d, none, 1⟩ =
      (.ok (schema, isQuiz), ⟨d, none, n⟩))
    (hparsed : parseRoleConfig libs.libs body schema isQuiz = .ok parsed) :
    ∃ settings jobs m, (roleConfigSave libs guildId roleId body).exec (calm clock) ⟨d, none, 0⟩ =
      (.ok (json [("success", .bool true)]), ⟨{ d with
        roleLinks := d.roleLinks.update (·.key = (guildId, roleId))
          (saveSet body.boundFormId parsed.grantOnAnySubmission
            (.array (parsed.conditions.map Condition.toValue)))
        guildSettings := settings
        jobs := jobs }, none, m⟩) := by
  have hformId := formId_of_parseRoleConfig libs.libs hparsed
  obtain ⟨link, hlink⟩ := Option.isSome_iff_exists.1 hlink
  rw [roleConfigSave, exec_calm rfl]
  have hanswer : (Session.current ⟨d, none, 0⟩).answer (.selectLink guildId roleId) = some link :=
    hlink
  have hafter : Session.after (calm clock) (.selectLink guildId roleId) ⟨d, none, 0⟩ =
    ⟨d, none, 1⟩ := rfl
  simp only [hanswer, hafter]
  rw [exec_bind_of_ok hschema]
  simp only [hparsed, Admin.liftExcept, pure_bind]
  rw [exec_calm rfl, exec_calm rfl, hformId]
  cases parsed.viewPermission with
  | none => exact ⟨_, _, _, rfl⟩
  | some viewPermission => exact ⟨_, _, _, rfl⟩

end

/-! ### A small guild -/

/-- The hyphenated form of UUIDs, one instant, and no schemas. -/
def plainAdminLibs : AdminLibs where
  libs := plainLibs
  parseUuid := Uuid.parseHyphenated
  toRfc3339 _ := "1970-01-01T00:00:00+00:00".toList
  schemaFromValue _ := .error []
  sanityCheck _ := .ok ()
  validateQuizKeys _ := .ok ()
  isSafeUrl _ := true
  starterBlank := .object []
  starterApplication := .object []
  starterServerQuiz := .object []

def surveyId : Uuid := 0x0000000000000000000000000000000a

/-- A form with one response and one link. -/
def surveyDatabase : Database where
  forms := ⟨[{ id := surveyId, guildId := ['g'], slug := ['s'], title := ['t'],
               schema := .object [] }], by decide⟩
  roleLinks := ⟨[{ guildId := ['g'], roleId := ['r'], apiToken := ['k'],
                   formId := some surveyId.text }], by decide⟩
  responses := ⟨[{ id := 1, formId := surveyId.text, guildId := ['g'], discordId := ['m'],
                   answers := .object [] }],
    by decide⟩
  guildSettings := Table.empty
  jobs := JobTable.empty

end FormRespondentRole
