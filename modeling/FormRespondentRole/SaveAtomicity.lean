import FormRespondentRole.ResyncQueued

/-!
# Saving a form while others act

`update_form` with a weather, and with whatever others do to the database between its statements.
Its `UPDATE` commits by itself; a statement that fails after it, or a link or a form that is gone by
then, turns a save that has taken effect into an error (`save_all_or_nothing_iff`).
-/

namespace FormRespondentRole

open Foundations Admin

/-- A handler among others, with the table of forms as each of its statements found it and left
it. -/
structure Shared where
  session : Session
  edits : List (Table Form.id × Table Form.id) := []

/-- Before the n-th statement the others have done `others n`. -/
def serveShared (weather : Weather) (others : Nat → Database → Database) (c : AdminCall)
    (s : Shared) :
    Except AppError c.Answer × Shared :=
  let found := { s.session with db := others s.session.calls s.session.db }
  ((serveSql weather c found).1,
    ⟨(serveSql weather c found).2,
      s.edits ++ [(found.db.forms, (serveSql weather c found).2.db.forms)]⟩)

abbrev AdminExchange := Program.Exchange AdminCall fun c => Except AppError c.Answer

section

variable (libs : AdminLibs) (weather : Weather) (others : Nat → Database → Database)
  (guildId formId : Text)
  (body : UpdateBody) (d : Database)

/-- The result of a save, and what it leaves. -/
def saveAmongOthers : Except AppError Value × Shared :=
  Program.run (serveShared weather others) (updateForm libs guildId formId body).run
    ⟨⟨d, none, 0⟩, []⟩

/-- The statements of a save, with their answers. -/
def saveStatements : List AdminExchange :=
  Program.transcript (serveShared weather others) (updateForm libs guildId formId body).run
    ⟨⟨d, none, 0⟩, []⟩

/-- Every link is gone through, and the new version is what the handler returns. -/
def Completes (id : Uuid) (guildId formId : Text) (tr : List AdminExchange)
    (r : Except AppError Value) : Prop :=
  ∃ keys version v, ⟨.selectBound formId, .ok keys⟩ ∈ tr ∧
    (∀ key ∈ keys, ∃ answer, ⟨.enqueueConfigSync key.1 key.2, answer⟩ ∈ tr) ∧
    ⟨.selectVersion id guildId, .ok (some version)⟩ ∈ tr ∧ r = .ok v ∧
      v.get "version".toList = some (jsonInt version)

/-- An error leaves every form as it was found; and a save that changes the form goes through every
bound link, and returns with the version. -/
structure AllOrNothing : Prop where
  unchanged : ∀ e, (saveAmongOthers libs weather others guildId formId body d).1 = .error e →
    ∀ edit ∈ (saveAmongOthers libs weather others guildId formId body d).2.edits, edit.2 = edit.1
  completed : (∃ edit ∈ (saveAmongOthers libs weather others guildId formId body d).2.edits,
    edit.2 ≠ edit.1) →
    ∃ id, libs.parseUuid formId = some id ∧
      Completes id guildId formId (saveStatements libs weather others guildId formId body d)
        (saveAmongOthers libs weather others guildId formId body d).1

/-- The `UPDATE` finds the row of the form, and gets to the database. -/
def Saves : Prop := ∃ id, libs.parseUuid formId = some id ∧
    SavesForm libs weather (others 0 d) id guildId body

end

/-- The answer that the handler goes on from: a row where it reads one, and no failure, but of a
re-sync. -/
def Smooth : (c : AdminCall) → Except AppError c.Answer → Prop
  | .enqueueConfigSync .., _ => True
  | .selectLink .., answer => ∃ link, answer = .ok (some link)
  | .selectVersion .., answer => ∃ version, answer = .ok (some version)
  | _, answer => ∃ a, answer = .ok a

/-- The statements that leave the forms, and the transaction, as they are. -/
def AdminCall.KeepsForms : AdminCall → Prop
  | .begin | .commit | .insertForm _ | .updateForm .. | .deleteForm .. => False
  | _ => True

section

variable {weather : Weather} {others : Nat → Database → Database}

private theorem AdminCall.KeepsForms.served (weather : Weather) {c : AdminCall} (h : c.KeepsForms)
    {s : Session} (htx : s.tx = none) :
    (serveSql weather c s).2.tx = none ∧ (serveSql weather c s).2.db.forms = s.db.forms := by
  have hafter : (s.after weather c).tx = none ∧ (s.after weather c).db.forms = s.db.forms := by
    obtain ⟨db, tx, calls⟩ := s
    obtain rfl : tx = none := htx
    cases c with
    | begin | commit | insertForm | updateForm | deleteForm => exact h.elim
    | _ => exact ⟨rfl, rfl⟩
  cases houtcome : weather.outcome s.calls with
  | failed e =>
    rw [serveSql_failed houtcome]
    exact ⟨htx, rfl⟩
  | done =>
    cases hrefusal : s.current.refusal c with
    | none =>
      rw [serveSql_done houtcome hrefusal]
      exact hafter
    | some e =>
      rw [serveSql_refused (by rw [houtcome]; rfl) hrefusal]
      exact ⟨htx, rfl⟩
  | lost e =>
    cases hrefusal : s.current.refusal c with
    | none =>
      rw [serveSql_lost houtcome hrefusal]
      exact hafter
    | some e =>
      rw [serveSql_refused (by rw [houtcome]; rfl) hrefusal]
      exact ⟨htx, rfl⟩

/-- A program of such statements edits no form. -/
theorem run_keepsForms {α : Type} (p : AdminProgram α) (s : Shared) (htx : s.session.tx = none)
    (h : ∀ x ∈ p.transcript (serveShared weather others) s, x.call.KeepsForms) :
    ∃ edits, (Program.run (serveShared weather others) p s).2.edits = s.edits ++ edits ∧
      ∀ edit ∈ edits, edit.2 = edit.1 := by
  induction p generalizing s with
  | pure a => exact ⟨[], (List.append_nil _).symm, fun edit hedit => absurd hedit List.not_mem_nil⟩
  | call c k ih =>
    obtain ⟨hcall, htail⟩ := List.forall_mem_cons.1 h
    have hfound : ({ s.session with db := others s.session.calls s.session.db } : Session).tx =
      none := htx
    obtain ⟨htx', hforms⟩ := AdminCall.KeepsForms.served weather hcall hfound
    obtain ⟨edits, hedits, hsame⟩ := ih _ (serveShared weather others c s).2 htx' htail
    refine ⟨_ :: edits, hedits.trans (List.append_assoc _ _ _),
      List.forall_mem_cons.2 ⟨hforms, hsame⟩⟩

private theorem not_smooth_error {c : AdminCall} {e : AppError}
    (h : ∀ guildId roleId, c ≠ .enqueueConfigSync guildId roleId) :
    ¬Smooth c (.error e) := by
  cases c with
  | enqueueConfigSync guildId roleId => exact absurd rfl (h guildId roleId)
  | _ =>
    rintro ⟨a, ha⟩
    cases ha

/-- The loop over the bound links: every link is read and its re-sync asked for, or the loop ends at
a link that cannot be read. -/
theorem trace_resyncLinks {parsed : FormSchema} {keys : List LinkKey} {tr : List AdminExchange}
    {r : Except AppError (List Text)} (h : Program.Trace (resyncLinks parsed keys).run tr r) :
    (∀ x ∈ tr, x.call.KeepsForms) ∧
      ((∃ warnings, r = .ok warnings ∧ (∀ x ∈ tr, Smooth x.call x.answer) ∧
          ∀ key ∈ keys, ∃ answer, ⟨.enqueueConfigSync key.1 key.2, answer⟩ ∈ tr) ∨
        ∃ e, r = .error e ∧ ∃ x ∈ tr, ¬Smooth x.call x.answer) := by
  induction keys generalizing tr r with
  | nil =>
    obtain ⟨rfl, rfl⟩ := Program.trace_pure.1 h
    exact ⟨fun x hx => absurd hx List.not_mem_nil,
      Or.inl ⟨[], rfl, fun x hx => absurd hx List.not_mem_nil,
        fun key hkey => absurd hkey List.not_mem_nil⟩⟩
  | cons key rest ih =>
    rw [resyncLinks] at h
    rcases Program.trace_ask_bind.1 h with ⟨e, rfl, rfl⟩ | ⟨link, tail, rfl, htail⟩
    · exact ⟨List.forall_mem_singleton.2 trivial, Or.inr ⟨e, rfl, _, List.mem_singleton_self _,
        not_smooth_error fun _ _ => AdminCall.noConfusion⟩⟩
    cases link with
    | none =>
      obtain ⟨rfl, rfl⟩ := Program.trace_pure.1 htail
      refine ⟨List.forall_mem_singleton.2 trivial,
        Or.inr ⟨_, rfl, _, List.mem_singleton_self _, ?_⟩⟩
      rintro ⟨link, hlink⟩
      cases hlink
    | some link =>
      have hcall : Program.Trace (.call (AdminCall.enqueueConfigSync key.1 key.2) fun _ => (do
          let warnings ← resyncLinks parsed rest
          return conditionWarnings parsed key.2 link.conditions ++ warnings :
            AdminM (List Text)).run) tail r := htail
      obtain ⟨answer, tail, rfl, hbind⟩ := Program.trace_call.1 hcall
      -- neither statement changes a form
      have hkeeps : ∀ {tr'}, (∀ x ∈ tr', x.call.KeepsForms) →
          ∀ x ∈ (⟨.selectLink key.1 key.2, .ok (some link)⟩ ::
            ⟨.enqueueConfigSync key.1 key.2, answer⟩ :: tr' :
            List AdminExchange), x.call.KeepsForms :=
        fun h => List.forall_mem_cons.2 ⟨trivial, List.forall_mem_cons.2 ⟨trivial, h⟩⟩
      rcases Program.trace_except_bind.1 hbind with ⟨e, rfl, hrest⟩ |
        ⟨warnings, tr₁, tr₂, rfl, hrest, hend⟩
      · obtain ⟨hforms, hcases⟩ := ih hrest
        refine ⟨hkeeps hforms, Or.inr ?_⟩
        rcases hcases with ⟨warnings, hok, -⟩ | ⟨e', he, x, hx, hnot⟩
        · cases hok
        · exact ⟨e, rfl, x, List.mem_cons_of_mem _ (List.mem_cons_of_mem _ hx), hnot⟩
      · obtain ⟨rfl, rfl⟩ := Program.trace_pure.1 hend
        obtain ⟨hforms, hcases⟩ := ih hrest
        rw [List.append_nil]
        refine ⟨hkeeps hforms, Or.inl ⟨_, rfl, ?_⟩⟩
        rcases hcases with ⟨warnings', -, hsmooth, hall⟩ | ⟨e, he, -⟩
        · refine ⟨List.forall_mem_cons.2 ⟨⟨link, rfl⟩, List.forall_mem_cons.2 ⟨trivial, hsmooth⟩⟩,
            List.forall_mem_cons.2 ⟨⟨answer, List.mem_cons_of_mem _ List.mem_cons_self⟩,
              fun key' hkey' => ?_⟩⟩
          obtain ⟨answer', hmem⟩ := hall key' hkey'
          exact ⟨answer', List.mem_cons_of_mem _ (List.mem_cons_of_mem _ hmem)⟩
        · cases he

/-- What a save does once its `UPDATE` has answered. -/
def afterUpdate (libs : AdminLibs) (guildId formId : Text) (id : Uuid) (isQuiz : Bool)
    (parsed : FormSchema) (updated : Nat) :
    AdminM Value := do
  if updated = 0 then
    match ← query (.selectVersion id guildId) with
    | some _ => throw .staleVersion
    | none => throw formNotFound
  else
    let bound ← query (.selectBound formId)
    let warnings ← resyncLinks parsed bound
    match ← query (.selectVersion id guildId) with
    | none => throw rowNotFound
    | some newVersion =>
      return json [("version", jsonInt newVersion),
        ("warnings", .array ((quizWarnings libs isQuiz parsed ++ warnings).map .string))]

section

variable {libs : AdminLibs} {guildId formId : Text} {id : Uuid} {body : UpdateBody} {isQuiz : Bool}
  {edit : FormEdit}
  {parsed : FormSchema} {tr : List AdminExchange} {r : Except AppError Value}

private theorem updateForm_of_checked (hid : libs.parseUuid formId = some id)
    (hcheck : checkUpdate libs body = .ok (edit, parsed)) :
    updateForm libs guildId formId body =
      query (.updateForm id guildId body.version edit) >>= afterUpdate libs guildId formId id
        body.isQuiz parsed := by
  simp only [updateForm, formUuid, hid, hcheck, Admin.liftExcept, pure_bind]
  rfl

/-- No form was changed: the version is read for the error, and nothing else is done. -/
theorem trace_afterUpdate_zero
    (h : Program.Trace (afterUpdate libs guildId formId id isQuiz parsed 0).run tr r) :
    ∀ x ∈ tr, x.call.KeepsForms := by
  rw [afterUpdate, if_pos rfl] at h
  rcases Program.trace_ask_bind.1 h with ⟨e, rfl, rfl⟩ | ⟨version, tail, rfl, htail⟩
  · exact List.forall_mem_singleton.2 trivial
  cases version with
  | none | some =>
    obtain ⟨rfl, rfl⟩ := Program.trace_pure.1 htail
    exact List.forall_mem_singleton.2 trivial

/-- A form was changed: the save goes well to the end, or something turns it into an error. -/
theorem trace_afterUpdate {updated : Nat} (hupdated : updated ≠ 0)
    (h : Program.Trace (afterUpdate libs guildId formId id isQuiz parsed updated).run tr r) :
    (∀ x ∈ tr, x.call.KeepsForms) ∧
      (((∀ x ∈ tr, Smooth x.call x.answer) ∧ Completes id guildId formId tr r) ∨
        ∃ e, r = .error e ∧ ∃ x ∈ tr, ¬Smooth x.call x.answer) := by
  rw [afterUpdate, if_neg hupdated] at h
  rcases Program.trace_ask_bind.1 h with ⟨e, rfl, rfl⟩ | ⟨keys, tail, rfl, htail⟩
  · exact ⟨List.forall_mem_singleton.2 trivial, Or.inr ⟨e, rfl, _, List.mem_singleton_self _,
      not_smooth_error fun _ _ => AdminCall.noConfusion⟩⟩
  rcases Program.trace_except_bind.1 htail with ⟨e, rfl, hloop⟩ |
    ⟨warnings, tr₁, tr₂, rfl, hloop, hend⟩
  · obtain ⟨hforms, ⟨warnings, hok, -⟩ | ⟨e', he, x, hx, hnot⟩⟩ := trace_resyncLinks hloop
    · cases hok
    · exact ⟨List.forall_mem_cons.2 ⟨trivial, hforms⟩,
        Or.inr ⟨e, rfl, x, List.mem_cons_of_mem _ hx, hnot⟩⟩
  obtain ⟨hforms, ⟨_, -, hsmooth, hall⟩ | ⟨e', he, -⟩⟩ := trace_resyncLinks hloop
  swap
  · cases he
  have hkeeps : ∀ answer,
    ∀ x ∈ (⟨.selectBound formId, .ok keys⟩ :: (tr₁ ++ [⟨.selectVersion id guildId, answer⟩]) :
      List AdminExchange), x.call.KeepsForms := fun answer =>
    List.forall_mem_cons.2
      ⟨trivial, List.forall_mem_append.2 ⟨hforms, List.forall_mem_singleton.2 trivial⟩⟩
  have hlast : ∀ answer, ⟨.selectVersion id guildId, answer⟩ ∈ (⟨.selectBound formId, .ok keys⟩ ::
      (tr₁ ++ [⟨.selectVersion id guildId, answer⟩]) : List AdminExchange) := fun answer =>
    List.mem_cons_of_mem _ (List.mem_append_right _ (List.mem_singleton_self _))
  rcases Program.trace_ask_bind.1 hend with ⟨e, rfl, rfl⟩ | ⟨version, tail, rfl, hanswer⟩
  · exact ⟨hkeeps _, Or.inr ⟨e, rfl, _, hlast _, not_smooth_error fun _ _ => AdminCall.noConfusion⟩⟩
  cases version with
  | none =>
    obtain ⟨rfl, rfl⟩ := Program.trace_pure.1 hanswer
    refine ⟨hkeeps _, Or.inr ⟨_, rfl, _, hlast _, ?_⟩⟩
    rintro ⟨version, hversion⟩
    cases hversion
  | some version =>
    obtain ⟨rfl, rfl⟩ := Program.trace_pure.1 hanswer
    refine ⟨hkeeps _, Or.inl ⟨?_, keys, version, _, List.mem_cons_self, fun key hkey => ?_, hlast _,
      rfl, ?_⟩⟩
    · exact List.forall_mem_cons.2 ⟨⟨keys, rfl⟩,
        List.forall_mem_append.2 ⟨hsmooth, List.forall_mem_singleton.2 ⟨version, rfl⟩⟩⟩
    · obtain ⟨answer, hmem⟩ := hall key hkey
      exact ⟨answer, List.mem_cons_of_mem _ (List.mem_append_left _ hmem)⟩
    · rw [json_get]
      rfl

/-- The version of a row that an `UPDATE` has found is another one after it. -/
theorem edit_updateForm {d : Database} {now : Instant} {version : Int32} :
    (d.effect now (.updateForm id guildId version edit)).forms = d.forms ↔
      d.answer (.updateForm id guildId version edit) = (0 : Nat) := by
  constructor
  · intro h
    refine List.length_eq_zero_iff.2 (List.filter_eq_nil_iff.2 fun form hform hfound => ?_)
    have hrows := congrArg Table.rows h
    have hsame := List.map_inj_left.1 (hrows.trans (List.map_id _).symm) form hform
    rw [if_pos hfound] at hsame
    have hversion : form.version + 1 = form.version := congrArg Form.version hsame
    simp at hversion
  · intro hzero
    have hnone := List.filter_eq_nil_iff.1 (List.length_eq_zero_iff.1 hzero)
    exact Table.update_of_not fun form hform => Bool.eq_false_iff.2 (hnone form hform)

/-- The `UPDATE` changes the forms just when the save takes effect. -/
theorem updateForm_edit {d : Database} (hcheck : checkUpdate libs body = .ok (edit, parsed)) :
    (serveSql weather (.updateForm id guildId body.version edit) ⟨d, none, 0⟩).2.tx = none ∧
      ((serveSql weather (.updateForm id guildId body.version edit) ⟨d, none, 0⟩).2.db.forms =
        d.forms ↔
        ¬SavesForm libs weather d id guildId body) ∧
      ∀ n, (serveSql weather (.updateForm id guildId body.version edit) ⟨d, none, 0⟩).1 = .ok n →
        (SavesForm libs weather d id guildId body ↔ n ≠ (0 : Nat)) := by
  have hsaves : SavesForm libs weather d id guildId body ↔
      (d.refusal (.updateForm id guildId body.version edit) = none ∧
        d.answer (.updateForm id guildId body.version edit) ≠ (0 : Nat)) ∧
            (weather.outcome 0).carried = true := by
    rw [SavesForm, turnedAway, hcheck, not_or, Option.not_isSome_iff_eq_none]
  rw [hsaves]
  cases hrefusal : d.refusal (.updateForm id guildId body.version edit) with
  | some e =>
    -- the database refuses the new version
    have hnot : ¬((some e = none ∧ d.answer (.updateForm id guildId body.version edit) ≠
      (0 : Nat)) ∧
        (weather.outcome 0).carried = true) := fun h => Option.some_ne_none e h.1.1
    have hfails : ∃ e', serveSql weather (.updateForm id guildId body.version edit) ⟨d, none, 0⟩ =
        (.error e', ⟨d, none, 1⟩) := by
      cases houtcome : weather.outcome 0 with
      | failed e' => exact ⟨_, serveSql_failed (s := ⟨d, none, 0⟩) houtcome⟩
      | done | lost => exact ⟨_, serveSql_refused (s := ⟨d, none, 0⟩)
        (by rw [houtcome]; rfl) hrefusal⟩
    obtain ⟨e', hserve⟩ := hfails
    rw [hserve]
    refine ⟨rfl, iff_of_true rfl hnot, fun n hn => ?_⟩
    cases hn
  | none =>
    cases houtcome : weather.outcome 0 with
    | failed e =>
      rw [serveSql_failed (s := ⟨d, none, 0⟩) houtcome]
      refine ⟨rfl, iff_of_true rfl fun h => Bool.false_ne_true h.2, fun n hn => ?_⟩
      cases hn
    | lost e =>
      rw [serveSql_lost (s := ⟨d, none, 0⟩) houtcome hrefusal]
      refine ⟨rfl, edit_updateForm.trans ⟨fun hzero h => h.1.2 hzero, fun h => ?_⟩, fun n hn => ?_⟩
      · exact not_not.1 fun hzero => h ⟨⟨rfl, hzero⟩, rfl⟩
      · cases hn
    | done =>
      rw [serveSql_done (s := ⟨d, none, 0⟩) houtcome hrefusal]
      refine ⟨rfl, edit_updateForm.trans ⟨fun hzero h => h.1.2 hzero, fun h => ?_⟩, fun n hn => ?_⟩
      · exact not_not.1 fun hzero => h ⟨⟨rfl, hzero⟩, rfl⟩
      · rw [← Except.ok.inj hn]
        exact ⟨fun h => h.1.2, fun h => ⟨⟨rfl, h⟩, rfl⟩⟩

/-- Only the `UPDATE` changes the forms; when it has, the save goes well to the end, or something
turns it into an error. -/
theorem saveAmongOthers_spec (hid : libs.parseUuid formId = some id)
    (hcheck : checkUpdate libs body = .ok (edit, parsed)) (d : Database) :
    ∃ first edits, (saveAmongOthers libs weather others guildId formId body d).2.edits = first ::
      edits ∧
      (first.2 = first.1 ↔ ¬SavesForm libs weather (others 0 d) id guildId body) ∧
      (∀ pair ∈ edits, pair.2 = pair.1) ∧
      (SavesForm libs weather (others 0 d) id guildId body →
        ((∀ x ∈ saveStatements libs weather others guildId formId body d, Smooth x.call x.answer) ∧
          Completes id guildId formId (saveStatements libs weather others guildId formId body d)
            (saveAmongOthers libs weather others guildId formId body d).1) ∨
        ∃ e, (saveAmongOthers libs weather others guildId formId body d).1 = .error e ∧
          ∃ x ∈ saveStatements libs weather others guildId formId body d,
            ¬Smooth x.call x.answer) := by
  obtain ⟨htx, hforms, hcount⟩ :=
    @updateForm_edit weather libs guildId id body edit parsed (others 0 d) hcheck
  have hserve : serveShared weather others (.updateForm id guildId body.version edit)
    ⟨⟨d, none, 0⟩, []⟩ =
      ((serveSql weather (.updateForm id guildId body.version edit) ⟨others 0 d, none, 0⟩).1,
        ⟨(serveSql weather (.updateForm id guildId body.version edit) ⟨others 0 d, none, 0⟩).2,
          [((others 0 d).forms,
            (serveSql weather (.updateForm id guildId body.version edit)
              ⟨others 0 d, none, 0⟩).2.db.forms)]⟩) := rfl
  rw [saveAmongOthers, saveStatements, updateForm_of_checked hid hcheck, Program.run_ask_bind,
    Program.run_call,
    Program.transcript, hserve]
  generalize serveSql weather (.updateForm id guildId body.version edit) ⟨others 0 d, none, 0⟩ =
    served at htx hforms hcount ⊢
  obtain ⟨answer, next⟩ := served
  cases answer with
  | error e =>
    exact ⟨_, [], rfl, hforms, fun pair hpair => absurd hpair List.not_mem_nil, fun _ =>
      Or.inr ⟨e, rfl, _,
        List.mem_singleton_self _, not_smooth_error fun _ _ => AdminCall.noConfusion⟩⟩
  | ok updated =>
    have htrace := Program.trace_transcript (serveShared weather others)
      (afterUpdate libs guildId formId id body.isQuiz parsed updated).run
        ⟨next, [((others 0 d).forms, next.db.forms)]⟩
    by_cases hzero : updated = 0
    · subst hzero
      obtain ⟨edits, hedits, hsame⟩ := run_keepsForms _ _ htx (trace_afterUpdate_zero htrace)
      exact ⟨_, edits, hedits, hforms, hsame, fun hsaves => absurd rfl ((hcount 0 rfl).1 hsaves)⟩
    · obtain ⟨hkeeps, hcases⟩ := trace_afterUpdate hzero htrace
      obtain ⟨edits, hedits, hsame⟩ := run_keepsForms _ _ htx hkeeps
      refine ⟨_, edits, hedits, hforms, hsame, fun _ => ?_⟩
      rcases hcases with ⟨hsmooth, keys, version, v, hkeys, hall, hversion, hv⟩ |
        ⟨e, he, x, hx, hnot⟩
      · refine Or.inl ⟨List.forall_mem_cons.2 ⟨⟨updated, rfl⟩, hsmooth⟩, keys, version, v,
          List.mem_cons_of_mem _ hkeys,
          fun key hkey => ?_, List.mem_cons_of_mem _ hversion, hv⟩
        obtain ⟨answer, hmem⟩ := hall key hkey
        exact ⟨answer, List.mem_cons_of_mem _ hmem⟩
      · exact Or.inr ⟨e, he, x, List.mem_cons_of_mem _ hx, hnot⟩

/-- A request that fails its checks makes no statement. -/
theorem saveAmongOthers_of_rejected (d : Database)
    (h : ∀ id edit parsed, libs.parseUuid formId = some id →
      checkUpdate libs body ≠ .ok (edit, parsed)) :
    ∃ e, saveAmongOthers libs weather others guildId formId body d =
      (.error e, ⟨⟨d, none, 0⟩, []⟩) := by
  rw [saveAmongOthers, updateForm, formUuid]
  cases hid : libs.parseUuid formId with
  | none => exact ⟨_, rfl⟩
  | some id =>
    cases hcheck : checkUpdate libs body with
    | error e => exact ⟨e, rfl⟩
    | ok checked => exact absurd hcheck (h id checked.1 checked.2 hid)

end

end

/-- A save is all or nothing just when, once its `UPDATE` takes effect, every statement goes
well. -/
theorem save_all_or_nothing_iff (libs : AdminLibs) (weather : Weather)
    (others : Nat → Database → Database) (guildId formId : Text) (body : UpdateBody)
    (d : Database) :
    AllOrNothing libs weather others guildId formId body d ↔
      (Saves libs weather others guildId formId body d →
        ∀ x ∈ saveStatements libs weather others guildId formId body d,
          Smooth x.call x.answer) := by
  by_cases hvalid : ∃ id edit parsed, libs.parseUuid formId = some id ∧
    checkUpdate libs body = .ok (edit, parsed)
  swap
  · have hrejected : ∀ id edit parsed, libs.parseUuid formId = some id →
        checkUpdate libs body ≠ .ok (edit, parsed) :=
      fun id edit parsed hid hcheck => hvalid ⟨id, edit, parsed, hid, hcheck⟩
    -- a payload that is rejected makes no statement
    obtain ⟨e, hrun⟩ := @saveAmongOthers_of_rejected weather others libs guildId formId body d
      hrejected
    refine iff_of_true ⟨fun _ _ => ?_, ?_⟩ ?_
    · rw [hrun]
      exact fun pair hpair => absurd hpair List.not_mem_nil
    · rw [hrun]
      rintro ⟨pair, hpair, -⟩
      exact absurd hpair List.not_mem_nil
    · rintro ⟨id, hid, hsaves, -⟩
      refine absurd ?_ hsaves
      rw [turnedAway]
      cases hcheck : checkUpdate libs body with
      | error e => trivial
      | ok checked => exact absurd hcheck (hrejected id checked.1 checked.2 hid)
  obtain ⟨id, edit, parsed, hid, hcheck⟩ := hvalid
  obtain ⟨first, edits, hedits, hfirst, hsame, hcases⟩ :=
    @saveAmongOthers_spec weather others libs guildId formId id body edit parsed hid hcheck d
  have hiff : Saves libs weather others guildId formId body d ↔
      SavesForm libs weather (others 0 d) id guildId body := by
    rw [Saves, hid]
    constructor
    · rintro ⟨id', hid', h⟩
      rwa [Option.some.inj hid']
    · exact fun h => ⟨id, rfl, h⟩
  rw [hiff]
  by_cases hsaves : SavesForm libs weather (others 0 d) id guildId body
  swap
  · -- the `UPDATE` finds no row, or does not get to the database
    have hall : ∀ pair ∈ first :: edits, pair.2 = pair.1 :=
      List.forall_mem_cons.2 ⟨hfirst.2 hsaves, hsame⟩
    refine iff_of_true ⟨fun _ _ => ?_, ?_⟩ fun h => absurd h hsaves
    · rwa [hedits]
    · rw [hedits]
      rintro ⟨pair, hpair, hne⟩
      exact absurd (hall pair hpair) hne
  have hchanged : first.2 ≠ first.1 := fun h => hfirst.1 h hsaves
  rcases hcases hsaves with ⟨hsmooth, hcompletes⟩ | ⟨e, he, x, hx, hnot⟩
  · -- every statement goes well: the save completes
    refine iff_of_true ⟨fun e he => ?_, fun _ => ⟨id, hid, hcompletes⟩⟩ fun _ => hsmooth
    obtain ⟨keys, version, v, -, -, -, hv, -⟩ := hcompletes
    cases hv.symm.trans he
  · -- one fails after the `UPDATE`: an error, and the form is changed all the same
    refine iff_of_false (fun h => hchanged (h.unchanged e he first ?_)) fun h =>
      hnot (h hsaves x hx)
    rw [hedits]
    exact List.mem_cons_self

/-- A form with one page. -/
def pageLibs : AdminLibs :=
  { plainAdminLibs with schemaFromValue := fun _ =>
                          .ok { title := ['t'], pages := [{ id := ['p'] }] } }

def pageBody : UpdateBody where
  title := ['t']
  schema := .object [("pages".toList, .array [.object [("id".toList, .string ['p'])]])]
  version := 1

/-- The links are deleted between the statement that lists them and the one that reads the first. -/
def linksDeleted (n : Nat) (d : Database) : Database :=
  if n = 2 then { d with roleLinks := Table.empty } else d

/-- The handler fails, and the version of the form is another one. -/
theorem not_save_all_or_nothing :
    ¬∀ (libs : AdminLibs) (weather : Weather) (others : Nat → Database → Database)
      (guildId formId : Text)
      (body : UpdateBody) (d : Database),
        AllOrNothing libs weather others guildId formId body d := by
  intro h
  have hunchanged := (h pageLibs (calm fun _ => 0) linksDeleted
    ['g'] surveyId.text pageBody surveyDatabase).unchanged
  have hfails : (saveAmongOthers pageLibs (calm fun _ => 0) linksDeleted
    ['g'] surveyId.text pageBody
      surveyDatabase).1.isOk = false := by decide +kernel
  have hedits : (saveAmongOthers pageLibs (calm fun _ => 0) linksDeleted
    ['g'] surveyId.text pageBody
      surveyDatabase).2.edits.any (fun pair => pair.2.rows.map (·.version) ≠
          pair.1.rows.map (·.version)) = true := by
    decide +kernel
  obtain ⟨pair, hpair, hne⟩ := List.any_eq_true.1 hedits
  cases hresult : (saveAmongOthers pageLibs (calm fun _ => 0) linksDeleted
    ['g'] surveyId.text pageBody
      surveyDatabase).1 with
  | ok v =>
    rw [hresult] at hfails
    cases hfails
  | error e =>
    rw [hunchanged e hresult pair hpair] at hne
    exact of_decide_eq_true hne rfl

end FormRespondentRole
