import FormRespondentRole.AdminRuns

/-!
# Spellings of a form id

`Uuid::parse_str` reads several texts as one UUID.  The admin handlers parse the id of their form,
and then run some of their statements with the UUID and some with the text as it came, which finds
only what was stored under that very text.  So two spellings of an id are one form only where no
such statement finds anything (`spellings_agree`).
-/

namespace FormRespondentRole

open Foundations Admin

/-- What is documented of `Uuid::parse_str`: it reads what `Display` writes, and no blank text and
no surrounding space. -/
structure ReadsUuids (parseUuid : Text → Option Uuid) : Prop where
  text : ∀ u : Uuid, parseUuid u.text = some u
  plain : ∀ s u, parseUuid s = some u → s ≠ [] ∧ Text.trim s = s

/-- Form ids are stored in the form of `id::text`. -/
structure Database.Canonical (d : Database) : Prop where
  links : ∀ link ∈ d.roleLinks.rows, ∀ formId, link.formId = some formId →
    ∃ u : Uuid, formId = u.text
  responses : ∀ row ∈ d.responses.rows, ∃ u : Uuid, row.formId = u.text

/-! ### Requests about a form -/

inductive FormRequest
  | deleteForm
  | deleteResponse (responseId : Text)
  | deleteAllResponses
  | updateForm (body : UpdateBody)
  | responsesData
  | responsesCsv
  /-- The save of a role configuration that chooses the form. -/
  | roleConfigSave (roleId : Text) (body : RoleConfigBody)

/-- What the request answers and leaves, with the id of the form spelt `formId`. -/
def FormRequest.serve (libs : AdminLibs) (clock : Nat → Instant) (guildId formId : Text)
    (d : Database) :
    FormRequest → Except AppError Reply × Database
  | deleteForm => reply .json (Admin.deleteForm libs guildId formId)
  | deleteResponse responseId => reply .json (Admin.deleteResponse libs guildId formId responseId)
  | deleteAllResponses => reply .json (Admin.deleteAllResponses libs guildId formId)
  | updateForm body => reply .json (Admin.updateForm libs guildId formId body)
  | responsesData => reply .json (Admin.responsesData libs guildId formId)
  | responsesCsv => reply (fun r => .csv r.1 r.2) (Admin.responsesCsv libs guildId formId)
  | roleConfigSave roleId body =>
    reply .json (Admin.roleConfigSave libs guildId roleId { body with formId := some formId })
where
  reply {α : Type} (f : α → Reply) (p : AdminM α) : Except AppError Reply × Database :=
    ((p.calmly clock d).1.map f, (p.calmly clock d).2)

/-- The request gets as far as the statements that go by the text of the id. -/
def FormRequest.Accepted (libs : AdminLibs) (guildId : Text) (id : Uuid) (d : Database) :
    FormRequest → Prop
  | deleteForm | deleteAllResponses | responsesData => (d.form? id guildId).isSome
  | deleteResponse responseId => (libs.parseUuid responseId).isSome ∧ (d.form? id guildId).isSome
  | updateForm body => ¬turnedAway libs d id guildId body
  | responsesCsv => ∃ form schema, d.form? id guildId = some form ∧
    libs.schemaFromValue form.schema = .ok schema
  | roleConfigSave roleId body => (d.answer (.selectLink guildId roleId)).isSome ∧ ∃ form parsed,
      d.form? id guildId = some form ∧
        parseRoleConfig libs.libs body (libs.schemaFromValue form.schema).toOption form.isQuiz =
          .ok parsed

/-- The text leads those statements to a row; a save of a role configuration stores the text
itself. -/
def FormRequest.Finds (libs : AdminLibs) (d : Database) (formId : Text) : FormRequest → Prop
  | deleteForm | deleteAllResponses =>
    (∃ link ∈ d.roleLinks.rows, link.formId = some formId) ∨
      ∃ row ∈ d.responses.rows, row.formId = formId
  | deleteResponse responseId => ∃ row ∈ d.responses.rows, libs.parseUuid responseId = some row.id ∧
    row.formId = formId
  | updateForm _ => ∃ link ∈ d.roleLinks.rows, link.formId = some formId
  | responsesData | responsesCsv => ∃ row ∈ d.responses.rows, row.formId = formId
  | roleConfigSave .. => True

/-! ### Texts that find nothing -/

section

variable {libs : AdminLibs} {clock : Nat → Instant} {guildId formId formId' : Text} {u : Uuid}
  {d : Database}

private theorem Database.boundKeys_eq_nil
    (h : ¬∃ link ∈ d.roleLinks.rows, link.formId = some formId) :
    d.boundKeys formId = [] := by
  rw [boundKeys, boundLinks, List.map_eq_nil_iff, List.filter_eq_nil_iff]
  exact fun link hlink hbound => h ⟨link, hlink, of_decide_eq_true hbound⟩

private theorem Database.formResponses_eq_nil (h : ¬∃ row ∈ d.responses.rows, row.formId = formId) :
    d.formResponses formId = [] := by
  rw [formResponses, List.filter_eq_nil_iff]
  exact fun row hrow hform => h ⟨row, hrow, of_decide_eq_true hform⟩

private theorem Database.delete_responses_eq (h : ¬∃ row ∈ d.responses.rows, row.formId = formId) :
    d.responses.delete (·.formId = formId) = d.responses :=
  Table.delete_of_not fun row hrow => decide_eq_false fun hform => h ⟨row, hrow, hform⟩

private theorem Database.unbind_links_eq
    (h : ¬∃ link ∈ d.roleLinks.rows, link.formId = some formId) :
    d.roleLinks.update (·.formId = some formId) unbindSet = d.roleLinks :=
  Table.update_of_not fun link hlink => decide_eq_false fun hbound => h ⟨link, hlink, hbound⟩

private theorem Database.delete_response_eq {r : Uuid}
    (h : ¬∃ row ∈ d.responses.rows, some r = some row.id ∧ row.formId = formId) :
    (d.responses.delete fun row => row.id = r ∧ row.formId = formId) = d.responses :=
  Table.delete_of_not fun row hrow => decide_eq_false fun hfound =>
    h ⟨row, hrow, congrArg some hfound.1.symm, hfound.2⟩

/-- Texts that find nothing are one text. -/
theorem FormRequest.serve_eq {req : FormRequest} (h : libs.parseUuid formId = some u)
    (h' : libs.parseUuid formId' = some u) (hnone : ¬req.Finds libs d formId)
    (hnone' : ¬req.Finds libs d formId') :
    req.serve libs clock guildId formId d = req.serve libs clock guildId formId' d := by
  cases req with
  | deleteForm =>
    rw [Finds, not_or] at hnone hnone'
    simp only [serve, serve.reply, AdminM.calmly, exec_deleteForm h, exec_deleteForm h',
      Database.cascade,
      Database.boundKeys_eq_nil hnone.1, Database.boundKeys_eq_nil hnone'.1,
        Database.delete_responses_eq hnone.2,
      Database.delete_responses_eq hnone'.2, Database.unbind_links_eq hnone.1,
        Database.unbind_links_eq hnone'.1]
  | deleteAllResponses =>
    rw [Finds, not_or] at hnone hnone'
    simp only [serve, serve.reply, AdminM.calmly, exec_deleteAllResponses h,
      exec_deleteAllResponses h',
      Database.formResponses_eq_nil hnone.2, Database.formResponses_eq_nil hnone'.2,
      Database.boundKeys_eq_nil hnone.1, Database.boundKeys_eq_nil hnone'.1,
        Database.delete_responses_eq hnone.2,
      Database.delete_responses_eq hnone'.2]
  | deleteResponse responseId =>
    cases hr : libs.parseUuid responseId with
    | none =>
      simp only [serve, serve.reply, AdminM.calmly, Admin.deleteResponse, formUuid, h, h', hr,
        pure_bind]
    | some r =>
      simp only [Finds, hr] at hnone hnone'
      have hfind : ∀ f, (¬∃ row ∈ d.responses.rows, some r = some row.id ∧ row.formId = f) →
          (d.responses.rows.find? fun row => decide (row.id = r ∧ row.formId = f)) = none :=
        fun f hf =>
          List.find?_eq_none.2 fun row hrow hfound =>
            hf ⟨row, hrow, congrArg some (of_decide_eq_true hfound).1.symm,
              (of_decide_eq_true hfound).2⟩
      simp only [serve, serve.reply, AdminM.calmly, exec_deleteResponse h hr,
        exec_deleteResponse h' hr,
        hfind _ hnone, hfind _ hnone', Database.delete_response_eq hnone,
          Database.delete_response_eq hnone']
  | updateForm body =>
    by_cases hbody : turnedAway libs d u guildId body
    · obtain ⟨out, hout⟩ := exec_updateForm_turnedAway clock hbody
      simp only [serve, serve.reply, AdminM.calmly, hout formId h, hout formId' h']
    · obtain ⟨edit, parsed, hcheck, hexec⟩ := exec_updateForm clock h hbody
      obtain ⟨edit', parsed', hcheck', hexec'⟩ := exec_updateForm clock h' hbody
      rw [hcheck] at hcheck'
      obtain ⟨rfl, rfl⟩ := Prod.mk.inj (Except.ok.inj hcheck')
      rw [Database.boundKeys_eq_nil hnone] at hexec
      rw [Database.boundKeys_eq_nil hnone'] at hexec'
      simp only [serve, serve.reply, AdminM.calmly, hexec, hexec']
  | responsesData =>
    simp only [serve, serve.reply, AdminM.calmly, exec_responsesData h, exec_responsesData h',
      Database.answer,
      Database.formResponses_eq_nil hnone, Database.formResponses_eq_nil hnone']
  | responsesCsv =>
    simp only [serve, serve.reply, AdminM.calmly, exec_responsesCsv h, exec_responsesCsv h',
      Database.answer,
      Database.formResponses_eq_nil hnone, Database.formResponses_eq_nil hnone']
  | roleConfigSave roleId body => exact absurd trivial hnone

/-! ### Requests that are turned away -/

theorem boundFormId_of_plain (body : RoleConfigBody)
    (hplain : formId ≠ [] ∧ Text.trim formId = formId) :
    RoleConfigBody.boundFormId { body with formId := some formId } = some formId := by
  simp only [RoleConfigBody.boundFormId, Option.map_some, hplain.2]
  exact Option.filter_eq_some_iff.2 ⟨rfl, decide_eq_true hplain.1⟩

/-- The choice of a form by its id. -/
theorem exec_boundSchema {body : RoleConfigBody} {n : Nat} (h : libs.parseUuid formId = some u)
    (hbody : body.boundFormId = some formId) :
    (boundSchema libs guildId body).exec (calm clock) ⟨d, none, n⟩ = match d.form? u guildId with
      | none => (.error (.badRequest "Selected form does not exist for this guild.".toList),
        ⟨d, none, n + 1⟩)
      | some form => (.ok ((libs.schemaFromValue form.schema).toOption, form.isQuiz),
          ⟨d, none, n + 1⟩) := by
  simp only [boundSchema, hbody, h]
  rw [exec_calm rfl]
  have hanswer : (Session.current ⟨d, none, n⟩).answer (.selectForm u guildId) =
    d.form? u guildId := rfl
  rw [hanswer]
  cases d.form? u guildId <;> rfl

private theorem FormRequest.serve_eq_of_not_accepted (hread : ReadsUuids libs.parseUuid)
    {req : FormRequest} (h : libs.parseUuid formId = some u) (h' : libs.parseUuid formId' = some u)
    (hreq : ¬req.Accepted libs guildId u d) :
    req.serve libs clock guildId formId d = req.serve libs clock guildId formId' d := by
  cases req with
  | deleteForm =>
    have hform := Option.not_isSome_iff_eq_none.1 hreq
    simp only [serve, serve.reply, AdminM.calmly, exec_deleteForm h, exec_deleteForm h', hform]
  | deleteAllResponses =>
    have hform := Option.not_isSome_iff_eq_none.1 hreq
    simp only [serve, serve.reply, AdminM.calmly, exec_deleteAllResponses h,
      exec_deleteAllResponses h', hform]
  | deleteResponse responseId =>
    cases hr : libs.parseUuid responseId with
    | none =>
      simp only [serve, serve.reply, AdminM.calmly, Admin.deleteResponse, formUuid, h, h', hr,
        pure_bind]
    | some r =>
      rw [Accepted, hr, Option.isSome_some, eq_self, true_and] at hreq
      have hform := Option.not_isSome_iff_eq_none.1 hreq
      simp only [serve, serve.reply, AdminM.calmly, exec_deleteResponse h hr,
        exec_deleteResponse h' hr, hform]
  | updateForm body =>
    obtain ⟨out, hout⟩ := exec_updateForm_turnedAway clock (not_not.1 hreq)
    simp only [serve, serve.reply, AdminM.calmly, hout formId h, hout formId' h']
  | responsesData =>
    have hform := Option.not_isSome_iff_eq_none.1 hreq
    simp only [serve, serve.reply, AdminM.calmly, exec_responsesData h, exec_responsesData h',
      hform]
  | responsesCsv =>
    cases hform : d.form? u guildId with
    | none => simp only [serve, serve.reply, AdminM.calmly, exec_responsesCsv h,
      exec_responsesCsv h', hform]
    | some form =>
      cases hschema : libs.schemaFromValue form.schema with
      | error e =>
        simp only [serve, serve.reply, AdminM.calmly, exec_responsesCsv h, exec_responsesCsv h',
          hform, hschema]
      | ok schema => exact absurd ⟨form, schema, hform, hschema⟩ hreq
  | roleConfigSave roleId body =>
    simp only [serve, serve.reply, AdminM.calmly]
    rw [Admin.roleConfigSave, exec_calm rfl, Admin.roleConfigSave, exec_calm rfl]
    have hanswer : (Session.current ⟨d, none, 0⟩).answer (.selectLink guildId roleId) =
        d.answer (.selectLink guildId roleId) := rfl
    have hafter : Session.after (calm clock) (.selectLink guildId roleId) ⟨d, none, 0⟩ =
      ⟨d, none, 1⟩ := rfl
    rw [hanswer, hafter]
    cases hlink : d.answer (.selectLink guildId roleId) with
    | none => rfl
    | some link =>
      simp only
      rw [exec_bind, exec_bind, exec_boundSchema h (boundFormId_of_plain body (hread.plain _ _ h)),
        exec_boundSchema h' (boundFormId_of_plain body (hread.plain _ _ h'))]
      cases hform : d.form? u guildId with
      | none => rfl
      | some form =>
        -- the payload is rejected, whichever text stands for the form
        have hrejected : ∃ e,
            parseRoleConfig libs.libs body (libs.schemaFromValue form.schema).toOption form.isQuiz =
                .error e := by
          cases hparsed : parseRoleConfig libs.libs body
              (libs.schemaFromValue form.schema).toOption form.isQuiz with
          | error e => exact ⟨e, rfl⟩
          | ok parsed => exact absurd ⟨by rw [hlink]; rfl, form, parsed, hform, hparsed⟩ hreq
        obtain ⟨e, hrejected⟩ := hrejected
        simp only
        rw [parseRoleConfig_formId _ body (some formId),
          parseRoleConfig_formId _ body (some formId'), hrejected]
        rfl

/-! ### Texts that find something -/

theorem Database.mem_boundKeys {key : LinkKey} :
    key ∈ d.boundKeys formId ↔ ∃ link ∈ d.roleLinks.rows, link.formId = some formId ∧
      link.key = key := by
  simp only [boundKeys, boundLinks, List.mem_map, List.mem_filter, decide_eq_true_eq, and_assoc]

private theorem Database.length_boundKeys_pos
    (h : ∃ link ∈ d.roleLinks.rows, link.formId = some formId) :
    0 < (d.boundKeys formId).length := by
  obtain ⟨link, hlink, hbound⟩ := h
  exact List.length_pos_of_mem (mem_boundKeys.2 ⟨link, hlink, hbound, rfl⟩)

private theorem Database.unbind_links_ne
    (h : ∃ link ∈ d.roleLinks.rows, link.formId = some formId) :
    d.roleLinks.update (·.formId = some formId) unbindSet ≠ d.roleLinks := by
  intro heq
  obtain ⟨link, hlink, hbound⟩ := h
  rw [← heq] at hlink
  obtain ⟨link', -, hupdate⟩ := Table.mem_update.1 hlink
  split at hupdate
  · exact absurd (hbound.symm.trans (congrArg RoleLink.formId hupdate)) (Option.some_ne_none _)
  · rename_i hkept
    exact hkept (decide_eq_true (hupdate ▸ hbound))

private theorem Database.delete_responses_ne (h : ∃ row ∈ d.responses.rows, row.formId = formId) :
    d.responses.delete (·.formId = formId) ≠ d.responses := by
  intro heq
  obtain ⟨row, hrow, hform⟩ := h
  rw [← heq] at hrow
  exact of_decide_eq_false (Table.mem_delete.1 hrow).2 hform

private theorem Database.recent_ne_nil (h : ∃ row ∈ d.responses.rows, row.formId = formId) :
    d.answer (.selectRecentResponses formId) ≠ ([] : List FormResponse) := by
  intro hempty
  obtain ⟨row, hrow, hform⟩ := h
  have hmem : row ∈ (d.formResponses formId).insertionSort fun a b =>
    b.lastEditedAt ≤ a.lastEditedAt :=
    (List.mem_insertionSort _).2 (List.mem_filter.2 ⟨hrow, decide_eq_true hform⟩)
  rcases List.take_eq_nil_iff.1 hempty with hzero | hnil
  · cases hzero
  · rw [hnil] at hmem
    exact List.not_mem_nil hmem

/-- Where one text finds a row and another none, the two requests differ. -/
theorem FormRequest.serve_ne {req : FormRequest}
    (hsave : ∀ roleId body, req ≠ .roleConfigSave roleId body) (h : libs.parseUuid formId = some u)
    (h' : libs.parseUuid formId' = some u) (hreq : req.Accepted libs guildId u d)
    (hfinds : req.Finds libs d formId) (hnone : ¬req.Finds libs d formId') :
    req.serve libs clock guildId formId d ≠ req.serve libs clock guildId formId' d := by
  intro heq
  have hdb := congrArg Prod.snd heq
  cases req with
  | deleteForm =>
    -- a link or a response remains under the one text
    obtain ⟨form, hform⟩ := Option.isSome_iff_exists.1 hreq
    rw [Finds, not_or] at hnone
    simp only [serve, serve.reply, AdminM.calmly, exec_deleteForm h, exec_deleteForm h', hform,
      Database.cascade,
      Database.unbind_links_eq hnone.1, Database.delete_responses_eq hnone.2] at hdb
    rcases hfinds with hlink | hrow
    · exact Database.unbind_links_ne hlink (congrArg Database.roleLinks hdb)
    · exact Database.delete_responses_ne hrow (congrArg Database.responses hdb)
  | deleteAllResponses =>
    obtain ⟨form, hform⟩ := Option.isSome_iff_exists.1 hreq
    rw [Finds, not_or] at hnone
    simp only [serve, serve.reply, AdminM.calmly, exec_deleteAllResponses h,
      exec_deleteAllResponses h', hform,
      Database.boundKeys_eq_nil hnone.1, Database.delete_responses_eq hnone.2] at hdb
    rcases hfinds with hlink | hrow
    · -- the one re-sync that is queued tells them apart
      have hid := congrArg (fun d : Database => d.jobs.nextId) hdb
      simp only [JobTable.nextId_resyncedEach, List.length_nil] at hid
      have hpos := Database.length_boundKeys_pos hlink
      omega
    · exact Database.delete_responses_ne hrow (congrArg Database.responses hdb)
  | deleteResponse responseId =>
    obtain ⟨form, hform⟩ := Option.isSome_iff_exists.1 hreq.2
    obtain ⟨row, hrow, hr, hrowForm⟩ := hfinds
    simp only [Finds, hr] at hnone
    have hfound : (d.responses.rows.find? fun other =>
      decide (other.id = row.id ∧ other.formId = formId)).isSome :=
      List.find?_isSome.2 ⟨row, hrow, decide_eq_true ⟨rfl, hrowForm⟩⟩
    have hmissing : (d.responses.rows.find? fun other =>
      decide (other.id = row.id ∧ other.formId = formId')) = none :=
      List.find?_eq_none.2 fun other hother hmatch =>
        hnone ⟨other, hother, congrArg some (of_decide_eq_true hmatch).1.symm,
          (of_decide_eq_true hmatch).2⟩
    obtain ⟨deleted, hdeleted⟩ := Option.isSome_iff_exists.1 hfound
    -- the one finds the row, the other answers that there is none
    have hreply := congrArg Prod.fst heq
    simp only [serve, serve.reply, AdminM.calmly, exec_deleteResponse h hr,
      exec_deleteResponse h' hr, hform, hdeleted,
      hmissing, Except.map] at hreply
    cases hreply
  | updateForm body =>
    obtain ⟨edit, parsed, hcheck, hexec⟩ := exec_updateForm clock h hreq
    obtain ⟨edit', parsed', hcheck', hexec'⟩ := exec_updateForm clock h' hreq
    rw [hcheck] at hcheck'
    obtain ⟨rfl, rfl⟩ := Prod.mk.inj (Except.ok.inj hcheck')
    have hid := congrArg (fun d : Database => d.jobs.nextId) hdb
    simp only [serve, serve.reply, AdminM.calmly, hexec, hexec'] at hid
    let saved := d.effect (clock 0) (.updateForm u guildId body.version edit)
    have hlength : (d.boundKeys formId).length = (d.boundKeys formId').length :=
      Nat.add_left_cancel ((nextId_saved (d := saved)).symm.trans
        (hid.trans (nextId_saved (d := saved))))
    rw [Database.boundKeys_eq_nil hnone, List.length_nil] at hlength
    have hpos := Database.length_boundKeys_pos hfinds
    omega
  | responsesData =>
    obtain ⟨form, hform⟩ := Option.isSome_iff_exists.1 hreq
    have hreply := congrArg Prod.fst heq
    simp only [serve, serve.reply, AdminM.calmly, exec_responsesData h, exec_responsesData h',
      hform, Except.map] at hreply
    have hget := congrArg (Value.get "responses".toList) (Reply.json.inj (Except.ok.inj hreply))
    rw [json_get, json_get] at hget
    have hrows : (d.answer (.selectRecentResponses formId)).map (responseJson libs) =
        (d.answer (.selectRecentResponses formId')).map (responseJson libs) :=
          Value.array.inj (Option.some.inj hget)
    have hempty : d.answer (.selectRecentResponses formId') = ([] : List FormResponse) := by
      simp only [Database.answer, Database.formResponses_eq_nil hnone]
      rfl
    rw [hempty, List.map_nil, List.map_eq_nil_iff] at hrows
    exact absurd hrows (Database.recent_ne_nil hfinds)
  | responsesCsv =>
    obtain ⟨form, schema, hform, hschema⟩ := hreq
    have hreply := congrArg Prod.fst heq
    simp only [serve, serve.reply, AdminM.calmly, exec_responsesCsv h, exec_responsesCsv h', hform,
      hschema,
      Except.map] at hreply
    have hbody := (Reply.csv.inj (Except.ok.inj hreply)).2
    have hempty : d.answer (.selectResponses formId') = ([] : List FormResponse) := by
      simp only [Database.answer, Database.formResponses_eq_nil hnone]
      rfl
    rw [hempty, List.flatMap_nil] at hbody
    obtain ⟨row, hrow, hrowForm⟩ := hfinds
    have hline := List.flatMap_eq_nil_iff.1 (List.append_cancel_left hbody) row
      ((List.mem_insertionSort _).2 (List.mem_filter.2 ⟨hrow, decide_eq_true hrowForm⟩))
    exact List.append_ne_nil_of_right_ne_nil _ (List.cons_ne_nil _ _) hline
  | roleConfigSave roleId body => exact absurd rfl (hsave roleId body)

/-- An accepted save binds the link to the text as it came. -/
theorem serve_roleConfigSave (clock : Nat → Instant) (hread : ReadsUuids libs.parseUuid)
    {roleId : Text} {body : RoleConfigBody}
    (hreq : (FormRequest.roleConfigSave roleId body).Accepted libs guildId u d) :
    ∃ grant conditions, ∀ formId, libs.parseUuid formId = some u →
      ((FormRequest.roleConfigSave roleId body).serve libs clock guildId formId d).2.roleLinks =
        d.roleLinks.update (·.key = (guildId, roleId))
        (saveSet (some formId) grant conditions) := by
  obtain ⟨hlink, form, parsed, hform, hparsed⟩ := hreq
  refine ⟨parsed.grantOnAnySubmission, .array (parsed.conditions.map Condition.toValue),
    fun formId h => ?_⟩
  have hbound := boundFormId_of_plain body (hread.plain _ _ h)
  have hschema := @exec_boundSchema libs clock guildId formId u d _ 1 h hbound
  rw [hform] at hschema
  obtain ⟨settings, jobs, m, hexec⟩ := exec_roleConfigSave hlink hschema
    ((parseRoleConfig_formId _ body _ _ _).trans (congrArg (Except.map _) hparsed))
  simp only [FormRequest.serve, FormRequest.serve.reply, AdminM.calmly, hexec, hbound]

private theorem Database.exists_link {roleId : Text}
    (h : (d.answer (.selectLink guildId roleId)).isSome) :
    ∃ link ∈ d.roleLinks.rows, link.key = (guildId, roleId) := by
  obtain ⟨link, hlink⟩ := Option.isSome_iff_exists.1 h
  exact ⟨link, List.mem_of_find?_eq_some hlink,
    of_decide_eq_true (List.find?_some (p := fun l : RoleLink =>
      decide (l.key = (guildId, roleId))) hlink)⟩

/-- The row that a save leaves. -/
theorem formId_of_save {t : Table RoleLink.key} {key : LinkKey} {formId : Option Text}
    {grant : Bool} {conditions : Value} {link : RoleLink}
    (h : link ∈ (t.update (·.key = key) (saveSet formId grant conditions)).rows)
    (hkey : link.key = key) :
    link.formId = formId := by
  obtain ⟨link', -, hlink⟩ := Table.mem_update.1 h
  by_cases hmatch : link'.key = key
  · rw [if_pos (decide_eq_true hmatch)] at hlink
    rw [hlink]
    rfl
  · rw [if_neg (by simpa using hmatch)] at hlink
    exact absurd (hlink ▸ hkey) hmatch

private theorem FormRequest.eq_of_save (hread : ReadsUuids libs.parseUuid) {roleId : Text}
    {body : RoleConfigBody} (h : libs.parseUuid formId = some u)
    (h' : libs.parseUuid formId' = some u)
    (hreq : (FormRequest.roleConfigSave roleId body).Accepted libs guildId u d)
    (heq : (FormRequest.roleConfigSave roleId body).serve libs clock guildId formId d =
      (FormRequest.roleConfigSave roleId body).serve libs clock guildId formId' d) :
      formId = formId' := by
  obtain ⟨grant, conditions, hsave⟩ := serve_roleConfigSave clock hread hreq
  obtain ⟨link, hlink, hkey⟩ := Database.exists_link hreq.1
  have hlinks := congrArg (fun r : Except AppError Reply × Database => r.2.roleLinks) heq
  simp only [hsave formId h, hsave formId' h'] at hlinks
  have hmem : (saveSet (some formId) grant conditions).set link ∈
      (d.roleLinks.update (·.key = (guildId, roleId))
          (saveSet (some formId') grant conditions)).rows := by
    rw [← hlinks]
    exact Table.mem_update.2 ⟨link, hlink, by rw [decide_eq_true hkey]; rfl⟩
  exact Option.some.inj (formId_of_save hmem hkey)

/-! ### The result -/

/-- A stored text that reads as a UUID is the text of that UUID. -/
theorem FormRequest.eq_text_of_finds (hread : ReadsUuids libs.parseUuid) (hd : d.Canonical)
    {req : FormRequest} (hsave : ∀ roleId body, req ≠ .roleConfigSave roleId body)
    (h : libs.parseUuid formId = some u) (hfinds : req.Finds libs d formId) : formId = u.text := by
  have hstored : (∃ link ∈ d.roleLinks.rows, link.formId = some formId) ∨
      ∃ row ∈ d.responses.rows, row.formId = formId := by
    cases req with
    | deleteForm | deleteAllResponses => exact hfinds
    | deleteResponse responseId =>
      obtain ⟨row, hrow, -, hform⟩ := hfinds
      exact Or.inr ⟨row, hrow, hform⟩
    | updateForm body => exact Or.inl hfinds
    | responsesData | responsesCsv => exact Or.inr hfinds
    | roleConfigSave roleId body => exact absurd rfl (hsave roleId body)
  have hcanonical : ∃ v : Uuid, formId = v.text := by
    rcases hstored with ⟨link, hlink, hbound⟩ | ⟨row, hrow, hform⟩
    · exact hd.links link hlink formId hbound
    · exact hform ▸ hd.responses row hrow
  obtain ⟨v, rfl⟩ := hcanonical
  rw [hread.text] at h
  exact congrArg Uuid.text (Option.some.inj h)

/-- No link and no response names the form. -/
structure Database.Unreferenced (d : Database) (id : Uuid) : Prop where
  links : ∀ link ∈ d.roleLinks.rows, link.formId ≠ some id.text
  responses : ∀ row ∈ d.responses.rows, row.formId ≠ id.text

private theorem FormRequest.serve_eq_iff (hread : ReadsUuids libs.parseUuid) (hd : d.Canonical)
    (h : libs.parseUuid formId = some u) (h' : libs.parseUuid formId' = some u)
    (req : FormRequest) :
    req.serve libs clock guildId formId d = req.serve libs clock guildId formId' d ↔
      formId = formId' ∨ ¬req.Accepted libs guildId u d ∨ ¬req.Finds libs d formId ∧
        ¬req.Finds libs d formId' := by
  constructor
  · intro heq
    by_cases hreq : req.Accepted libs guildId u d
    · by_cases hsave : ∃ roleId body, req = .roleConfigSave roleId body
      · obtain ⟨roleId, body, rfl⟩ := hsave
        exact Or.inl (FormRequest.eq_of_save hread h h' hreq heq)
      · have hsave : ∀ roleId body, req ≠ .roleConfigSave roleId body := fun roleId body hreq =>
          hsave ⟨roleId, body, hreq⟩
        by_cases hfinds : req.Finds libs d formId <;> by_cases hfinds' : req.Finds libs d formId'
        · left
          rw [FormRequest.eq_text_of_finds hread hd hsave h hfinds,
            FormRequest.eq_text_of_finds hread hd hsave h' hfinds']
        · exact absurd heq (FormRequest.serve_ne hsave h h' hreq hfinds hfinds')
        · exact absurd heq.symm (FormRequest.serve_ne hsave h' h hreq hfinds' hfinds)
        · exact Or.inr (Or.inr ⟨hfinds, hfinds'⟩)
    · exact Or.inr (Or.inl hreq)
  · rintro (rfl | hreq | ⟨hnone, hnone'⟩)
    · rfl
    · exact FormRequest.serve_eq_of_not_accepted hread h h' hreq
    · exact FormRequest.serve_eq h h' hnone hnone'

/-- An accepted deletion leaves no reference to the form exactly if it was given the stored
spelling, or there was no reference. -/
theorem unreferenced_deleteForm_iff (hread : ReadsUuids libs.parseUuid) (hd : d.Canonical)
    (h : libs.parseUuid formId = some u) (hreq : FormRequest.deleteForm.Accepted libs guildId u d) :
    (FormRequest.deleteForm.serve libs clock guildId formId d).2.Unreferenced u ↔
      formId = u.text ∨ d.Unreferenced u := by
  obtain ⟨form, hform⟩ := Option.isSome_iff_exists.1 hreq
  simp only [FormRequest.serve, FormRequest.serve.reply, AdminM.calmly, exec_deleteForm h, hform,
    Database.cascade]
  by_cases hcanonical : formId = u.text
  · refine iff_of_true ⟨?_, ?_⟩ (Or.inl hcanonical)
    · intro link hlink hbound
      obtain ⟨link', -, hupdate⟩ := Table.mem_update.1 hlink
      split at hupdate
      · rw [hupdate] at hbound
        cases hbound
      · rename_i hkept
        exact hkept (decide_eq_true (hcanonical ▸ hupdate ▸ hbound))
    · intro row hrow hrowForm
      exact of_decide_eq_false (Table.mem_delete.1 hrow).2 (hrowForm.trans hcanonical.symm)
  · have hnone : ¬FormRequest.deleteForm.Finds libs d formId := fun hfinds =>
      hcanonical (FormRequest.eq_text_of_finds hread hd
        (fun _ _ => by exact FormRequest.noConfusion) h hfinds)
    rw [FormRequest.Finds, not_or] at hnone
    simp only [Database.unbind_links_eq hnone.1, Database.delete_responses_eq hnone.2]
    exact ⟨fun hgone => Or.inr ⟨hgone.links, hgone.responses⟩,
      fun hgone => ⟨(hgone.resolve_left hcanonical).links,
        (hgone.resolve_left hcanonical).responses⟩⟩

/-- An accepted save binds the link to the responses of the form exactly if it was given the stored
spelling. -/
theorem bound_roleConfigSave_iff (hread : ReadsUuids libs.parseUuid) {roleId : Text}
    {body : RoleConfigBody} (h : libs.parseUuid formId = some u)
    (hreq : (FormRequest.roleConfigSave roleId body).Accepted libs guildId u d) :
    (∀ link ∈ ((FormRequest.roleConfigSave roleId body).serve libs clock guildId
      formId d).2.roleLinks.rows,
      link.key = (guildId, roleId) → link.formId = some u.text) ↔ formId = u.text := by
  obtain ⟨grant, conditions, hsave⟩ := serve_roleConfigSave clock hread hreq
  rw [hsave formId h]
  constructor
  · intro hbound
    obtain ⟨link, hlink, hkey⟩ := Database.exists_link hreq.1
    have hmem : (saveSet (some formId) grant conditions).set link ∈
        (d.roleLinks.update (·.key = (guildId, roleId))
            (saveSet (some formId) grant conditions)).rows :=
      Table.mem_update.2 ⟨link, hlink, by rw [decide_eq_true hkey]; rfl⟩
    exact Option.some.inj (hbound _ hmem hkey)
  · rintro rfl link hlink hkey
    exact formId_of_save hlink hkey

/-- Two spellings of a form's id are served alike exactly if they are one text, or the request is
turned away before the statements that go by the text, or neither text leads these to a row.  So a
deletion cleans up after the form, and a save binds the link to the form's responses, under the
stored spelling only. -/
theorem spellings_agree (hread : ReadsUuids libs.parseUuid) (hd : d.Canonical)
    (h : libs.parseUuid formId = some u) (h' : libs.parseUuid formId' = some u) :
    (∀ req : FormRequest, req.serve libs clock guildId formId d =
      req.serve libs clock guildId formId' d ↔
      formId = formId' ∨ ¬req.Accepted libs guildId u d ∨ ¬req.Finds libs d formId ∧
        ¬req.Finds libs d formId') ∧
    (FormRequest.deleteForm.Accepted libs guildId u d →
      ((FormRequest.deleteForm.serve libs clock guildId formId d).2.Unreferenced u ↔
        formId = u.text ∨ d.Unreferenced u)) ∧
    ∀ roleId body, (FormRequest.roleConfigSave roleId body).Accepted libs guildId u d →
      ((∀ link ∈ ((FormRequest.roleConfigSave roleId body).serve libs clock guildId
        formId d).2.roleLinks.rows,
        link.key = (guildId, roleId) → link.formId = some u.text) ↔ formId = u.text) :=
  ⟨fun req => FormRequest.serve_eq_iff hread hd h h' req, fun hreq =>
    unreferenced_deleteForm_iff hread hd h hreq,
    fun _ _ hreq => bound_roleConfigSave_iff hread h hreq⟩

private theorem plainAdminLibs_reads : ReadsUuids plainAdminLibs.parseUuid :=
  ⟨Uuid.parseHyphenated_text, fun _ _ => Uuid.plain_of_parseHyphenated⟩

private theorem surveyDatabase_canonical : surveyDatabase.Canonical where
  links link hlink formId hbound := by
    rw [List.mem_singleton.1 hlink] at hbound
    exact ⟨surveyId, (Option.some.inj hbound).symm⟩
  responses row hrow := ⟨surveyId, by rw [List.mem_singleton.1 hrow]⟩

def upperSpelling : Text := "00000000-0000-0000-0000-00000000000A".toList

private theorem upperSpelling_reads :
    plainAdminLibs.parseUuid upperSpelling = some surveyId := by decide +kernel

/-- The export fails alike under both spellings; the deletion under the upper-case one leaves
references. -/
theorem spellings_agree_survey :
    FormRequest.responsesCsv.serve plainAdminLibs (fun _ => 0) ['g'] upperSpelling surveyDatabase =
      FormRequest.responsesCsv.serve plainAdminLibs (fun _ => 0)
      ['g'] surveyId.text surveyDatabase ∧
    ¬(FormRequest.deleteForm.serve plainAdminLibs (fun _ => 0)
      ['g'] upperSpelling surveyDatabase).2.Unreferenced
      surveyId := by
  have hagree := @spellings_agree plainAdminLibs (fun _ => 0) ['g'] _ _ _ _ plainAdminLibs_reads
    surveyDatabase_canonical upperSpelling_reads (plainAdminLibs_reads.text surveyId)
  refine ⟨(hagree.1 .responsesCsv).2 (Or.inr (Or.inl ?_)), fun hgone => ?_⟩
  · rintro ⟨form, schema, -, hschema⟩
    cases hschema
  · rcases (hagree.2.1
      (show (surveyDatabase.form? surveyId
        ['g']).isSome by decide +kernel)).1 hgone with htext | hnone
    · exact absurd htext (by decide +kernel)
    · exact hnone.responses _ List.mem_cons_self rfl

/-- The upper-case spelling is read as the same id, and deletes the form, but neither the response
nor the binding. -/
theorem not_spellings_agree :
    plainAdminLibs.parseUuid upperSpelling = plainAdminLibs.parseUuid surveyId.text ∧
    FormRequest.deleteForm.serve plainAdminLibs (fun _ => 0) ['g'] upperSpelling surveyDatabase ≠
      FormRequest.deleteForm.serve plainAdminLibs (fun _ => 0)
      ['g'] surveyId.text surveyDatabase := by
  refine ⟨upperSpelling_reads.trans (plainAdminLibs_reads.text surveyId).symm, fun heq => ?_⟩
  have hlength := congrArg (fun r : Except AppError Reply × Database =>
    r.2.responses.rows.length) heq
  revert hlength
  decide +kernel

end

end FormRespondentRole
