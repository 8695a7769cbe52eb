import FormRespondentRole.JobWorker
import FormRespondentRole.ResyncQueued
import FormRespondentRole.SyncContract

/-!
# Links that lose their form

The deletion of a form, and a save of a role configuration that names no form, take the form of a
link away and ask for its re-sync.  The re-sync selects the link, finds no form and returns, so that
the mirror and RoleLogic's list keep their members (`unbound_link_keeps_members`).
-/

namespace FormRespondentRole

open Foundations

namespace ChangeRequest

/-- The request takes the form of the link away, unless it fails. -/
inductive Unbinds (guildId : Text) (link : RoleLink) : ChangeRequest → Prop
  | deleteForm {formId : Text} (h : link.formId = some formId) :
  Unbinds guildId link (.deleteForm formId)
  | roleConfigSave {body : RoleConfigBody} (hguild : guildId = link.guildId)
    (h : body.boundFormId = none) :
    Unbinds guildId link (.roleConfigSave link.roleId body)

def Succeeds (libs : AdminLibs) (weather : Weather) (guildId : Text) (req : ChangeRequest)
    (d : Database) : Prop :=
  ∃ reply, ((req.program libs guildId).exec weather ⟨d, none, 0⟩).1 = .ok reply

end ChangeRequest

/-- The link has no members, neither in the mirror nor in RoleLogic's list. -/
def World.Drained (w : World) (k : LinkKey) : Prop :=
  ∀ m, w.mirrored k m = false ∧ w.granted k m = false

/-- A dispatch of the job, in which every call succeeds, completes and leaves `t`. -/
def ConfigSynced (libs : Libs) (serdeError : Value → Text) (job : Job) (w t : World) : Prop :=
  ∃ guildId roleId, taskOf serdeError job = .ok (.configSync guildId roleId) ∧
    (syncForRoleLink libs guildId roleId).run.run serve w = (.ok (), t)

/-! ### Requests that succeed -/

section

variable {libs : AdminLibs} {weather : Weather} {guildId formId : Text} {d : Database}

private theorem exec_query_ok {α : Type} {s : Session} {c : AdminCall} {f : c.Answer → AdminM α}
    {a : α} (h : ((query c >>= f).exec weather s).1 = .ok a) :
    (query c >>= f).exec weather s = (f (s.current.answer c)).exec weather (s.after weather c) := by
  rw [exec_query_bind] at h
  cases houtcome : weather.outcome s.calls with
  | failed e =>
    rw [serveSql_failed houtcome] at h
    cases h
  | done =>
    cases hrefusal : s.current.refusal c with
    | none => exact exec_query_of_done houtcome hrefusal
    | some e =>
      rw [serveSql_refused (by rw [houtcome]; rfl) hrefusal] at h
      cases h
  | lost e =>
    cases hrefusal : s.current.refusal c with
    | none =>
      rw [serveSql_lost houtcome hrefusal] at h
      cases h
    | some e =>
      rw [serveSql_refused (by rw [houtcome]; rfl) hrefusal] at h
      cases h

/-- The end of a save. -/
private def committing (guildId roleId : Text) : AdminM Value := do
  query .commit
  let _ ← tryQuery (.enqueueConfigSync guildId roleId)
  return Admin.json [("success", .bool true)]

private theorem roleLinks_deleteForm {reply : Value}
    (h : ((Admin.deleteForm libs guildId formId).exec weather ⟨d, none, 0⟩).1 = .ok reply) :
    ((Admin.deleteForm libs guildId formId).exec weather ⟨d, none, 0⟩).2.db.roleLinks =
      d.roleLinks.update (·.formId = some formId) unbindSet := by
  rw [Admin.deleteForm, Admin.formUuid] at h ⊢
  cases hid : libs.parseUuid formId with
  | none =>
    rw [hid] at h
    cases h
  | some id =>
    simp only [hid, pure_bind] at h ⊢
    have howns := exec_query_ok h
    rw [howns] at h ⊢
    split at h
    · cases h
    rename_i hfound
    rw [if_neg hfound]
    have hbound := exec_query_ok h
    rw [hbound] at h ⊢
    have hbegin := exec_query_ok h
    rw [hbegin] at h ⊢
    have hunbind := exec_query_ok h
    rw [hunbind] at h ⊢
    have hresponses := exec_query_ok h
    rw [hresponses] at h ⊢
    have hforms := exec_query_ok h
    rw [hforms] at h ⊢
    split at h
    · cases h
    rename_i hdeleted
    rw [if_neg hdeleted]
    have hcommit := exec_query_ok h
    rw [hcommit]
    exact congrArg (fun r : Except AppError Value × Session => r.2.db.roleLinks)
      (exec_bind_of_ok (exec_enqueueEach _))

theorem roleLinks_roleConfigSave {roleId : Text} {body : RoleConfigBody} {reply : Value}
    (hbody : body.boundFormId = none)
    (h : ((Admin.roleConfigSave libs guildId roleId body).exec weather ⟨d, none, 0⟩).1 =
      .ok reply) :
    ∃ parsed : ParsedConfig, parsed.formId = none ∧
      ((Admin.roleConfigSave libs guildId roleId body).exec weather ⟨d, none, 0⟩).2.db.roleLinks =
        savedLinks d guildId roleId parsed := by
  rw [Admin.roleConfigSave] at h ⊢
  have hlink := exec_query_ok h
  rw [hlink] at h ⊢
  split at h
  · cases h
  simp only [Admin.boundSchema, hbody, pure_bind] at h ⊢
  cases hparsed : parseRoleConfig libs.libs body none false with
  | error e =>
    rw [hparsed] at h
    cases h
  | ok parsed =>
    refine ⟨parsed, (formId_of_parseRoleConfig libs.libs hparsed).trans hbody, ?_⟩
    simp only [hparsed, Admin.liftExcept, pure_bind] at h ⊢
    have hbegin := exec_query_ok h
    rw [hbegin] at h ⊢
    have hsave := exec_query_ok h
    rw [hsave] at h ⊢
    have hcommitted : ∀ {s : Session}, ((committing guildId roleId).exec weather s).1 = .ok reply →
        ((committing guildId roleId).exec weather s).2.db.roleLinks = s.current.roleLinks := by
      intro s hs
      have hcommit := exec_query_ok hs
      rw [committing, hcommit, exec_tryQuery_bind]
      exact congrArg (fun r : Session => r.db.roleLinks) (serveSql_resync guildId roleId)
    cases hview : parsed.viewPermission with
    | none =>
      rw [hview] at h
      exact hcommitted h
    | some viewPermission =>
      rw [hview] at h
      have hsettings := exec_query_ok h
      exact (congrArg (fun r : Except AppError Value × Session => r.2.db.roleLinks) hsettings).trans
        (hcommitted (hsettings ▸ h))

/-- The link is left without a form. -/
theorem leaves_of_unbinds {link : RoleLink} {req : ChangeRequest} (hreq : req.Unbinds guildId link)
    (hlink : link ∈ d.roleLinks.rows) (hok : req.Succeeds libs weather guildId d) :
    ∃ link' ∈ (req.leaves libs weather guildId d).roleLinks.rows, link'.key = link.key ∧
      link'.formId = none := by
  obtain ⟨reply, hreply⟩ := hok
  cases hreq with
  | deleteForm h =>
    refine ⟨unbindSet.set link, ?_, rfl, rfl⟩
    rw [ChangeRequest.leaves, ChangeRequest.program, roleLinks_deleteForm hreply]
    exact Table.mem_update.2 ⟨link, hlink, (if_pos (decide_eq_true h)).symm⟩
  | roleConfigSave hguild h =>
    subst hguild
    obtain ⟨parsed, hform, hlinks⟩ := roleLinks_roleConfigSave h hreply
    refine ⟨(saveSet parsed.formId parsed.grantOnAnySubmission
      (.array (parsed.conditions.map Condition.toValue))).set link,
      ?_, rfl, hform⟩
    rw [ChangeRequest.leaves, ChangeRequest.program, hlinks]
    exact Table.mem_update.2 ⟨link, hlink, (if_pos (decide_eq_true rfl)).symm⟩

end

/-! ### The re-sync -/

section

variable {libs : Libs} {serdeError : Value → Text} {job : Job} {link : RoleLink} {w t : World}

private theorem taskOf_configSync (hkind : job.kind = JobKind.configSync.asStr)
    (hpayload : job.payload = configSyncPayload link.guildId link.roleId) :
    taskOf serdeError job = .ok (.configSync link.guildId link.roleId) := by
  rw [taskOf, hkind, JobKind.fromDb_asStr, hpayload]
  rfl

/-- A re-sync of a link without a form makes no change. -/
theorem configSynced_iff_of_unbound (hkind : job.kind = JobKind.configSync.asStr)
    (hpayload : job.payload = configSyncPayload link.guildId link.roleId)
    (hkeys : (w.roleLinks.map RoleLink.key).Nodup) (hlink : link ∈ w.roleLinks)
    (hform : link.formId = none) :
    ConfigSynced libs serdeError job w t ↔ t = w := by
  have htask : taskOf serdeError job = .ok (.configSync link.guildId link.roleId) :=
    taskOf_configSync hkind hpayload
  have hrun : (syncForRoleLink libs link.guildId link.roleId).run.run serve w = (.ok (), w) := by
    have hfind : w.answer (.selectLink link.guildId link.roleId) = some link :=
      World.find_link hkeys hlink
    rw [syncForRoleLink, Program.run_ask_bind, Program.run_call, serve, hfind]
    simp only [hform]
    rfl
  constructor
  · rintro ⟨guildId, roleId, htask', h⟩
    cases htask.symm.trans htask'
    exact (Prod.mk.inj (h.symm.trans hrun)).2
  · rintro rfl
    exact ⟨_, _, htask, hrun⟩

end

/-- Once the form of a link is taken away, its re-sync completes and leaves every member where they
were. -/
theorem unbound_link_keeps_members {libs : AdminLibs} {serdeError : Value → Text}
    {weather : Weather} {guildId : Text} {d : Database} {link : RoleLink} {req : ChangeRequest}
    {job : Job} {w : World} {m : Text} (hlink : link ∈ d.roleLinks.rows)
    (hreq : req.Unbinds guildId link) (hok : req.Succeeds libs weather guildId d)
    (hkind : job.kind = JobKind.configSync.asStr)
    (hpayload : job.payload = configSyncPayload link.guildId link.roleId)
    (hlinks : w.roleLinks = (req.leaves libs weather guildId d).roleLinks.rows)
    (hm : w.mirrored link.key m = true) :
    (∃ t, ConfigSynced libs.libs serdeError job w t) ∧
      ∀ t, ConfigSynced libs.libs serdeError job w t → ¬t.Drained link.key := by
  obtain ⟨link', hlink', hkey, hform⟩ := leaves_of_unbinds hreq hlink hok
  obtain ⟨hguild, hrole⟩ := Prod.mk.inj hkey
  rw [← hlinks] at hlink'
  have hkeys : (w.roleLinks.map RoleLink.key).Nodup := by
    rw [hlinks]
    exact Table.nodup _
  have hpayload' : job.payload = configSyncPayload link'.guildId link'.roleId := by rw [hguild,
    hrole, hpayload]
  have hsynced : ∀ t, ConfigSynced libs.libs serdeError job w t ↔ t = w := fun t =>
    configSynced_iff_of_unbound hkind hpayload' hkeys hlink' hform
  refine ⟨⟨w, (hsynced w).2 rfl⟩, fun t ht hdrained => ?_⟩
  rw [(hsynced t).1 ht] at hdrained
  rw [(hdrained m).1] at hm
  cases hm

/-! ### A deleted form -/

def surveyDeletion : ChangeRequest := .deleteForm surveyId.text

def boundLink : RoleLink :=
  { guildId := ['g'], roleId := ['r'], apiToken := ['k'], formId := some surveyId.text }

def surveyMember : Assignment := ⟨['g'], ['r'], ['m']⟩

/-- The survey is deleted, and its link has a member. -/
def deletedSurvey : World where
  forms := []
  roleLinks := (surveyDeletion.leaves plainAdminLibs (calm fun _ => 0)
    ['g'] surveyDatabase).roleLinks.rows
  formResponses := []
  roleAssignments := [surveyMember]
  roleLogic := [surveyMember]
  optouts _ := []
  userGuilds _ _ := []

/-- The job that the deletion enqueues, once it is claimed. -/
def surveyResync : Job := ⟨1, JobKind.configSync.asStr, configSyncPayload ['g'] ['r'], 1, 8⟩

private theorem boundLink_mem : boundLink ∈ surveyDatabase.roleLinks.rows := List.mem_cons_self

private theorem surveyDeletion_unbinds : surveyDeletion.Unbinds ['g'] boundLink := .deleteForm rfl

private theorem surveyDeletion_succeeds :
    surveyDeletion.Succeeds plainAdminLibs (calm fun _ => 0) ['g'] surveyDatabase :=
  ⟨_, rfl⟩

theorem unbound_link_keeps_members_survey :
    (∃ t, ConfigSynced plainAdminLibs.libs (fun _ => []) surveyResync deletedSurvey t) ∧
      ∀ t, ConfigSynced plainAdminLibs.libs (fun _ => []) surveyResync deletedSurvey t →
        ¬t.Drained boundLink.key := by
  have hm : deletedSurvey.mirrored boundLink.key ['m'] = true := by decide
  exact unbound_link_keeps_members boundLink_mem surveyDeletion_unbinds surveyDeletion_succeeds
    rfl rfl rfl hm

theorem not_unbound_link_drained :
    ¬∀ (libs : AdminLibs) (serdeError : Value → Text) (weather : Weather) (guildId : Text)
      (d : Database)
      (link : RoleLink) (req : ChangeRequest) (job : Job) (w t : World), link ∈ d.roleLinks.rows →
      req.Unbinds guildId link → req.Succeeds libs weather guildId d →
      job.kind = JobKind.configSync.asStr →
      job.payload = configSyncPayload link.guildId link.roleId →
      w.roleLinks = (req.leaves libs weather guildId d).roleLinks.rows →
      ConfigSynced libs.libs serdeError job w t →
      t.Drained link.key := by
  intro h
  have hdrained := h plainAdminLibs (fun _ => []) _ _ _ _ _ surveyResync deletedSurvey deletedSurvey
    boundLink_mem
    surveyDeletion_unbinds surveyDeletion_succeeds rfl rfl rfl ⟨_, _, rfl, rfl⟩
  have hmember := (hdrained ['m']).1
  revert hmember
  decide

end FormRespondentRole
