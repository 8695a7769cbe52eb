import FormRespondentRole.Access
import FormRespondentRole.Tenants

/-!
# What strangers cannot change

The service behind the checks: a request over HTTP runs when it is let in, among the requests of all
guilds, the submits of members and the calls of RoleLogic.

Without a request of a manager of a guild, sent from a page of the plugin or of the dashboard, the
forms of the guild stay as they are and no response to them is lost (`content_kept`).  Without one,
and without an iframe session that is signed for a role link and may write, the link is configured
as it was (`link_config_kept`).
-/

namespace FormRespondentRole

open Foundations

/-! ### The service behind the checks -/

inductive ServerEvent
  | http (r : GuildRequest)
  /-- Anything but a new request. -/
  | service (e : ServiceEvent)

def ServiceEvent.isRequest : ServiceEvent → Bool
  | request .. => true
  | _ => false

section

variable (server : AdminServer) (libs : AdminLibs) (submitLibs : SubmitLibs)

def serverStep (s : Service) : ServerEvent → Option Service
  | .http r =>
    match checkRequest server r with
    | .error _ => some s
    | .ok () => serviceStep libs submitLibs s (.request r.guildId r.request)
  | .service e => if e.isRequest then none else serviceStep libs submitLibs s e

def serverSystem : System Service ServerEvent := ⟨serverStep server libs submitLibs⟩

/-- The form ids of a request are written as the program writes them. -/
def ServerEvent.Canonical : ServerEvent → Prop
  | http r => r.request.Canonical libs
  | service _ => True

/-- A write that a manager of the guild sends from an allowed origin. -/
def ServerEvent.ByManager (guildId : Text) : ServerEvent → Prop
  | http r => r.guildId = guildId ∧ r.request.method ≠ .get ∧ FromAllowedOrigin server r ∧
  FromManager server r
  | service _ => False

/-- A save of a role configuration with an iframe session for it that may write. -/
def ServerEvent.BySession (guildId roleId : Text) : ServerEvent → Prop
  | http r => r.guildId = guildId ∧ (∃ body, r.request = .roleConfigSave roleId body) ∧
      FromSession server r fun s => s.guildId = guildId ∧ s.roleId = roleId ∧ s.readOnly = false
  | service _ => False

end

/-- A relation between the rows of a guild before and after: it holds whatever other guilds do, and
of every statement that is allowed, every step of a submit and every call of RoleLogic. -/
structure GuildRelation (submitLibs : SubmitLibs) (guildId : Text) (allowed : AdminCall → Prop)
    (K : Database → Database → Prop) :
    Prop where
  rows : ∀ d d', d'.rowsOf (· = guildId) = d.rowsOf (· = guildId) → K d d'
  trans : ∀ d d' d'', K d d' → K d' d'' → K d d''
  calls : ∀ c, allowed c → ∀ d rows now, K d (d.effectOn rows now c)
  submits : ∀ (s : Service) e t, s.waits e = false →
    submitStep submitLibs s.submitState e = some t → K s.db (s.withSubmitState t).db
  links : ∀ d c, K d (Database.link d c)

section

variable {submitLibs : SubmitLibs} {guildId : Text} {allowed : AdminCall → Prop} {K : Database →
  Database → Prop}
  {d d' : Database}

theorem GuildRelation.statements (hK : GuildRelation submitLibs guildId allowed K) :
    StatementRelation allowed K :=
  ⟨fun d => hK.rows d d rfl, hK.trans, hK.calls⟩

/-- What leaves the rows of the other guilds leaves those of this one. -/
theorem rowsOf_of_others {guild : Text} (h : d'.rowsOf (· ≠ guild) = d.rowsOf (· ≠ guild))
    (hne : guildId ≠ guild) :
    d'.rowsOf (· = guildId) = d.rowsOf (· = guildId) := by
  have hwithin : ∀ {α : Type} (rows rows' : List α) (guildOf : α → Text),
      rows'.filter (fun a => decide (guildOf a ≠ guild)) =
        rows.filter (fun a => decide (guildOf a ≠ guild)) →
        rows'.filter (fun a => decide (guildOf a = guildId)) =
            rows.filter (fun a => decide (guildOf a = guildId)) := by
    intro α rows rows' guildOf hrows
    have hother : ∀ a : α, decide (guildOf a = guildId) = true →
        decide (guildOf a ≠ guild) = true :=
      fun a ha => decide_eq_true (of_decide_eq_true ha ▸ hne)
    rw [filter_within fun a _ => hother a, hrows, ← filter_within fun a _ => hother a]
  simp only [Database.rowsOf, GuildRows.mk.injEq] at h ⊢
  exact ⟨hwithin _ _ _ h.1, hwithin _ _ _ h.2.1, hwithin _ _ _ h.2.2.1, hwithin _ _ _ h.2.2.2⟩

/-! ### Steps and runs -/

/-- The requests of the guild keep within these bounds. -/
structure Service.Bounded (guildId : Text) (allowed : AdminCall → Prop) (s : Service) : Prop where
  sound : s.Sound
  requests : ∀ task ∈ s.requests, task.guildId = guildId → task.conn.Within allowed

variable {server : AdminServer} {libs : AdminLibs} {s s' t : Service}

private theorem bounded_serviceStep {e : ServiceEvent}
    (hK : GuildRelation submitLibs guildId allowed K) (h : s.Bounded guildId allowed)
    (hcanonical : e.Canonical libs)
    (hasks : ∀ req, e = .request guildId req → (req.program libs guildId).run.Asks allowed)
    (hstep : serviceStep libs submitLibs s e = some s') :
    s'.Bounded guildId allowed ∧ K s.db s'.db := by
  suffices hsuff : (∀ task ∈ s'.requests, task.guildId = guildId → task.conn.Within allowed) ∧
    K s.db s'.db from
    ⟨⟨service_sound_step h.sound hcanonical hstep, hsuff.1⟩, hsuff.2⟩
  cases e with
  | submit e =>
    rw [serviceStep] at hstep
    split at hstep
    · cases hstep
    · rename_i hwaits
      obtain ⟨t, ht, rfl⟩ := Option.map_eq_some_iff.1 hstep
      exact ⟨h.requests, hK.submits s e t (Bool.eq_false_iff.2 hwaits) ht⟩
  | request guild req =>
    obtain rfl := Option.some.inj hstep
    refine ⟨fun task htask hguild => ?_, hK.statements.refl _⟩
    rcases List.mem_cons.1 htask with rfl | htask
    · obtain rfl : guild = guildId := hguild
      exact ⟨hasks req rfl, fun ws heq => (by cases heq)⟩
    · exact h.requests task htask hguild
  | start i =>
    simp only [serviceStep, Option.bind_eq_some_iff, Option.map_eq_some_iff] at hstep
    obtain ⟨⟨pre, task, post⟩, hparty, conn, hstart, rfl⟩ := hstep
    refine ⟨fun task' htask' hguild => ?_, hK.statements.refl _⟩
    rcases mem_middle.1 htask' with rfl | htask'
    · obtain ⟨c, k, -, -, rfl⟩ := Connection.start_eq_some hstart
      exact ⟨(h.requests task (mem_of_partyAt hparty) hguild).program,
        (h.requests task (mem_of_partyAt hparty) hguild).writes⟩
    · exact h.requests task' (mem_of_partyAt_others hparty htask') hguild
  | finish i outcome now =>
    simp only [serviceStep, Option.bind_eq_some_iff, Option.ite_none_left_eq_some,
      Option.map_eq_some_iff] at hstep
    obtain ⟨⟨pre, task, post⟩, hparty, -, ⟨conn, d'⟩, hfinish, rfl⟩ := hstep
    have htask := mem_of_partyAt hparty
    have hothers : ∀ task' ∈ pre ++ post, task'.guildId = guildId → task'.conn.Within allowed :=
      fun task' htask' => h.requests task' (mem_of_partyAt_others hparty htask')
    by_cases hguild : task.guildId = guildId
    · obtain ⟨hconn, hkept⟩ := (h.requests task htask hguild).finish hK.statements hfinish
      refine ⟨fun task' htask' hguild' => ?_, hkept⟩
      rcases mem_middle.1 htask' with rfl | htask'
      · exact hconn
      · exact hothers task' htask' hguild'
    · -- a request of another guild
      obtain ⟨inserts, g, hg⟩ := h.sound.requests task htask
      refine ⟨fun task' htask' hguild' => ?_,
        hK.rows _ _ (rowsOf_of_others (hg.others_finish h.sound.homed hfinish) (Ne.symm hguild))⟩
      rcases mem_middle.1 htask' with rfl | htask'
      · exact absurd hguild' hguild
      · exact hothers task' htask' hguild'
  | close i =>
    simp only [serviceStep, Option.map_eq_some_iff] at hstep
    obtain ⟨⟨pre, task, post⟩, hparty, rfl⟩ := hstep
    exact ⟨fun task' htask' => h.requests task' (mem_of_partyAt_others hparty htask'),
      hK.statements.refl _⟩
  | link c =>
    simp only [serviceStep] at hstep
    split at hstep
    · cases hstep
    · obtain rfl := Option.some.inj hstep
      exact ⟨h.requests, hK.links _ c⟩

private theorem bounded_serverStep {e : ServerEvent}
    (hK : GuildRelation submitLibs guildId allowed K) (h : s.Bounded guildId allowed)
    (hcanonical : e.Canonical libs)
    (hasks : ∀ r, e = .http r → r.guildId = guildId → checkRequest server r = .ok () →
      (r.request.program libs guildId).run.Asks allowed)
    (hstep : serverStep server libs submitLibs s e = some s') :
    s'.Bounded guildId allowed ∧ K s.db s'.db := by
  cases e with
  | http r =>
    rw [serverStep] at hstep
    split at hstep
    · obtain rfl := Option.some.inj hstep
      exact ⟨h, hK.statements.refl _⟩
    · rename_i hchecked
      refine bounded_serviceStep (e := .request r.guildId r.request) hK h hcanonical
        (fun req heq => ?_) hstep
      cases heq
      exact hasks r rfl rfl hchecked
  | service e =>
    rw [serverStep] at hstep
    split at hstep
    · cases hstep
    · rename_i hrequest
      have hno : ∀ guild req, e ≠ .request guild req := by
        rintro guild req rfl
        exact hrequest rfl
      refine bounded_serviceStep hK h ?_ (fun req heq => absurd heq (hno _ _)) hstep
      cases e with
      | request guild req => exact absurd rfl (hno guild req)
      | _ => trivial

/-- What holds of every step that the requests of a guild may make holds of a run. -/
theorem kept_run {es : List ServerEvent} (hK : GuildRelation submitLibs guildId allowed K)
    (hquiet : s.Quiet) (hs : Homed s.homes s.db)
    (hrun : (serverSystem server libs submitLibs).Run (fun _ e _ => e.Canonical libs ∧
      ∀ r, e = .http r → r.guildId = guildId → checkRequest server r = .ok () →
        (r.request.program libs guildId).run.Asks allowed) s es t) :
    K s.db t.db := by
  have hstart : s.Bounded guildId allowed := by
    refine ⟨⟨hs, fun tx htx => ?_, fun task htask => ?_⟩, fun task htask => ?_⟩
    · rw [hquiet.1] at htx
      exact absurd htx List.not_mem_nil
    · rw [hquiet.2] at htask
      exact absurd htask List.not_mem_nil
    · rw [hquiet.2] at htask
      exact absurd htask List.not_mem_nil
  have hinv : t.Bounded guildId allowed ∧ K s.db t.db := by
    refine hrun.invariant (P := fun t => t.Bounded guildId allowed ∧ K s.db t.db)
      (fun _ _ _ h hC hstep => ?_)
      ⟨hstart, hK.statements.refl _⟩
    obtain ⟨hnext, hkept⟩ := bounded_serverStep hK h.1 hC.1 hC.2 hstep
    exact ⟨hnext, hK.trans _ _ _ h.2 hkept⟩
  exact hinv.2

end

/-! ### The content of a guild -/

namespace AdminCall

/-- The statement changes forms or responses. -/
def changesContent : AdminCall → Bool
  | insertForm _ | updateForm .. | deleteForm .. | deleteResponse .. | deleteResponses _ => true
  | _ => false

end AdminCall

/-- The forms of the guild are as they were, and the responses are still there, as their
members'. -/
structure Database.KeepsContent (guildId : Text) (d d' : Database) : Prop where
  forms : d'.forms.rows.filter (·.guildId = guildId) = d.forms.rows.filter (·.guildId = guildId)
  responses : ∀ row ∈ d.responses.rows, row.guildId = guildId →
    ∃ row' ∈ d'.responses.rows, row'.id = row.id ∧ row'.pair = row.pair ∧ row'.guildId = row.guildId

section

variable {libs : AdminLibs} {submitLibs : SubmitLibs} {guildId : Text} {s : Service}
  {t : SubmitState}

/-- A submit loses no response. -/
theorem responses_of_submitStep {e : SubmitEvent}
    (hstep : submitStep submitLibs s.submitState e = some t) :
    ∀ row ∈ s.db.responses.rows, ∃ row' ∈ t.responses.rows, row'.id = row.id ∧
      row'.pair = row.pair ∧ row'.guildId = row.guildId := by
  intro row hrow
  rcases submitStep_cases hstep with ⟨hresponses, -⟩ | ⟨tx, -, others, hcommit, -⟩
  · exact ⟨row, hresponses.symm ▸ hrow, rfl, rfl, rfl⟩
  obtain ⟨a, form, now, g, write, newId, jobsNow, -, -, -, happly, -⟩ := commitTx_eq_some hcommit
  have hupdated : ∀ (p : FormResponse → Bool) (c : SetClause FormResponse.id),
      (∀ row, (c.set row).pair = row.pair ∧ (c.set row).guildId = row.guildId) →
        some (s.db.responses.update p c) = some t.responses →
          ∃ row' ∈ t.responses.rows, row'.id = row.id ∧ row'.pair = row.pair ∧
              row'.guildId = row.guildId := by
    intro p c hc heq
    rw [← Option.some.inj heq]
    refine ⟨_, Table.mem_update.2 ⟨row, hrow, rfl⟩, ?_⟩
    split
    · exact ⟨c.key_set row, hc row⟩
    · exact ⟨rfl, rfl, rfl⟩
  cases write with
  | insert attemptCount totalScore passed =>
    simp only [ResponseWrite.apply, Option.dite_none_right_eq_some, Option.some.injEq] at happly
    obtain ⟨hfresh, hinserted⟩ := happly
    rw [← hinserted]
    exact ⟨row, List.mem_append_left _ hrow, rfl, rfl, rfl⟩
  | edit id totalScore passed => exact hupdated _ _ (fun _ => ⟨rfl, rfl⟩) happly
  | overwrite id attemptCount totalScore passed => exact hupdated _ _ (fun _ => ⟨rfl, rfl⟩) happly
  | record id attemptCount totalScore passed => exact hupdated _ _ (fun _ => ⟨rfl, rfl⟩) happly

theorem Database.KeepsContent.of_eq {d d' : Database} (hforms : d'.forms = d.forms)
    (hresponses : d'.responses = d.responses) :
    d.KeepsContent guildId d' :=
  ⟨by rw [hforms], fun row hrow _ => ⟨row, hresponses.symm ▸ hrow, rfl, rfl, rfl⟩⟩

private theorem guildRelation_keepsContent :
    GuildRelation submitLibs guildId (fun c => c.changesContent = false)
    (Database.KeepsContent guildId) where
  rows d d' h := by
    simp only [Database.rowsOf, GuildRows.mk.injEq] at h
    refine ⟨h.1, fun row hrow hguild => ⟨row, ?_, rfl, rfl, rfl⟩⟩
    have hmem : row ∈ d.responses.rows.filter fun row => decide (row.guildId = guildId) :=
      List.mem_filter.2 ⟨hrow, decide_eq_true hguild⟩
    rw [← h.2.1] at hmem
    exact (List.mem_filter.1 hmem).1
  trans d d' d'' h h' := by
    refine ⟨h'.forms.trans h.forms, fun row hrow hguild => ?_⟩
    obtain ⟨row', hrow', hid, hpair, hguild'⟩ := h.responses row hrow hguild
    obtain ⟨row'', hrow'', hid', hpair', hguild''⟩ := h'.responses row' hrow' (hguild'.trans hguild)
    exact ⟨row'', hrow'', hid'.trans hid, hpair'.trans hpair, hguild''.trans hguild'⟩
  calls c hc d rows now := by
    cases c with
    | insertForm | updateForm | deleteForm | deleteResponse | deleteResponses => cases hc
    | _ => exact .of_eq rfl rfl
  submits s e t hwaits hstep := by
    have hforms : t.forms = s.db.forms := by
      refine forms_of_submitStep hstep fun form heq => ?_
      rw [heq] at hwaits
      cases hwaits
    refine ⟨by rw [show (s.withSubmitState t).db.forms = t.forms from rfl, hforms],
      fun row hrow _ => ?_⟩
    exact responses_of_submitStep hstep row hrow
  links d c := by
    cases c with
    | register guildId roleId apiToken =>
      dsimp only [Database.link]
      split <;> exact .of_eq rfl rfl
    | insertSettings guildId =>
      dsimp only [Database.link]
      split <;> exact .of_eq rfl rfl
    | _ => exact .of_eq rfl rfl

/-- What a request of the guild may ask that is let in without being a manager's write. -/
theorem content_asks {server : AdminServer} {r : GuildRequest}
    (hchecked : checkRequest server r = .ok ())
    (hmanager : ¬(ServerEvent.http r).ByManager server r.guildId) :
    (r.request.program libs r.guildId).run.Asks fun c => c.changesContent = false := by
  have hread : ∀ c : AdminCall, c.reads = true → c.changesContent = false :=
    fun c hc => by cases c <;> first | rfl | cases hc
  by_cases hget : r.request.method = .get
  · exact (program_asks libs r.guildId r.request).mono fun c hc =>
      hread c (AdminRequest.reads_of_get hget hc)
  have hentitled := ((checkRequest_of_write hget).1 hchecked).1
  have hnot : ¬(FromAllowedOrigin server r ∧ FromManager server r) :=
    fun h => hmanager ⟨rfl, hget, h⟩
  rw [Entitled] at hentitled
  cases hrequest : r.request with
  | listData | builderData | responsesData | responsesCsv | roleConfigData =>
    rw [hrequest] at hget
    exact absurd rfl hget
  | roleConfigSave roleId body =>
    exact Program.Asks.except_map
      (roleConfigSave_asks hread rfl rfl (fun _ _ _ => rfl) (fun _ => rfl) rfl)
  | _ =>
    rw [hrequest] at hentitled
    exact absurd hentitled hnot

end

/-- In a run without a write that a manager of the guild sends from an allowed origin, the forms of
the guild stay as they are, and no response to them is lost. -/
theorem content_kept {server : AdminServer} {libs : AdminLibs} {submitLibs : SubmitLibs}
    {s t : Service} {es : List ServerEvent} {guildId : Text} (hquiet : s.Quiet)
    (hs : Homed s.homes s.db)
    (hrun : (serverSystem server libs submitLibs).Run (fun _ e _ => e.Canonical libs ∧
      ¬e.ByManager server guildId) s es t) :
    s.db.KeepsContent guildId t.db := by
  refine kept_run guildRelation_keepsContent hquiet hs (hrun.mono fun _ e _ h => ⟨h.1, ?_⟩)
  rintro r rfl rfl hchecked
  exact content_asks hchecked h.2

/-! ### The configuration of a link -/

/-- What a save of the role configuration sets. -/
def RoleLink.config (link : RoleLink) : Option Text × Bool × Value :=
  (link.formId, link.grantOnAnySubmission, link.conditions)

/-- If the link is there it is configured as before, or not configured at all. -/
def Database.KeepsLink (key : LinkKey) (d d' : Database) : Prop :=
  ∀ link ∈ d'.roleLinks.rows, link.key = key →
    link.config = (none, false, .array []) ∨ ∃ link₀ ∈ d.roleLinks.rows, link₀.key = key ∧
      link₀.config = link.config

/-- The statement configures other links at most. -/
def AdminCall.SparesLink (key : LinkKey) : AdminCall → Prop
  | saveLink guildId roleId .. => (guildId, roleId) ≠ key
  | unbindLinks _ => False
  | _ => True

section

variable {libs : AdminLibs} {submitLibs : SubmitLibs} {key : LinkKey}

theorem Database.KeepsLink.of_eq {d d' : Database} (h : d'.roleLinks = d.roleLinks) :
    d.KeepsLink key d' :=
  fun link hlink hkey => Or.inr ⟨link, h ▸ hlink, hkey, rfl⟩

/-- An update that leaves the configuration of the link. -/
theorem Database.KeepsLink.of_update {d d' : Database} {p : RoleLink → Bool}
    {c : SetClause RoleLink.key} (h : d'.roleLinks = d.roleLinks.update p c)
    (hc : ∀ link, link.key = key → p link = true → (c.set link).config = link.config) :
    d.KeepsLink key d' := by
  intro link hlink hkey
  rw [h] at hlink
  obtain ⟨link₀, hlink₀, rfl⟩ := Table.mem_update.1 hlink
  by_cases hp : p link₀ = true
  · rw [if_pos hp] at hkey ⊢
    have hkey₀ : link₀.key = key := (c.key_set link₀).symm.trans hkey
    exact Or.inr ⟨link₀, hlink₀, hkey₀, (hc link₀ hkey₀ hp).symm⟩
  · rw [if_neg hp] at hkey ⊢
    exact Or.inr ⟨link₀, hlink₀, hkey, rfl⟩

private theorem guildRelation_keepsLink :
    GuildRelation submitLibs key.1 (AdminCall.SparesLink key) (Database.KeepsLink key) where
  rows d d' h := by
    simp only [Database.rowsOf, GuildRows.mk.injEq] at h
    intro link hlink hkey
    have hmem : link ∈ d'.roleLinks.rows.filter fun link => decide (link.guildId = key.1) :=
      List.mem_filter.2 ⟨hlink, decide_eq_true (congrArg Prod.fst hkey)⟩
    rw [h.2.2.1] at hmem
    exact Or.inr ⟨link, (List.mem_filter.1 hmem).1, hkey, rfl⟩
  trans d d' d'' h h' := by
    intro link hlink hkey
    rcases h' link hlink hkey with hfresh | ⟨link', hlink', hkey', hconfig⟩
    · exact Or.inl hfresh
    · rw [← hconfig]
      exact h link' hlink' hkey'
  calls c hc d rows now := by
    cases c with
    | saveLink guildId roleId formId grantOnAnySubmission conditions =>
      refine .of_update rfl fun link hkey hmatch => ?_
      exact absurd ((of_decide_eq_true hmatch).2.symm.trans hkey) hc
    | unbindLinks formId => exact hc.elim
    | insertForm form =>
      refine .of_eq ?_
      dsimp only [Database.effectOn, Database.effect]
      split
      · split <;> rfl
      · rfl
    | _ => exact .of_eq rfl
  submits s e t hwaits hstep := .of_eq rfl
  links d c := by
    cases c with
    | register guildId roleId apiToken =>
      dsimp only [Database.link]
      split
      · intro link hlink hkey
        rcases List.mem_append.1 hlink with hlink | hlink
        · exact Or.inr ⟨link, hlink, hkey, rfl⟩
        · rw [List.mem_singleton.1 hlink]
          exact Or.inl rfl
      · exact .of_update rfl fun link _ _ => rfl
    | insertSettings guildId =>
      refine .of_eq ?_
      dsimp only [Database.link]
      split <;> rfl
    | deleteConfig guildId roleId apiToken =>
      exact fun link hlink hkey => Or.inr ⟨link, (Table.mem_delete.1 hlink).1, hkey, rfl⟩
    | deleteOrphan guildId roleId =>
      exact fun link hlink hkey => Or.inr ⟨link, (Table.mem_delete.1 hlink).1, hkey, rfl⟩

/-- What a request of the guild may ask that is let in without being a manager's write or one with a
session for the link. -/
theorem link_asks {server : AdminServer} {r : GuildRequest} {roleId : Text}
    (hchecked : checkRequest server r = .ok ())
    (hmanager : ¬(ServerEvent.http r).ByManager server r.guildId)
    (hsession : ¬(ServerEvent.http r).BySession server r.guildId roleId) :
    (r.request.program libs r.guildId).run.Asks (AdminCall.SparesLink (r.guildId, roleId)) := by
  have hread : ∀ c : AdminCall, c.reads = true → c.SparesLink (r.guildId, roleId) :=
    fun c hc => by cases c <;> trivial
  by_cases hget : r.request.method = .get
  · exact (program_asks libs r.guildId r.request).mono fun c hc =>
      hread c (AdminRequest.reads_of_get hget hc)
  have hentitled := ((checkRequest_of_write hget).1 hchecked).1
  have hnot : ¬(FromAllowedOrigin server r ∧ FromManager server r) :=
    fun h => hmanager ⟨rfl, hget, h⟩
  rw [Entitled] at hentitled
  cases hrequest : r.request with
  | listData | builderData | responsesData | responsesCsv | roleConfigData =>
    rw [hrequest] at hget
    exact absurd rfl hget
  | roleConfigSave role body =>
    rw [hrequest] at hentitled
    have hrole : (r.guildId, role) ≠ (r.guildId, roleId) := by
      rintro heq
      obtain rfl := (Prod.mk.inj heq).2
      rcases hentitled with h | h
      · exact hnot h.2
      · exact hsession ⟨rfl, ⟨body, hrequest⟩, h⟩
    exact Program.Asks.except_map
      (roleConfigSave_asks hread trivial trivial (fun _ _ _ => hrole) (fun _ => trivial) trivial)
  | _ =>
    rw [hrequest] at hentitled
    exact absurd hentitled hnot

end

/-- In a run without a write that a manager of the guild sends from an allowed origin, and without a
save with a session that is signed for the link and may write, the link is configured as it was, or
registered anew. -/
theorem link_config_kept {server : AdminServer} {libs : AdminLibs} {submitLibs : SubmitLibs}
    {s t : Service} {es : List ServerEvent} {guildId roleId : Text} (hquiet : s.Quiet)
    (hs : Homed s.homes s.db)
    (hrun : (serverSystem server libs submitLibs).Run
      (fun _ e _ => e.Canonical libs ∧ ¬e.ByManager server guildId ∧
        ¬e.BySession server guildId roleId) s es t) :
    s.db.KeepsLink (guildId, roleId) t.db := by
  refine kept_run guildRelation_keepsLink hquiet hs (hrun.mono fun _ e _ h => ⟨h.1, ?_⟩)
  rintro r rfl rfl hchecked
  exact link_asks hchecked h.2.1 h.2.2

/-! ### Strangers at the door -/

def openServer : AdminServer := { openSite with rlDashboardOrigin := none }

/-- A deletion of the form, without a session. -/
def strangerDeletes : GuildRequest where
  guildId := ['g']
  request := .deleteForm surveyId.text
  guardedAt := sampleTime
  now := sampleTime
  guildPermission _ _ := .refused

/-- A manager looks at the forms. -/
def adaLists : GuildRequest where
  guildId := ['g']
  request := .listData
  cookie := some adaCookie
  guardedAt := sampleTime
  now := sampleTime
  guildPermission _ _ := .body (.object [("is_manager".toList, .bool true)])

def visits : List ServerEvent :=
  [.http strangerDeletes, .http adaLists, .service (.start 0), .service (.finish 0 .done 2)]

/-- The request only reads, or comes without credentials; and it names no other form than the
survey. -/
def ServerEvent.harmless : ServerEvent → Bool
  | http r =>
    (r.cookie.isNone && r.authorization.isEmpty || decide (r.request.method = .get)) &&
      r.request.formId?.all (· = surveyId.text)
  | service _ => true

private theorem canonical_of_harmless {e : ServerEvent} (h : e.harmless = true) :
    e.Canonical plainAdminLibs := by
  cases e with
  | http r =>
    rw [ServerEvent.harmless, Bool.and_eq_true] at h
    intro formId hformId u hu
    have hsurvey := h.2
    rw [hformId, Option.all_some, decide_eq_true_eq] at hsurvey
    subst hsurvey
    exact congrArg Uuid.text (Option.some.inj ((Uuid.parseHyphenated_text surveyId).symm.trans hu))
  | service e => trivial

private theorem not_byManager_of_harmless {e : ServerEvent} (h : e.harmless = true) :
    ¬e.ByManager openServer ['g'] := by
  cases e with
  | http r =>
    rw [ServerEvent.harmless, Bool.and_eq_true, Bool.or_eq_true, Bool.and_eq_true] at h
    rintro ⟨-, hmethod, -, cookie, caller, perm, hcookie, -⟩
    rcases h.1 with hnone | hget
    · rw [hcookie] at hnone
      cases hnone.1
    · exact hmethod (of_decide_eq_true hget)
  | service e => exact id

private theorem not_bySession_of_harmless {e : ServerEvent} (h : e.harmless = true) :
    ¬e.BySession openServer ['g'] ['r'] := by
  cases e with
  | http r =>
    rw [ServerEvent.harmless, Bool.and_eq_true, Bool.or_eq_true, Bool.and_eq_true] at h
    rintro ⟨-, ⟨body, hrequest⟩, token, session, hbearer, -⟩
    rcases h.1 with hnone | hget
    · rw [GuildRequest.bearer, List.isEmpty_iff.1 hnone.2] at hbearer
      cases hbearer
    · rw [hrequest] at hget
      cases hget
  | service e => exact id

theorem surveyDatabase_homed :
    Homed (quietService surveyDatabase).homes (quietService surveyDatabase).db := by
  refine ⟨fun form hform => ?_, fun link hlink f hf => ?_, fun row hrow => ?_⟩
  · obtain rfl := List.mem_singleton.1 hform
    rfl
  · obtain rfl := List.mem_singleton.1 hlink
    exact ⟨surveyId, (Option.some.inj hf).symm, rfl⟩
  · obtain rfl := List.mem_singleton.1 hrow
    exact ⟨surveyId, rfl, rfl⟩

private theorem visits_run :
    ∃ t, (serverSystem openServer plainAdminLibs quizLibs).Run (fun _ e _ => e.harmless = true)
    (quietService surveyDatabase) visits t ∧ t.requests.length = 1 := by
  have hcheck : ((serverSystem openServer plainAdminLibs quizLibs).check (fun _ e _ => e.harmless)
    (quietService surveyDatabase)
      visits).any (fun t => t.requests.length = 1) := by
    decide +kernel
  obtain ⟨t, ht, hlength⟩ := (Option.any_eq_true _ _).1 hcheck
  exact ⟨t, System.Run.of_check ht, of_decide_eq_true hlength⟩

theorem content_kept_survey : ∃ t : Service, t.requests.length = 1 ∧
    (quietService surveyDatabase).db.KeepsContent ['g'] t.db := by
  obtain ⟨t, hrun, hlength⟩ := visits_run
  exact ⟨t, hlength, content_kept ⟨rfl, rfl⟩ surveyDatabase_homed
    (hrun.mono fun _ _ _ h => ⟨canonical_of_harmless h, not_byManager_of_harmless h⟩)⟩

theorem link_config_kept_survey : ∃ t : Service, t.requests.length = 1 ∧
    (quietService surveyDatabase).db.KeepsLink (['g'], ['r']) t.db := by
  obtain ⟨t, hrun, hlength⟩ := visits_run
  exact ⟨t, hlength, link_config_kept ⟨rfl, rfl⟩ surveyDatabase_homed
    (hrun.mono fun _ _ _ h => ⟨canonical_of_harmless h, not_byManager_of_harmless h,
      not_bySession_of_harmless h⟩)⟩

end FormRespondentRole
