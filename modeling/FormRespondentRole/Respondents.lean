import FormRespondentRole.FormReferences
import FormRespondentRole.GuildAccess
import FormRespondentRole.Foundations.DistinctOn
import Mathlib.Data.Prod.Lex

/-!
# The respondents of a guild

The page that lists who has responded to the forms of a guild's links.  Whom it is shown to is for
the guild to say, and it shows each member once, with the response that was edited last
(`respondents_served`).  As links are bound to forms of their own guild, the responses are to forms
of the guild.
-/

namespace FormRespondentRole

open Foundations

/-- How the database compares texts. -/
structure Collation where
  sortKey : Text → List Nat
  injective : Function.Injective sortKey

namespace Respondents

section

variable (collation : Collation) (rank : Uuid → Nat)

/-- By member, and last edited first; `rank` is the order in which the database finds rows that are
edited at once. -/
def order (row : FormResponse) : List Nat ×ₗ (Instantᵒᵈ ×ₗ Nat) :=
  toLex (collation.sortKey row.discordId, toLex (OrderDual.toDual row.lastEditedAt, rank row.id))

/-- The responses of members to the forms of the guild's links, once for each link. -/
def boundResponses (d : Database) (guildId : Text) : List FormResponse :=
  d.responses.rows.flatMap fun row =>
    (d.roleLinks.rows.filter fun link =>
      decide (link.formId = some row.formId ∧ link.guildId = guildId ∧ row.discordId ≠ [])).map
        fun _ => row

/-- `SELECT DISTINCT ON (discord_id) … ORDER BY discord_id, last_edited_at DESC LIMIT …` -/
def selectRespondents (d : Database) (guildId : Text) (limit : Nat) : List FormResponse :=
  (distinctOn FormResponse.discordId (order collation rank) (boundResponses d guildId)).take limit

end

/-- A request, with the gateway's replies: to the question for the permission, and for the guild's
name. -/
structure Request where
  guildId : Text
  cookie : Option Text
  limit : Option Int64
  now : Timestamp
  guildPermission : Text → Text → PermissionReply
  guildName : Option Text

def Request.limited (r : Request) : Int := min (r.limit.getD 500).toInt 2000

def flag (perm : Value) (name : String) : Bool :=
  ((perm.get name.toList).bind Value.asBool).getD false

section

variable (site : AdminSite) (collation : Collation) (rank : Uuid → Nat) (toRfc3339 : Instant → Text)

def page (guildId : Text) (guildName : Option Text) (rows : List FormResponse) : Value :=
  Admin.json [("guild_id", .string guildId), ("guild_name", guildName.elim .null .string),
    ("respondents", .array (rows.map fun row => Admin.json [("discord_id", .string row.discordId),
      ("submitted_at", .string (toRfc3339 row.submittedAt)),
        ("last_edited_at", .string (toRfc3339 row.lastEditedAt))]))]

def data (d : Database) (r : Request) : Except AppError Value :=
  match r.cookie with
  | none => .error (.unauthorizedWith "Sign in with Discord to view respondents.".toList)
  | some cookie =>
    match verifySession site.libs.hmac site.url cookie site.sessionSecret r.now with
    | none => .error (.unauthorizedWith "Your session is invalid or expired. Sign in again.".toList)
    | some _ =>
      let viewPermission := (d.answer (.selectViewPermission r.guildId)).getD "managers".toList
      match r.guildPermission cookie r.guildId with
      | .unreachable e => .error (.internal ("auth_gateway request failed: ".toList ++ e))
      | .refused => .error (.forbidden "Could not verify your permissions for this guild.".toList)
      | .notJson e => .error (.internal ("auth_gateway response not JSON: ".toList ++ e))
      | .body perm =>
        if !flag perm "is_member" then
          .error (.forbidden "You're not a member of this server.".toList)
        else if viewPermission = "managers".toList ∧ flag perm "is_manager" = false then
          .error (.forbidden "Only server managers can view the respondent list for this server.".toList)
        else if r.limited < 0 then .error (.database "LIMIT must not be negative".toList)
        else .ok (page toRfc3339 r.guildId r.guildName
          (selectRespondents collation rank d r.guildId r.limited.toNat))

end

/-! ### Who may see the list, and what it is -/

/-- A member of the guild who has logged in, and a manager if the guild says so or says nothing. -/
def MayView (site : AdminSite) (d : Database) (r : Request) : Prop :=
  ∃ cookie caller perm, r.cookie = some cookie ∧
    verifySession site.libs.hmac site.url cookie site.sessionSecret r.now = some caller ∧
      r.guildPermission cookie r.guildId = .body perm ∧ flag perm "is_member" = true ∧
        ((d.answer (.selectViewPermission r.guildId)).getD "managers".toList = "managers".toList →
          flag perm "is_manager" = true)

/-- A link of the guild is bound to the form. -/
def Bound (d : Database) (guildId formId : Text) : Prop :=
  ∃ link ∈ d.roleLinks.rows, link.guildId = guildId ∧ link.formId = some formId

/-- Each member once, with the response to the guild's forms that was edited last, and everyone if
there is room. -/
structure Listed (d : Database) (guildId : Text) (limit : Nat)
    (rows : List FormResponse) : Prop where
  stored : ∀ row ∈ rows, row ∈ d.responses.rows ∧ Bound d guildId row.formId ∧ row.discordId ≠ []
  own : ∀ row ∈ rows, row.guildId = guildId ∧ ∀ form ∈ d.forms.rows, form.id.text = row.formId →
    form.guildId = guildId
  once : (rows.map FormResponse.discordId).Nodup
  latest : ∀ row ∈ rows, ∀ other ∈ d.responses.rows, other.discordId = row.discordId →
    Bound d guildId other.formId →
    other.lastEditedAt ≤ row.lastEditedAt
  atMost : rows.length ≤ limit
  complete : rows.length < limit → ∀ row ∈ d.responses.rows, Bound d guildId row.formId →
    row.discordId ≠ [] →
    ∃ row' ∈ rows, row'.discordId = row.discordId

section

variable {site : AdminSite} {collation : Collation} {rank : Uuid → Nat} {toRfc3339 : Instant → Text}
  {d : Database} {guildId : Text}
  {row : FormResponse}

private theorem mem_boundResponses : row ∈ boundResponses d guildId ↔
    row ∈ d.responses.rows ∧ Bound d guildId row.formId ∧ row.discordId ≠ [] := by
  rw [boundResponses, List.mem_flatMap]
  constructor
  · rintro ⟨row', hrow', hmem⟩
    obtain ⟨link, hlink, rfl⟩ := List.mem_map.1 hmem
    obtain ⟨hlink, hbound⟩ := List.mem_filter.1 hlink
    obtain ⟨hform, hguild, hmember⟩ := of_decide_eq_true hbound
    exact ⟨hrow', ⟨link, hlink, hguild, hform⟩, hmember⟩
  · rintro ⟨hrow, ⟨link, hlink, hguild, hform⟩, hmember⟩
    exact ⟨row, hrow, List.mem_map.2
      ⟨link, List.mem_filter.2 ⟨hlink, decide_eq_true ⟨hform, hguild, hmember⟩⟩, rfl⟩⟩

private theorem edited_le_of_order_le {a b : FormResponse} (hsame : b.discordId = a.discordId)
    (h : order collation rank a ≤ order collation rank b) : b.lastEditedAt ≤ a.lastEditedAt := by
  rw [order, order, hsame] at h
  rcases Prod.Lex.le_iff.1 h with h | ⟨-, h⟩
  · exact absurd h (lt_irrefl _)
  · rcases Prod.Lex.le_iff.1 h with h | ⟨h, -⟩
    · exact OrderDual.toDual_le_toDual.1 h.le
    · exact (OrderDual.toDual_inj.1 h).symm.le

/-- What the query selects, when links are bound to forms of their own guild. -/
theorem listed_selectRespondents {homes : Uuid → Option Text} (hd : Homed homes d) (limit : Nat) :
    Listed d guildId limit (selectRespondents collation rank d guildId limit) := by
  have hmem : ∀ row ∈ selectRespondents collation rank d guildId limit,
      row ∈ distinctOn FormResponse.discordId (order collation rank) (boundResponses d guildId) :=
    fun row hrow => List.mem_of_mem_take hrow
  have hbound : ∀ row ∈ selectRespondents collation rank d guildId limit,
      row ∈ boundResponses d guildId :=
    fun row hrow => mem_of_mem_distinctOn (hmem row hrow)
  constructor
  · exact fun row hrow => mem_boundResponses.1 (hbound row hrow)
  · intro row hrow
    obtain ⟨hrow, ⟨link, hlink, hguild, hformId⟩, -⟩ := mem_boundResponses.1 (hbound row hrow)
    -- the form has one home, and the link's guild is it
    obtain ⟨u, htext, hhome⟩ := hd.links link hlink row.formId hformId
    have hrowHome := hd.responses row hrow
    rw [htext] at hrowHome
    refine ⟨(hrowHome.eq hhome).trans hguild, fun form hform hid => ?_⟩
    obtain rfl := Uuid.text_injective (hid.trans htext)
    exact (Option.some.inj ((hd.forms form hform).symm.trans hhome)).trans hguild
  · exact (nodup_distinctOn _).sublist ((List.take_sublist _ _).map _)
  · intro row hrow other hother hsame hotherBound
    obtain ⟨-, -, hmember⟩ := mem_boundResponses.1 (hbound row hrow)
    exact edited_le_of_order_le hsame
      (distinctOn_le (hmem row hrow) (mem_boundResponses.2 ⟨hother, hotherBound, hsame ▸ hmember⟩)
        hsame)
  · exact List.length_take_le _ _
  · intro hlt row hrow hrowBound hmember
    obtain ⟨row', hrow', hsame, -⟩ :
      ∃ row' ∈ distinctOn FormResponse.discordId (order collation rank) (boundResponses d guildId),
        row'.discordId = row.discordId ∧ order collation rank row' ≤ order collation rank row :=
      exists_distinctOn (mem_boundResponses.2 ⟨hrow, hrowBound, hmember⟩)
    refine ⟨row', ?_, hsame⟩
    rw [selectRespondents] at hlt ⊢
    rwa [List.take_of_length_le]
    rw [List.length_take] at hlt
    omega

private theorem data_eq_ok_iff {r : Request} {v : Value} :
    data site collation rank toRfc3339 d r = .ok v ↔ MayView site d r ∧ 0 ≤ r.limited ∧
    v = page toRfc3339 r.guildId r.guildName
    (selectRespondents collation rank d r.guildId r.limited.toNat) := by
  rw [data, MayView]
  cases r.cookie with
  | none =>
    refine ⟨fun h => (by cases h), ?_⟩
    rintro ⟨⟨cookie, caller, perm, heq, -⟩, -⟩
    cases heq
  | some cookie =>
    dsimp only
    cases hsession : verifySession site.libs.hmac site.url cookie site.sessionSecret r.now with
    | none =>
      refine ⟨fun h => (by cases h), ?_⟩
      rintro ⟨⟨cookie', caller, perm, heq, hcaller, -⟩, -⟩
      cases heq
      cases hsession.symm.trans hcaller
    | some caller =>
      dsimp only
      generalize (d.answer (.selectViewPermission r.guildId)).getD "managers".toList =
        viewPermission
      cases hreply : r.guildPermission cookie r.guildId with
      | body perm =>
        dsimp only
        constructor
        · intro h
          split at h
          · cases h
          · rename_i hmember
            split at h
            · cases h
            · rename_i hmanager
              split at h
              · cases h
              · rename_i hlimit
                refine ⟨⟨cookie, caller, perm, rfl, hsession, hreply,
                  by simpa using hmember, fun hview => ?_⟩, not_lt.1 hlimit,
                  (Except.ok.inj h).symm⟩
                exact Bool.not_eq_false _ ▸ fun hfalse => hmanager ⟨hview, hfalse⟩
        · rintro ⟨⟨cookie', caller', perm', heq, -, hperm, hmember, hmanager⟩, hlimit, rfl⟩
          cases heq
          cases hreply.symm.trans hperm
          rw [if_neg (by simp [hmember]), if_neg (fun h => by rw [hmanager h.1] at h; cases h.2),
            if_neg (not_lt.2 hlimit)]
      | _ =>
        refine ⟨fun h => (by cases h), ?_⟩
        rintro ⟨⟨cookie', caller', perm', heq, -, hperm, -⟩, -⟩
        cases heq
        cases hreply.symm.trans hperm

end

/-- In any state of the service, the list is served to those who may see it, unless a negative limit
is asked for, and it lists members who have responded to the guild's own forms. -/
theorem respondents_served {libs : AdminLibs} {submitLibs : SubmitLibs} {s t : Service}
    {es : List ServiceEvent} (hquiet : s.Quiet) (hs : Homed s.homes s.db)
    (hrun : (serviceSystem libs submitLibs).Run (fun _ e _ => e.Canonical libs) s es t)
    (site : AdminSite) (collation : Collation) (rank : Uuid → Nat) (toRfc3339 : Instant → Text)
    (r : Request) :
    ((∃ v, data site collation rank toRfc3339 t.db r = .ok v) ↔
      MayView site t.db r ∧ 0 ≤ r.limited) ∧
      ∀ v, data site collation rank toRfc3339 t.db r = .ok v →
        ∃ rows, Listed t.db r.guildId r.limited.toNat rows ∧
          v = page toRfc3339 r.guildId r.guildName rows := by
  have hhomed : Homed t.homes t.db := (service_sound_run hquiet hs hrun).homed
  constructor
  · constructor
    · rintro ⟨v, hv⟩
      obtain ⟨hview, hlimit, -⟩ := data_eq_ok_iff.1 hv
      exact ⟨hview, hlimit⟩
    · rintro ⟨hview, hlimit⟩
      exact ⟨_, data_eq_ok_iff.2 ⟨hview, hlimit, rfl⟩⟩
  · intro v hv
    obtain ⟨-, -, rfl⟩ := data_eq_ok_iff.1 hv
    exact ⟨_, listed_selectRespondents hhomed _, rfl⟩

/-! ### Two respondents -/

/-- Texts by the codes of their characters. -/
def codeOrder : Collation where
  sortKey s := s.map Char.toNat
  injective := List.map_injective_iff.2 fun _ _ h => Char.toNat_inj.1 h

def asksAda : Request where
  guildId := ['g']
  cookie := some adaCookie
  limit := none
  now := sampleTime
  guildPermission _ _ :=
    .body (.object [("is_manager".toList, .bool true), ("is_member".toList, .bool true)])
  guildName := none

def isSubmit : ServiceEvent → Bool
  | .submit _ => true
  | _ => false

private theorem annResponds :
    ∃ t, (serviceSystem plainAdminLibs quizLibs).Run (fun _ e _ => e.Canonical plainAdminLibs)
    (quietService surveyDatabase) (lateSubmit ++ [.submit (.commit 0)]) t ∧
      t.db.responses.rows.map (fun row => (row.formId, row.discordId)) =
      [(surveyId.text, ['m']), (surveyId.text, "ann".toList)] ∧
      t.db.roleLinks.rows.map (fun link => (link.guildId, link.formId)) =
        [(['g'], some surveyId.text)] := by
  have hcheck : ((serviceSystem plainAdminLibs quizLibs).check (fun _ e _ => isSubmit e)
    (quietService surveyDatabase)
      (lateSubmit ++ [.submit (.commit 0)])).any (fun t =>
        t.db.responses.rows.map (fun row => (row.formId, row.discordId)) =
          [(surveyId.text, ['m']), (surveyId.text, "ann".toList)] ∧
          t.db.roleLinks.rows.map (fun link => (link.guildId, link.formId)) =
              [(['g'], some surveyId.text)]) := by
    decide +kernel
  obtain ⟨t, ht, hseen⟩ := (Option.any_eq_true _ _).1 hcheck
  refine ⟨t, (System.Run.of_check ht).mono fun _ e _ h => ?_, of_decide_eq_true hseen⟩
  cases e with
  | submit e => trivial
  | _ => cases h

theorem respondents_served_ann :
    ∃ (t : Service) (rows : List FormResponse), Listed t.db ['g'] 500 rows ∧
    ∃ row ∈ rows, row.discordId = "ann".toList := by
  obtain ⟨t, hrun, hresponses, hlinks⟩ := annResponds
  have hserved := respondents_served ⟨rfl, rfl⟩ surveyDatabase_homed hrun openSite codeOrder
    (fun u => u.toNat) (fun _ => []) asksAda
  have hview : MayView openSite t.db asksAda :=
    ⟨adaCookie, ("ada".toList, "Ada".toList), _, rfl,
      by decide +kernel, rfl, by decide, fun _ => by decide⟩
  obtain ⟨v, hv⟩ := hserved.1.2 ⟨hview, by decide⟩
  obtain ⟨rows, hlisted, -⟩ := hserved.2 v hv
  have hlength : rows.length < 500 := by
    have hsub : rows.length ≤ t.db.responses.rows.length :=
      (List.Nodup.of_map _ hlisted.once).length_le_of_subset fun row hrow =>
        (hlisted.stored row hrow).1
    have htwo : t.db.responses.rows.length = 2 := by
      have h := congrArg List.length hresponses
      rwa [List.length_map] at h
    omega
  have hann : (surveyId.text, "ann".toList) ∈ t.db.responses.rows.map fun row =>
    (row.formId, row.discordId) := by
    rw [hresponses]
    simp
  obtain ⟨row, hrow, heq⟩ := List.mem_map.1 hann
  obtain ⟨link, hlink, hkey⟩ := List.map_eq_singleton_iff.1 hlinks
  obtain ⟨hform, hmember⟩ := Prod.mk.inj heq
  obtain ⟨hguild, hbound⟩ := Prod.mk.inj hkey
  obtain ⟨row', hrow', hsame⟩ := hlisted.complete hlength row hrow
    ⟨link, hlink ▸ List.mem_singleton_self _, hguild, hbound.trans (congrArg some hform.symm)⟩
      (by rw [hmember]; decide)
  exact ⟨t, rows, hlisted, row', hrow', hsame.trans hmember⟩

end Respondents

end FormRespondentRole
