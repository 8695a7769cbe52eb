import FormRespondentRole.AdminPages
import FormRespondentRole.ReadOnlyGuard
import FormRespondentRole.Statements

/-!
# Who is let in

The checks that a request of the guild pages passes before its handler's own statements: the layer
that turns away writes with a read-only session, the `Origin` of a write, the cookie of a manager,
and the bearer of an iframe session.

`Entitled` says for each request who may make it, in terms of who sends it; `checkRequest_eq_ok_iff`
says that these are the requests that pass.
-/

namespace FormRespondentRole

open Foundations

/-- The scheme, the host and the port of a URL, without its path. -/
def deriveOrigin (baseUrl : Text) : Text :=
  match (Pattern.literal "://".toList).before baseUrl,
      (Pattern.literal "://".toList).after baseUrl with
  | some scheme, some rest =>
    match (Pattern.literal "/".toList).before rest with
    | some host => scheme ++ "://".toList ++ host
    | none => baseUrl
  | _, _ => baseUrl

/-- The check of the `Origin` header, by its first value. -/
def verifyOrigin (origin : Option (List UInt8)) (allowedOrigins : List Text) :
    Except AppError Unit :=
  match origin.bind headerText with
  | none => .error (.forbidden "State-changing requests must include an Origin header.".toList)
  | some origin =>
    if allowedOrigins.any fun allowed => decide (trimSlashes origin = trimSlashes allowed) then
      .ok ()
    else .error (.forbidden ("Origin '".toList ++ origin ++
      "' is not allowed for state-changing requests.".toList))

private theorem verifyOrigin_eq_ok_iff {origin : Option (List UInt8)} {allowedOrigins : List Text} :
    verifyOrigin origin allowedOrigins = .ok () ↔ ∃ value text, origin = some value ∧
      headerText value = some text ∧
      ∃ allowed ∈ allowedOrigins, trimSlashes text = trimSlashes allowed := by
  rw [verifyOrigin]
  cases hbind : origin.bind headerText with
  | none =>
    refine ⟨fun h => (by cases h), ?_⟩
    rintro ⟨value, text, rfl, htext, -⟩
    rw [Option.bind_some, htext] at hbind
    cases hbind
  | some text =>
    obtain ⟨value, rfl, hvalue⟩ := Option.bind_eq_some_iff.1 hbind
    have hany : (allowedOrigins.any fun allowed =>
      decide (trimSlashes text = trimSlashes allowed)) = true ↔
        ∃ allowed ∈ allowedOrigins, trimSlashes text = trimSlashes allowed := by simp
    constructor
    · intro h
      dsimp only at h
      split at h
      · rename_i hsome
        exact ⟨value, text, rfl, hvalue, hany.1 hsome⟩
      · cases h
    · rintro ⟨value', text', heq, htext', hallowed⟩
      obtain rfl := Option.some.inj heq
      obtain rfl := Option.some.inj (hvalue.symm.trans htext')
      exact if_pos (hany.2 hallowed)

/-! ### Requests and their checks -/

namespace AdminRequest

/-- The method of the route of a request. -/
def method : AdminRequest → HttpMethod
  | listData | builderData _ | responsesData _ | responsesCsv _ | roleConfigData _ => .get
  | createForm .. | duplicateForm .. | roleConfigSave .. | setViewPermission _ => .post
  | updateForm .. => .put
  | deleteForm _ | deleteResponse .. | deleteAllResponses _ => .delete

private theorem method_ne (req : AdminRequest) : req.method ≠ .head ∧ req.method ≠ .options := by
  cases req <;> exact ⟨nofun, nofun⟩

/-- A `GET` only reads. -/
theorem reads_of_get {req : AdminRequest} {c : AdminCall} (hget : req.method = .get)
    (h : req.MayAsk c) : c.reads = true := by
  rcases h with h | h
  · exact h
  · cases req <;> cases hget <;> cases c <;> cases h

end AdminRequest

/-- A request to a guild's pages, with what its checks read. -/
structure GuildRequest where
  guildId : Text
  request : AdminRequest
  /-- The values of the `Authorization` headers, in their order. -/
  authorization : List (List UInt8) := []
  query : Option Text := none
  /-- The value of the first `Origin` header. -/
  origin : Option (List UInt8) := none
  /-- The value of the session cookie. -/
  cookie : Option Text := none
  /-- When the read-only layer looks at it, and when its handler does. -/
  guardedAt : Timestamp
  now : Timestamp
  /-- What the auth gateway replies to each cookie and guild meanwhile. -/
  guildPermission : Text → Text → PermissionReply

def GuildRequest.http (r : GuildRequest) : HttpRequest :=
  ⟨r.request.method, r.authorization, r.query⟩

def GuildRequest.bearer (r : GuildRequest) : Option Text := r.authorization.head?.bind bearerOf

structure AdminServer extends AdminSite where
  rlDashboardOrigin : Option Text

structure RoleConfigAccess where
  discordId : Text
  readOnly : Bool

/-- What a request is answered that is not let in. -/
inductive Refused
  | layer (status : Nat) (error : Text)
  | handler (e : AppError)

section

variable (server : AdminServer) (r : GuildRequest)

def AdminServer.allowedOrigins : List Text :=
  deriveOrigin server.baseUrl.text :: server.rlDashboardOrigin.toList

def requireManager : Except AppError Text :=
  match r.cookie with
  | none => .error (.unauthorizedWith "Sign in with Discord first.".toList)
  | some cookie =>
    match verifySession server.libs.hmac server.url cookie server.sessionSecret r.now with
    | none => .error (.unauthorizedWith "Your session is invalid or expired. Sign in again.".toList)
    | some (callerId, _) => do
      checkManager { server.toAdminSite with guildPermission := r.guildPermission } cookie r.guildId
      return callerId

def requireGuildViewAccess : Except AppError Unit :=
  match r.bearer with
  | some bearer =>
    match verifyIframeSession server.libs.hmac bearer server.sessionSecret r.now with
    | none =>
      .error (.unauthorizedWith "Your session expired. Reopen the plugin in the RoleLogic dashboard.".toList)
    | some session =>
      if !session.readOnly ∨ session.guildId ≠ r.guildId then
        .error (.forbidden "Token does not grant access to this page.".toList)
      else .ok ()
  | none => do let _ ← requireManager server r

def requireRoleConfigAccess (roleId : Text) : Except AppError RoleConfigAccess :=
  match r.bearer with
  | some bearer =>
    match verifyIframeSession server.libs.hmac bearer server.sessionSecret r.now with
    | none =>
      .error (.unauthorizedWith "Your session expired. Reopen the plugin in the RoleLogic dashboard.".toList)
    | some s =>
      if s.guildId ≠ r.guildId ∨ s.roleId ≠ roleId then
        .error (.forbidden "Token does not grant access to this role link.".toList)
      else .ok ⟨s.discordId, s.readOnly⟩
  | none => do
    let discordId ← requireManager server r
    return ⟨discordId, false⟩

/-- The checks of a handler, before its first statement. -/
def guard : Except AppError Unit :=
  match r.request with
  | .listData | .builderData _ | .responsesData _ => requireGuildViewAccess server r
  | .responsesCsv _ => do let _ ← requireManager server r
  | .roleConfigData roleId => do let _ ← requireRoleConfigAccess server r roleId
  | .roleConfigSave roleId _ => do
    if r.bearer.isNone then verifyOrigin r.origin server.allowedOrigins
    let access ← requireRoleConfigAccess server r roleId
    if access.readOnly then
      throw (.forbidden "This configuration is read-only while impersonating a user.".toList)
  | .createForm .. | .updateForm .. | .deleteForm _ | .duplicateForm .. | .deleteResponse ..
  | .deleteAllResponses _ | .setViewPermission _ => do
    verifyOrigin r.origin server.allowedOrigins
    let _ ← requireManager server r

def checkRequest : Except Refused Unit :=
  match blockReadOnlyWrites server.libs.hmac server.url server.sessionSecret r.guardedAt r.http with
  | .answered status error => .error (.layer status error)
  | .next _ => (guard server r).mapError .handler

/-! ### Who sends a request -/

/-- It carries the session cookie of someone whom the gateway knows as a manager of the guild. -/
def FromManager : Prop :=
  ∃ cookie caller perm, r.cookie = some cookie ∧
    verifySession server.libs.hmac server.url cookie server.sessionSecret r.now = some caller ∧
    r.guildPermission cookie r.guildId = .body perm ∧
      (perm.get "is_manager".toList).bind Value.asBool = some true

/-- It is sent by a page of the plugin's origin or of the dashboard's. -/
def FromAllowedOrigin : Prop :=
  ∃ value text, r.origin = some value ∧ headerText value = some text ∧
    ∃ allowed ∈ server.allowedOrigins, trimSlashes text = trimSlashes allowed

/-- Its bearer is that of an iframe session of this kind. -/
def FromSession (kind : IframeSession → Prop) : Prop :=
  ∃ token session, r.bearer = some token ∧
    verifyIframeSession server.libs.hmac token server.sessionSecret r.now = some session ∧
    kind session

/-- Who may make a request. -/
def Entitled : Prop :=
  match r.request with
  | .listData | .builderData _ | .responsesData _ =>
    r.bearer = none ∧ FromManager server r ∨ FromSession server r fun s => s.readOnly = true ∧
      s.guildId = r.guildId
  | .responsesCsv _ => FromManager server r
  | .roleConfigData roleId =>
    r.bearer = none ∧ FromManager server r ∨ FromSession server r fun s => s.guildId = r.guildId ∧
      s.roleId = roleId
  | .roleConfigSave roleId _ =>
    r.bearer = none ∧ FromAllowedOrigin server r ∧ FromManager server r ∨
      FromSession server r fun s => s.guildId = r.guildId ∧ s.roleId = roleId ∧ s.readOnly = false
  | _ => FromAllowedOrigin server r ∧ FromManager server r

end

section

variable {server : AdminServer} {r : GuildRequest}

theorem checkManager_eq_ok_iff {site : AdminSite} {cookie guildId : Text} :
    checkManager site cookie guildId = .ok () ↔
    ∃ perm, site.guildPermission cookie guildId = .body perm ∧
      (perm.get "is_manager".toList).bind Value.asBool = some true := by
  rw [checkManager]
  generalize "is_manager".toList = key
  cases hreply : site.guildPermission cookie guildId with
  | body perm =>
    dsimp only
    constructor
    · intro h
      split at h
      · rename_i hmanager
        refine ⟨perm, rfl, ?_⟩
        rcases hflag : (perm.get key).bind Value.asBool with _ | b
        · rw [hflag] at hmanager
          cases hmanager
        · rw [hflag] at hmanager
          exact congrArg some hmanager
      · cases h
    · rintro ⟨perm', heq, hmanager⟩
      cases heq
      rw [hmanager]
      rfl
  | _ =>
    refine ⟨fun h => (by cases h), ?_⟩
    rintro ⟨perm, heq, -⟩
    cases heq

/-- A check whose result is not used. -/
private theorem discard_eq_ok_iff {α : Type} {x : Except AppError α} :
    (do let _ ← x) = Except.ok () ↔ ∃ a, x = .ok a := by
  cases x with
  | error e =>
    refine ⟨fun h => (by cases h), ?_⟩
    rintro ⟨a, h⟩
    cases h
  | ok a => exact ⟨fun _ => ⟨a, rfl⟩, fun _ => rfl⟩

private theorem requireManager_isOk_iff : (∃ caller, requireManager server r = .ok caller) ↔
    FromManager server r := by
  rw [requireManager, FromManager]
  cases r.cookie with
  | none =>
    constructor
    · rintro ⟨caller, h⟩
      cases h
    · rintro ⟨cookie, caller, perm, heq, -⟩
      cases heq
  | some cookie =>
    dsimp only
    cases hsession : verifySession server.libs.hmac server.url cookie server.sessionSecret
        r.now with
    | none =>
      constructor
      · rintro ⟨caller, h⟩
        cases h
      · rintro ⟨cookie', caller, perm, heq, hcaller, -⟩
        obtain rfl := Option.some.inj heq
        cases hsession.symm.trans hcaller
    | some caller =>
      have hcheck := @checkManager_eq_ok_iff
        { server.toAdminSite with guildPermission := r.guildPermission } cookie r.guildId
      constructor
      · rintro ⟨callerId, h⟩
        cases hmanager : checkManager
            { server.toAdminSite with guildPermission := r.guildPermission } cookie r.guildId with
        | error e =>
          rw [hmanager] at h
          cases h
        | ok u =>
          obtain ⟨perm, hperm, hflag⟩ := hcheck.1 hmanager
          exact ⟨cookie, caller, perm, rfl, hsession, hperm, hflag⟩
      · rintro ⟨cookie', caller', perm, heq, -, hperm, hflag⟩
        obtain rfl := Option.some.inj heq
        exact ⟨caller.1, by rw [hcheck.2 ⟨perm, hperm, hflag⟩]; rfl⟩

private theorem requireGuildViewAccess_eq_ok_iff : requireGuildViewAccess server r = .ok () ↔
    r.bearer = none ∧ FromManager server r ∨ FromSession server r fun s => s.readOnly = true ∧
      s.guildId = r.guildId := by
  rw [requireGuildViewAccess, FromSession]
  cases hbearer : r.bearer with
  | some bearer =>
    dsimp only
    cases hsession : verifyIframeSession server.libs.hmac bearer server.sessionSecret r.now with
    | none =>
      refine ⟨fun h => (by cases h), ?_⟩
      rintro (⟨h, -⟩ | ⟨token, session, heq, hverified, -⟩)
      · cases h
      · obtain rfl := Option.some.inj heq
        cases hsession.symm.trans hverified
    | some session =>
      dsimp only
      constructor
      · intro h
        split at h
        · cases h
        · rename_i hgrants
          rw [not_or, Bool.not_eq_true', Bool.not_eq_false, not_not] at hgrants
          exact Or.inr ⟨bearer, session, rfl, hsession, hgrants⟩
      · rintro (⟨h, -⟩ | ⟨token, session', heq, hverified, hreadOnly, hguild⟩)
        · cases h
        · obtain rfl := Option.some.inj heq
          obtain rfl := Option.some.inj (hsession.symm.trans hverified)
          refine if_neg ?_
          rw [not_or, Bool.not_eq_true', Bool.not_eq_false, not_not]
          exact ⟨hreadOnly, hguild⟩
  | none =>
    dsimp only
    constructor
    · exact fun h => Or.inl ⟨rfl, requireManager_isOk_iff.1 (discard_eq_ok_iff.1 h)⟩
    · rintro (⟨-, h⟩ | ⟨token, session, heq, -⟩)
      · exact discard_eq_ok_iff.2 (requireManager_isOk_iff.2 h)
      · cases heq

/-- Whom the role configuration is open to, with their flag. -/
theorem requireRoleConfigAccess_isOk_iff {roleId : Text} {P : Bool → Prop} :
    (∃ access, requireRoleConfigAccess server r roleId = .ok access ∧ P access.readOnly) ↔
      r.bearer = none ∧ FromManager server r ∧ P false ∨
        FromSession server r fun s => s.guildId = r.guildId ∧ s.roleId = roleId ∧ P s.readOnly := by
  rw [requireRoleConfigAccess, FromSession]
  cases hbearer : r.bearer with
  | some bearer =>
    dsimp only
    cases hsession : verifyIframeSession server.libs.hmac bearer server.sessionSecret r.now with
    | none =>
      constructor
      · rintro ⟨access, h, -⟩
        cases h
      · rintro (⟨h, -⟩ | ⟨token, session, heq, hverified, -⟩)
        · cases h
        · obtain rfl := Option.some.inj heq
          cases hsession.symm.trans hverified
    | some session =>
      dsimp only
      constructor
      · rintro ⟨access, h, hflag⟩
        split at h
        · cases h
        · rename_i hgrants
          rw [not_or, not_not, not_not] at hgrants
          cases h
          exact Or.inr ⟨bearer, session, rfl, hsession, hgrants.1, hgrants.2, hflag⟩
      · rintro (⟨h, -⟩ | ⟨token, session', heq, hverified, hguild, hrole, hflag⟩)
        · cases h
        · obtain rfl := Option.some.inj heq
          obtain rfl := Option.some.inj (hsession.symm.trans hverified)
          refine ⟨_, if_neg ?_, hflag⟩
          rw [not_or, not_not, not_not]
          exact ⟨hguild, hrole⟩
  | none =>
    dsimp only
    constructor
    · rintro ⟨access, h, hflag⟩
      cases hmanager : requireManager server r with
      | error e =>
        rw [hmanager] at h
        cases h
      | ok caller =>
        rw [hmanager] at h
        cases h
        exact Or.inl ⟨rfl, requireManager_isOk_iff.1 ⟨caller, hmanager⟩, hflag⟩
    · rintro (⟨-, h, hflag⟩ | ⟨token, session, heq, -⟩)
      · obtain ⟨caller, hcaller⟩ := requireManager_isOk_iff.2 h
        rw [hcaller]
        exact ⟨_, rfl, hflag⟩
      · cases heq

/-- The check of the origin, and then of the manager. -/
theorem originThenManager_eq_ok_iff :
    (do verifyOrigin r.origin server.allowedOrigins
        let _ ← requireManager server r) = Except.ok () ↔
          FromAllowedOrigin server r ∧ FromManager server r := by
  cases horigin : verifyOrigin r.origin server.allowedOrigins with
  | error e =>
    refine ⟨fun h => (by cases h), fun h => ?_⟩
    rw [verifyOrigin_eq_ok_iff.2 h.1] at horigin
    cases horigin
  | ok u =>
    constructor
    · exact fun h => ⟨verifyOrigin_eq_ok_iff.1 horigin,
        requireManager_isOk_iff.1 (discard_eq_ok_iff.1 h)⟩
    · exact fun h => discard_eq_ok_iff.2 (requireManager_isOk_iff.2 h.2)

/-- The checks of a save of the role configuration. -/
theorem saveGuard_eq_ok_iff {roleId : Text} : (do
    if r.bearer.isNone then verifyOrigin r.origin server.allowedOrigins
    let access ← requireRoleConfigAccess server r roleId
    if access.readOnly then
      throw (.forbidden "This configuration is read-only while impersonating a user.".toList)) =
        Except.ok () ↔
    (r.bearer = none → FromAllowedOrigin server r) ∧
      ∃ access, requireRoleConfigAccess server r roleId = .ok access ∧ access.readOnly = false := by
  have hrest : (do
      let access ← requireRoleConfigAccess server r roleId
      if access.readOnly then
        throw (.forbidden "This configuration is read-only while impersonating a user.".toList)) =
          Except.ok () ↔
      ∃ access, requireRoleConfigAccess server r roleId = .ok access ∧ access.readOnly = false := by
    cases requireRoleConfigAccess server r roleId with
    | error e =>
      refine ⟨fun h => (by cases h), ?_⟩
      rintro ⟨access, h, -⟩
      cases h
    | ok access =>
      obtain ⟨discordId, readOnly⟩ := access
      cases readOnly with
      | true =>
        refine ⟨fun h => (by cases h), ?_⟩
        rintro ⟨access, h, hflag⟩
        cases h
        cases hflag
      | false => exact ⟨fun _ => ⟨_, rfl, rfl⟩, fun _ => rfl⟩
  rw [← hrest]
  cases r.bearer with
  | some bearer => exact ⟨fun h => ⟨fun hnone => (by cases hnone), h⟩, fun h => h.2⟩
  | none =>
    cases horigin : verifyOrigin r.origin server.allowedOrigins with
    | error e =>
      refine ⟨fun h => (by cases h), fun h => ?_⟩
      rw [verifyOrigin_eq_ok_iff.2 (h.1 rfl)] at horigin
      cases horigin
    | ok u => exact ⟨fun h => ⟨fun _ => verifyOrigin_eq_ok_iff.1 horigin, h⟩, fun h => h.2⟩

/-- Each handler lets in those who may make its request. -/
theorem guard_eq_ok_iff : guard server r = .ok () ↔ Entitled server r := by
  rw [guard, Entitled]
  cases r.request with
  | listData | builderData | responsesData => exact requireGuildViewAccess_eq_ok_iff
  | responsesCsv formId => exact discard_eq_ok_iff.trans requireManager_isOk_iff
  | roleConfigData roleId =>
    have haccess := @requireRoleConfigAccess_isOk_iff server r roleId fun _ => True
    simp only [and_true] at haccess
    exact discard_eq_ok_iff.trans haccess
  | roleConfigSave roleId body =>
    have haccess := @requireRoleConfigAccess_isOk_iff server r roleId (· = false)
    simp only [and_true] at haccess
    refine saveGuard_eq_ok_iff.trans ?_
    rw [haccess]
    cases hbearer : r.bearer with
    | none =>
      have hnone : ¬FromSession server r fun s => s.guildId = r.guildId ∧ s.roleId = roleId ∧
          s.readOnly = false := by
        rintro ⟨token, session, heq, -⟩
        cases hbearer.symm.trans heq
      simp [hnone]
    | some token => simp
  | _ => exact originThenManager_eq_ok_iff

private theorem handled_eq_ok_iff : (guard server r).mapError Refused.handler = .ok () ↔
    Entitled server r := by
  rw [← guard_eq_ok_iff]
  cases guard server r with
  | error e => exact ⟨fun h => (by cases h), fun h => (by cases h)⟩
  | ok u => exact ⟨fun _ => rfl, fun _ => rfl⟩

private theorem checkRequest_of_get (hget : r.request.method = .get) :
    checkRequest server r = .ok () ↔ Entitled server r := by
  have hmethods : r.http.method = r.request.method := rfl
  rw [checkRequest, blockReadOnlyWrites, hmethods, if_pos (Or.inl hget)]
  exact handled_eq_ok_iff

theorem checkRequest_of_write (hget : r.request.method ≠ .get) :
    checkRequest server r = .ok () ↔ Entitled server r ∧
    readOnlySessionOn server.libs.hmac server.url server.sessionSecret r.guardedAt r.http =
      none := by
  have hmethods : r.http.method = r.request.method := rfl
  obtain ⟨hhead, hoptions⟩ := r.request.method_ne
  rw [checkRequest, blockReadOnlyWrites, hmethods, if_neg (by simp [hget, hhead, hoptions])]
  cases hsession : readOnlySessionOn server.libs.hmac server.url server.sessionSecret r.guardedAt
      r.http with
  | some session => exact ⟨fun h => (by cases h), fun h => (by cases h.2)⟩
  | none => exact handled_eq_ok_iff.trans ⟨fun h => ⟨h, rfl⟩, And.left⟩

/-- A request passes the layer and its handler's checks if it comes from someone who may make it,
and a write carries no read-only session where the layer looks for one. -/
theorem checkRequest_eq_ok_iff (server : AdminServer) (r : GuildRequest) :
    checkRequest server r = .ok () ↔ Entitled server r ∧
    (r.request.method ≠ .get →
      readOnlySessionOn server.libs.hmac server.url server.sessionSecret r.guardedAt r.http =
        none) := by
  by_cases hget : r.request.method = .get
  · exact (checkRequest_of_get hget).trans ⟨fun h => ⟨h, fun hne => absurd hget hne⟩, And.left⟩
  · exact (checkRequest_of_write hget).trans (and_congr_right fun _ =>
      ⟨fun h _ => h, fun h => h hget⟩)

end

end FormRespondentRole
