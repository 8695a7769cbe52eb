import FormRespondentRole.CredentialKinds
import FormRespondentRole.Service

/-!
# The plugin contract

The calls of RoleLogic, `register`, `config`, and the entry to the embedded role-config page, which
is opened with a token signed by the key that `register` stored.  A party that does not know the key
of a link cannot change or delete the link, nor enter its page, as long as nobody registers the link
again (`unregistered_link_kept`); but anybody may.
-/

namespace FormRespondentRole

open Foundations Text

/-! ### RoleLogic's tokens -/

structure JwtHeader where
  alg : Text
  typ : Option Text := none

structure Claims where
  iss : Text
  aud : Text
  sub : Text
  guildId : Text
  roleId : Text
  exp : Int64
  readOnly : Bool := false
  act : Option Text := none

structure Verified where
  discordId : Text
  guildId : Text
  roleId : Text
  readOnly : Bool
  actorId : Option Text

inductive RlTokenError
  | malformed
  | badSignature
  | expired
  | wrongAudience
  | wrongIssuer

/-- The MAC, the base64 decoder for URLs, and the derived deserialisers. -/
structure JwtLibs where
  hmac : Mac
  decodeBase64 : Text → Option (List UInt8)
  readHeader : List UInt8 → Option JwtHeader
  readClaims : List UInt8 → Option Claims

def allowedSkewSecs : Int64 := 60

/-- `trim_end_matches` of slashes. -/
def trimSlashes (s : Text) : Text := s.rdropWhile (· = '/')

def audMatches (claimAud expected : Text) : Bool :=
  decide (trimSlashes claimAud = trimSlashes expected)

section

variable (libs : JwtLibs)

/-- The checks of the claims, once the signature is verified. -/
def verifyClaims (payload : List UInt8) (expectedAud : Text) (now : Timestamp) :
    Except RlTokenError Verified :=
  match libs.readClaims payload with
  | none => .error .malformed
  | some claims =>
    if claims.iss ≠ "rolelogic".toList then .error .wrongIssuer
    else if !audMatches claims.aud expectedAud then .error .wrongAudience
    else if now.seconds > (claims.exp + allowedSkewSecs).toInt then .error .expired
    else .ok ⟨claims.sub, claims.guildId, claims.roleId, claims.readOnly, claims.act⟩

def verify (token roleLinkToken expectedAud : Text) (now : Timestamp) :
    Except RlTokenError Verified :=
  match splitn '.' 3 token with
  | [header64, payload64, sig64] =>
    match libs.decodeBase64 header64, libs.decodeBase64 payload64, libs.decodeBase64 sig64 with
    | some headerBytes, some payload, some sig =>
      match libs.readHeader headerBytes with
      | none => .error .malformed
      | some header =>
        if header.alg ≠ "HS256".toList then .error .badSignature
        else if header.typ.any fun typ => typ.map Char.toLower ≠ "jwt".toList then .error .malformed
        else if libs.hmac roleLinkToken (header64 ++ '.' :: payload64) ≠ sig then
          .error .badSignature
        else verifyClaims libs payload expectedAud now
    | _, _, _ => .error .malformed
  | _ => .error .malformed

/-- The token carries the signature of its header and its payload under this key. -/
def SignedUnder (key token : Text) : Prop :=
  ∃ header payload sig, splitn '.' 3 token = [header, payload, sig] ∧
    libs.decodeBase64 sig = some (libs.hmac key (header ++ '.' :: payload))

end

private theorem signedUnder_of_verify {libs : JwtLibs} {token key aud : Text} {now : Timestamp}
    {verified : Verified} (h : verify libs token key aud now = .ok verified) :
    SignedUnder libs key token := by
  rw [verify] at h
  split at h
  · rename_i header payload sig hparts
    split at h
    · rename_i hsig
      split at h
      · cases h
      · split at h
        · cases h
        · split at h
          · cases h
          · split at h
            · cases h
            · rename_i hmac
              exact ⟨header, payload, sig, hparts, by rw [hsig, not_not.1 hmac]⟩
    · cases h
  · cases h

/-! ### Statements -/

inductive PluginCall
  | write (c : LinkCall)
  | selectByToken (apiToken : Text)
  | selectRegistered (guildId roleId apiToken : Text)
  | selectApiToken (guildId roleId : Text)

/-- What a statement answers when it succeeds; a write answers the rows that it affected. -/
abbrev PluginCall.Answer : PluginCall → Type
  | write _ => Nat
  | selectByToken _ => Option LinkKey
  | selectRegistered .. => Bool
  | selectApiToken .. => Option Text

namespace Database

def linksAt (d : Database) (guildId roleId apiToken : Text) : List RoleLink :=
  d.roleLinks.rows.filter fun link => decide (link.key = (guildId, roleId) ∧
    link.apiToken = apiToken)

def pluginAnswer (d : Database) : (c : PluginCall) → c.Answer
  | .write (.register ..) => 1
  | .write (.insertSettings guildId) => if guildId ∈
    d.guildSettings.rows.map GuildSettings.guildId then 0 else 1
  | .write (.deleteConfig guildId roleId apiToken) => (d.linksAt guildId roleId apiToken).length
  | .write (.deleteOrphan guildId roleId) =>
    (d.roleLinks.rows.filter (·.key = (guildId, roleId))).length
  | .selectByToken apiToken => (d.roleLinks.rows.find? (·.apiToken = apiToken)).map RoleLink.key
  | .selectRegistered guildId roleId apiToken => !(d.linksAt guildId roleId apiToken).isEmpty
  | .selectApiToken guildId roleId =>
    (d.roleLinks.rows.find? (·.key = (guildId, roleId))).map RoleLink.apiToken

def pluginEffect (d : Database) : PluginCall → Database
  | .write c => d.link c
  | _ => d

end Database

/-- The database with the number of the statements made so far. -/
def servePlugin (weather : Weather) (c : PluginCall) (s : Database × Nat) :
    Except AppError c.Answer × (Database × Nat) :=
  match weather.outcome s.2 with
  | .done => (.ok (s.1.pluginAnswer c), s.1.pluginEffect c, s.2 + 1)
  | .failed e => (.error (.database e), s.1, s.2 + 1)
  | .lost e => (.error (.database e), s.1.pluginEffect c, s.2 + 1)

abbrev PluginM := ExceptT AppError (Program PluginCall fun c => Except AppError c.Answer)

abbrev sql (c : PluginCall) : PluginM c.Answer := Program.ask c

abbrev trySql (c : PluginCall) : PluginM (Except AppError c.Answer) := Program.attempt c

/-! ### Handlers -/

/-- The token of an `Authorization` header, if the header is there and reads as text. -/
def extractToken (authorization : Option Text) : Except AppError Text :=
  match authorization.bind (stripPrefix "Token ".toList) with
  | some token => .ok token
  | none => .error .unauthorized

/-- A handler from its token on. -/
def withToken {α : Type} (authorization : Option Text) (f : Text → PluginM α) : PluginM α :=
  match extractToken authorization with
  | .ok token => f token
  | .error e => throw e

def register (authorization : Option Text) (guildId roleId : Text) : PluginM Value :=
  withToken authorization fun token => do
    let _ ← sql (.write (.register guildId roleId token))
    let _ ← sql (.write (.insertSettings guildId))
    return Admin.json [("success", .bool true)]

def buildIframeConfig (baseUrl guildId roleId : Text) : Value :=
  Admin.json [("version", Admin.jsonNat 1), ("ui_mode", .str "iframe"),
    ("name", .str "Form Respondent Role"),
    ("description", .str "Build a form, gate Discord roles on submissions or answer-conditions."),
    ("embed_url", .string (baseUrl ++ "/admin/".toList ++ guildId ++ "/role/".toList ++ roleId)),
    ("supports_impersonation_readonly", .bool true)]

def getConfig (baseUrl : Text) (authorization : Option Text) : PluginM Value :=
  withToken authorization fun token => do
    match ← sql (.selectByToken token) with
    | none => throw .unauthorized
    | some key => return buildIframeConfig baseUrl key.1 key.2

def acceptEmptyConfig : Value := Admin.json [("success", .bool true)]

def postConfig (authorization : Option Text) (guildId roleId : Text) : PluginM Value :=
  withToken authorization fun token => do
    if ← sql (.selectRegistered guildId roleId token) then return acceptEmptyConfig
      else throw .unauthorized

def deleteConfig (authorization : Option Text) (guildId roleId : Text) : PluginM Value :=
  withToken authorization fun token => do
    let deleted ← sql (.write (.deleteConfig guildId roleId token))
    if deleted = 0 then throw .unauthorized else return Admin.json [("success", .bool true)]

def RlTokenError.message : RlTokenError → Text
  | expired => "Your session expired. Reopen the plugin in the RoleLogic dashboard.".toList
  | badSignature | malformed => "Invalid auth token.".toList
  | wrongAudience => "Token is for a different plugin.".toList
  | wrongIssuer => "Token was not issued by RoleLogic.".toList

section

variable (libs : JwtLibs) (baseUrl sessionSecret : Text)

/-- The session of the page and its read-only flag, or the message of the page that is shown
instead. -/
def enterWith (guildId roleId rlToken : Text) (now : Timestamp) :
    Except AppError (Option Text) → Except Text (Text × Bool)
  | .error e => .error e.text
  | .ok none => .error "This role link isn't registered with this plugin yet.".toList
  | .ok (some apiToken) =>
    match verify libs rlToken apiToken baseUrl now with
    | .error e => .error e.message
    | .ok verified =>
      -- a token is signed for one link
      if verified.guildId ≠ guildId ∨ verified.roleId ≠ roleId then
        .error "Token does not match this role link.".toList
      else
        .ok (mintIframeSession libs.hmac verified.discordId guildId roleId verified.readOnly
          verified.actorId
          sessionSecret now, verified.readOnly)

def verifyIframeEntry (guildId roleId rlToken : Text) (now : Timestamp) :
    PluginM (Except Text (Text × Bool)) := do
  let apiToken ← trySql (.selectApiToken guildId roleId)
  return enterWith libs baseUrl sessionSecret guildId roleId rlToken now apiToken

end

/-! ### Requests -/

/-- The requests of the contract; the page is requested with a token of RoleLogic. -/
inductive PluginRequest
  | register (authorization : Option Text) (guildId roleId : Text)
  | getConfig (authorization : Option Text)
  | postConfig (authorization : Option Text) (guildId roleId : Text)
  | deleteConfig (authorization : Option Text) (guildId roleId : Text)
  | roleConfigPage (guildId roleId rlToken : Text)

inductive PluginAnswer
  | reply (r : Except AppError Value)
  | page (entry : Except AppError (Except Text (Text × Bool)))

/-- A request, when it is handled, and what its statements meet. -/
structure PluginEvent where
  request : PluginRequest
  now : Timestamp
  weather : Weather

section

variable (libs : JwtLibs) (baseUrl sessionSecret : Text)

/-- What a request is answered, and the database that it leaves. -/
def handlePlugin (e : PluginEvent) (d : Database) : PluginAnswer × Database :=
  let run {α : Type} (p : PluginM α) := p.run.run (servePlugin e.weather) (d, 0)
  match e.request with
  | .register authorization guildId roleId =>
    let r := run (register authorization guildId roleId)
    (.reply r.1, r.2.1)
  | .getConfig authorization =>
    let r := run (getConfig baseUrl authorization)
    (.reply r.1, r.2.1)
  | .postConfig authorization guildId roleId =>
    let r := run (postConfig authorization guildId roleId)
    (.reply r.1, r.2.1)
  | .deleteConfig authorization guildId roleId =>
    let r := run (deleteConfig authorization guildId roleId)
    (.reply r.1, r.2.1)
  | .roleConfigPage guildId roleId rlToken =>
    let r := run (verifyIframeEntry libs baseUrl sessionSecret guildId roleId rlToken e.now)
    (.page r.1, r.2.1)

def pluginSystem : System Database PluginEvent where
  step d e := some (handlePlugin libs baseUrl sessionSecret e d).2

end

/-! ### A party without the key -/

/-- The request is one of a party that knows these keys: it sends no other key, and no signature
under another key. -/
def PluginRequest.MadeWith (libs : JwtLibs) (known : Text → Prop) : PluginRequest → Prop
  | register authorization .. | getConfig authorization | postConfig authorization ..
  | deleteConfig authorization .. =>
    ∀ token, extractToken authorization = .ok token → known token
  | roleConfigPage _ _ rlToken => ∀ key, SignedUnder libs key rlToken → known key

/-- The link of this key is registered, and the statement gets to the database. -/
def PluginEvent.Registers (key : LinkKey) (e : PluginEvent) : Prop :=
  ∃ authorization, e.request = .register authorization key.1 key.2 ∧
    (e.weather.outcome 0).carried = true

section

variable {libs : JwtLibs} {baseUrl sessionSecret : Text} {known : Text → Prop} {d : Database}
  {link : RoleLink}
  {e : PluginEvent}

private theorem link_mem_register (hlink : link ∈ d.roleLinks.rows) {guildId roleId token : Text}
    (hkey : link.key ≠ (guildId, roleId)) :
    link ∈ (d.link (.register guildId roleId token)).roleLinks.rows := by
  simp only [Database.link]
  split
  · exact List.mem_append_left _ hlink
  · exact Table.mem_update.2 ⟨link, hlink, (if_neg (by simpa using hkey)).symm⟩

private theorem link_mem_insertSettings (hlink : link ∈ d.roleLinks.rows) (guildId : Text) :
    link ∈ (d.link (.insertSettings guildId)).roleLinks.rows := by
  simp only [Database.link]
  split <;> exact hlink

private theorem link_mem_deleteConfig (hlink : link ∈ d.roleLinks.rows)
    {guildId roleId token : Text} (htoken : link.apiToken ≠ token) :
    link ∈ (d.link (.deleteConfig guildId roleId token)).roleLinks.rows :=
  Table.mem_delete.2 ⟨hlink, decide_eq_false fun h => htoken h.2⟩

/-- A statement, carried out or not, and what follows it. -/
theorem keeps_sql_bind {α : Type} {P : Database → Prop} {weather : Weather} {c : PluginCall}
    {f : c.Answer → PluginM α} {s : Database × Nat} (hs : P s.1)
    (hc : (weather.outcome s.2).carried = true → P (s.1.pluginEffect c))
    (hf : ∀ a t, P t.1 → P ((f a).run.run (servePlugin weather) t).2.1) :
    P ((sql c >>= f).run.run (servePlugin weather) s).2.1 := by
  rw [Program.run_ask_bind, Program.run_call, servePlugin]
  cases houtcome : weather.outcome s.2 with
  | done => exact hf _ _ (hc (by rw [houtcome]; rfl))
  | failed msg => exact hs
  | lost msg => exact hc (by rw [houtcome]; rfl)

private theorem keeps_withToken {α : Type} {P : Database → Prop} {weather : Weather}
    {authorization : Option Text} {f : Text → PluginM α} {s : Database × Nat} (hs : P s.1)
    (hf : ∀ token, extractToken authorization = .ok token →
      P ((f token).run.run (servePlugin weather) s).2.1) :
    P ((withToken authorization f).run.run (servePlugin weather) s).2.1 := by
  rw [withToken]
  cases h : extractToken authorization with
  | ok token => exact hf token h
  | error e => exact hs

/-- An entry leaves the database as it is, and is granted only for a token that is signed under the
key of the link. -/
theorem handlePlugin_page {guildId roleId rlToken : Text}
    (h : e.request = .roleConfigPage guildId roleId rlToken) :
    ∃ r, handlePlugin libs baseUrl sessionSecret e d = (.page (.ok r), d) ∧ ∀ entry, r = .ok entry →
      ∃ apiToken, d.pluginAnswer (.selectApiToken guildId roleId) = some apiToken ∧
        SignedUnder libs apiToken rlToken := by
  obtain ⟨request, now, weather⟩ := e
  subst h
  have hserve : (servePlugin weather (.selectApiToken guildId roleId) (d, 0)).2.1 = d := by
    rw [servePlugin]
    split <;> rfl
  refine ⟨enterWith libs baseUrl sessionSecret guildId roleId rlToken now
    (servePlugin weather (.selectApiToken guildId roleId) (d, 0)).1,
      congrArg (PluginAnswer.page _, ·) hserve, ?_⟩
  intro entry hentry
  cases hanswer : (servePlugin weather (.selectApiToken guildId roleId) (d, 0)).1 with
  | error err =>
    rw [hanswer] at hentry
    cases hentry
  | ok found =>
    have hfound : found = d.pluginAnswer (.selectApiToken guildId roleId) := by
      rw [servePlugin] at hanswer
      split at hanswer <;> cases hanswer
      rfl
    rw [hanswer] at hentry
    cases found with
    | none => cases hentry
    | some apiToken =>
      refine ⟨apiToken, hfound.symm, ?_⟩
      rw [enterWith] at hentry
      split at hentry
      · cases hentry
      · rename_i verified hverify
        exact signedUnder_of_verify hverify

/-- A request without the key leaves the link, unless it registers it. -/
theorem link_mem_step (hlink : link ∈ d.roleLinks.rows) (hkey : ¬known link.apiToken)
    (hmade : e.request.MadeWith libs known) (hregisters : ¬e.Registers link.key) :
    link ∈ (handlePlugin libs baseUrl sessionSecret e d).2.roleLinks.rows := by
  obtain ⟨request, now, weather⟩ := e
  have hother : ∀ authorization token, (∀ token, extractToken authorization = .ok token →
    known token) →
      extractToken authorization = .ok token → link.apiToken ≠ token :=
    fun authorization token hmade htoken heq => hkey (heq ▸ hmade token htoken)
  cases request with
  | register authorization guildId roleId =>
    refine keeps_withToken (P := fun d => link ∈ d.roleLinks.rows) hlink fun token htoken => ?_
    refine keeps_sql_bind (P := fun d => link ∈ d.roleLinks.rows) hlink
      (fun hcarried => link_mem_register hlink ?_) ?_
    · intro heq
      obtain ⟨rfl, rfl⟩ := Prod.mk.inj heq
      exact hregisters ⟨authorization, rfl, hcarried⟩
    · intro _ t ht
      exact keeps_sql_bind (P := fun d => link ∈ d.roleLinks.rows) ht
        (fun _ => link_mem_insertSettings ht guildId)
        fun _ _ h => h
  | getConfig authorization =>
    refine keeps_withToken (P := fun d => link ∈ d.roleLinks.rows) hlink fun token htoken => ?_
    refine keeps_sql_bind (P := fun d => link ∈ d.roleLinks.rows) hlink (fun _ => hlink)
      fun a t ht => ?_
    cases a <;> exact ht
  | postConfig authorization guildId roleId =>
    refine keeps_withToken (P := fun d => link ∈ d.roleLinks.rows) hlink fun token htoken => ?_
    refine keeps_sql_bind (P := fun d => link ∈ d.roleLinks.rows) hlink (fun _ => hlink)
      fun a t ht => ?_
    cases a <;> exact ht
  | deleteConfig authorization guildId roleId =>
    refine keeps_withToken (P := fun d => link ∈ d.roleLinks.rows) hlink fun token htoken => ?_
    refine keeps_sql_bind (P := fun d => link ∈ d.roleLinks.rows) hlink
      (fun _ => link_mem_deleteConfig hlink (hother authorization token hmade htoken)) fun a t ht =>
        ?_
    dsimp only
    split <;> exact ht
  | roleConfigPage guildId roleId rlToken =>
    obtain ⟨r, hpage, -⟩ :=
      handlePlugin_page (e := ⟨.roleConfigPage guildId roleId rlToken, now, weather⟩) rfl
    rw [hpage]
    exact hlink

end

/-- Whatever a party without the key of a link requests, short of registering the link, leaves the
link as it is and opens no session for its page. -/
theorem unregistered_link_kept {libs : JwtLibs} {baseUrl sessionSecret : Text} {known : Text → Prop}
    {d t : Database} {link : RoleLink} {es : List PluginEvent} (hlink : link ∈ d.roleLinks.rows)
    (hkey : ¬known link.apiToken)
    (hrun : (pluginSystem libs baseUrl sessionSecret).Run
      (fun _ e _ => e.request.MadeWith libs known ∧ ¬e.Registers link.key) d es t) :
    link ∈ t.roleLinks.rows ∧ ∀ e rlToken entry,
      e.request = .roleConfigPage link.guildId link.roleId rlToken →
      e.request.MadeWith libs known → (handlePlugin libs baseUrl sessionSecret e t).1 ≠
        .page (.ok (.ok entry)) := by
  have hkept : link ∈ t.roleLinks.rows := by
    refine hrun.invariant (P := fun d => link ∈ d.roleLinks.rows) ?_ hlink
    rintro d e d' hd ⟨hmade, hregisters⟩ hstep
    cases hstep
    exact link_mem_step hd hkey hmade hregisters
  refine ⟨hkept, fun e rlToken entry hrequest hmade hentry => ?_⟩
  obtain ⟨r, hpage, hgranted⟩ := handlePlugin_page hrequest
  rw [hpage] at hentry
  cases hentry
  obtain ⟨apiToken, hfound, hsigned⟩ := hgranted entry rfl
  -- the key that was looked up is the one of the link
  obtain ⟨link', hfind, rfl⟩ := Option.map_eq_some_iff.1 hfound
  have hkeys : link'.key = link.key := of_decide_eq_true
    (List.find?_some (p := fun l : RoleLink => decide (l.key = (link.guildId, link.roleId))) hfind)
  obtain rfl := Table.eq_of_key (List.mem_of_find?_eq_some hfind) hkept hkeys
  rw [hrequest] at hmade
  exact hkey (hmade _ hsigned)

/-! ### A stranger registers the link -/

def surveyLinkRow : RoleLink :=
  { guildId := ['g'], roleId := ['r'], apiToken := ['k'], formId := some surveyId.text }

/-- Tokens whose parts are written out, all for the page of the survey's link. -/
def letterJwt : JwtLibs where
  hmac := concatMac
  decodeBase64 s := some (bytes s)
  readHeader _ := some { alg := "HS256".toList }
  readClaims _ := some {
    iss := "rolelogic".toList
    aud := ['u']
    sub := ['m']
    guildId := ['g']
    roleId := ['r']
    exp := 1700000300 }

/-- The stranger's key, and a token signed under it. -/
def Stranger (key : Text) : Prop := key = ['x']

private theorem link_key_unknown : ¬Stranger surveyLinkRow.apiToken := by
  intro h
  cases h

def strangerToken : Text := "h.p.xh.p".toList

private theorem strangerToken_made :
    (PluginRequest.roleConfigPage ['g'] ['r'] strangerToken).MadeWith letterJwt Stranger := by
  rintro key ⟨header, payload, sig, hparts, hsig⟩
  have hsplit : splitn '.' 3 strangerToken = [['h'], ['p'], "xh.p".toList] := rfl
  rw [hsplit] at hparts
  cases hparts
  have htext : "xh.p".toList = key ++ "h.p".toList := bytes_injective (Option.some.inj hsig)
  exact (List.append_cancel_right (htext : ['x'] ++ "h.p".toList = _)).symm

private theorem tokenHeader_made {token : Text}
    (h : extractToken (some "Token x".toList) = .ok token) : Stranger token := by
  cases h
  rfl

def calmly (request : PluginRequest) : PluginEvent := ⟨request, sampleTime, calm fun _ => 0⟩

/-- A stranger asks for the deletion of the link, and is refused. -/
theorem unregistered_link_kept_stranger :
    surveyLinkRow ∈ (handlePlugin letterJwt ['u'] ['s']
      (calmly (.deleteConfig (some "Token x".toList) ['g']
        ['r'])) surveyDatabase).2.roleLinks.rows := by
  have hrun : (pluginSystem letterJwt ['u'] ['s']).Run
      (fun _ e _ => e.request.MadeWith letterJwt Stranger ∧
        ¬e.Registers surveyLinkRow.key) surveyDatabase
      [calmly (.deleteConfig (some "Token x".toList) ['g'] ['r'])]
      (handlePlugin letterJwt ['u'] ['s']
          (calmly (.deleteConfig (some "Token x".toList) ['g'] ['r'])) surveyDatabase).2 := by
    refine System.Run.single rfl ⟨fun _ => tokenHeader_made, ?_⟩
    rintro ⟨authorization, h, -⟩
    cases h
  exact (unregistered_link_kept List.mem_cons_self link_key_unknown hrun).1

/-- The stranger registers the link with a key of their own and then enters its page. -/
theorem not_link_kept :
    ¬∀ (libs : JwtLibs) (baseUrl sessionSecret : Text) (known : Text → Prop) (d t : Database)
      (link : RoleLink)
      (es : List PluginEvent), link ∈ d.roleLinks.rows → ¬known link.apiToken →
      (pluginSystem libs baseUrl sessionSecret).Run (fun _ e _ =>
        e.request.MadeWith libs known) d es t →
      link ∈ t.roleLinks.rows ∧ ∀ e rlToken entry,
        e.request = .roleConfigPage link.guildId link.roleId rlToken →
        e.request.MadeWith libs known → (handlePlugin libs baseUrl sessionSecret e t).1 ≠
          .page (.ok (.ok entry)) := by
  intro h
  have hrun : (pluginSystem letterJwt ['u'] ['s']).Run (fun _ e _ =>
    e.request.MadeWith letterJwt Stranger) surveyDatabase
      [calmly (.register (some "Token x".toList) ['g'] ['r'])]
      (handlePlugin letterJwt ['u'] ['s']
          (calmly (.register (some "Token x".toList) ['g'] ['r'])) surveyDatabase).2 :=
    System.Run.single rfl fun _ => tokenHeader_made
  obtain ⟨-, hentry⟩ :=
    h letterJwt ['u'] ['s'] Stranger surveyDatabase _ surveyLinkRow _ List.mem_cons_self
    link_key_unknown hrun
  exact hentry (calmly (.roleConfigPage ['g'] ['r'] strangerToken)) strangerToken _
    rfl strangerToken_made rfl

end FormRespondentRole
