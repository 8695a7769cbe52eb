import FormRespondentRole.Access

/-!
# The DWEEB picker

The editor of DWEEB shows the forms of a guild for a picker token, which the bridge gives to a
manager of the guild who has logged in.  A token is checked by its seal alone, and the cookie of a
login is sealed alike.

So, as long as nobody forges a seal, a list is served for a token that the bridge has given to a
manager of the guild in the last twelve hours, or for a login cookie behind the prefix of a token if
the name in the cookie is the guild's id (`forms_served_iff`): any member who takes that name sees
the guild's list.
-/

namespace FormRespondentRole

open Foundations Text Admin

/-! ### Requests -/

/-- Fifteen to twenty-five digits. -/
def isSnowflake (s : Text) : Bool :=
  decide (15 ≤ (bytes s).length ∧ (bytes s).length ≤ 25) && (bytes s).all fun b =>
    decide (48 ≤ b ∧ b ≤ 57)

private theorem colon_not_mem_of_isSnowflake {s : Text} (h : isSnowflake s = true) : ':' ∉ s := by
  intro hmem
  rw [isSnowflake, Bool.and_eq_true, List.all_eq_true] at h
  have hbyte : (58 : UInt8) ∈ bytes s := List.mem_flatMap.2 ⟨':', hmem, by decide⟩
  exact absurd (h.2 58 hbyte) (by decide)

namespace Dweeb

/-- A request to the bridge, and what it meets: the gateway's replies, and the clock when the token
is minted. -/
structure BridgeRequest where
  guild : Option Text
  cookie : Option Text
  now : Timestamp
  guildPermission : Text → Text → PermissionReply
  mintedAt : Timestamp

inductive BridgeAnswer
  | badRequest
  | login (location : Text)
  | denied (message location : Text)
  | session (discordId guild token : Text)
deriving DecidableEq

section

variable (site : AdminSite)

def basePath : Text := (stripPrefix (deriveOrigin site.baseUrl.text) site.baseUrl.text).getD []

/-- Where to log in, to come back to the bridge. -/
def loginLocation (guild : Text) : Text :=
  deriveOrigin site.baseUrl.text ++ "/auth/login?return_to=".toList ++
    site.url.encode (basePath site ++ "/dweeb/bridge?guild=".toList ++ guild)

def deniedMessage (e : AppError) : Text :=
  let msg := match e with
    | .forbidden msg => msg
    | _ => "Could not verify your permissions for this server. Try again.".toList
  Text.replace ['>'] "&gt;".toList
    (Text.replace ['<'] "&lt;".toList (Text.replace ['&'] "&amp;".toList msg))

def bridge (r : BridgeRequest) : BridgeAnswer :=
  match r.guild.filter isSnowflake with
  | none => .badRequest
  | some guild =>
    match r.cookie.bind fun cookie =>
      verifySession site.libs.hmac site.url cookie site.sessionSecret r.now with
    | none => .login (loginLocation site guild)
    | some (discordId, _) =>
      match checkManager { site with guildPermission := r.guildPermission }
          (r.cookie.getD []) guild with
      | .error e => .denied (deniedMessage e) (loginLocation site guild)
      | .ok () => .session discordId guild
        (mintDweebSession site.libs.hmac discordId guild site.sessionSecret r.mintedAt)

structure ListRequest where
  guild : Option Text
  /-- The value of the first `Authorization` header. -/
  authorization : Option (List UInt8)
  now : Timestamp

def ListRequest.bearer (r : ListRequest) : Option Text := (r.authorization.bind bearerOf).map trim

/-- The forms that are not archived, last updated first, two hundred at most. -/
def listed (d : Database) (guild : Text) : List Form :=
  ((d.forms.rows.filter fun form => decide (form.guildId = guild ∧
      form.archived = false)).insertionSort fun a b =>
    b.updatedAt ≤ a.updatedAt).take 200

def formList (toRfc3339 : Instant → Text) (d : Database) (guild : Text) : Value :=
  json [("guild_id", .string guild),
    ("forms", .array ((listed d guild).map fun form => json [("slug", .string form.slug),
      ("title", .string form.title), ("is_quiz", .bool form.isQuiz),
        ("updated_at", .string (toRfc3339 form.updatedAt)),
      ("response_count", jsonNat (d.formResponses form.id.text).length)]))]

def forms (toRfc3339 : Instant → Text) (d : Database) (r : ListRequest) : Except AppError Value :=
  match r.guild.filter isSnowflake with
  | none => .error (.badRequest "guild must be a Discord server id".toList)
  | some guild =>
    match r.bearer with
    | none => .error (.unauthorizedWith "Sign in with Discord to list this server's forms.".toList)
    | some bearer =>
      match verifyDweebSession site.libs.hmac bearer site.sessionSecret r.now with
      | none => .error (.unauthorizedWith "Your picker session expired. Sign in again.".toList)
      | some s =>
        if s.guildId ≠ guild then
          .error (.forbidden "This session doesn't grant access to that server.".toList)
        else .ok (formList toRfc3339 d guild)

end

/-! ### What the handlers do -/

section

variable {site : AdminSite} {r : BridgeRequest} {q : ListRequest} {toRfc3339 : Instant → Text}
  {d : Database}

/-- The gateway knows the holder of the cookie as a manager of the guild. -/
def Manages (r : BridgeRequest) (cookie guild : Text) : Prop :=
  ∃ perm, r.guildPermission cookie guild = .body perm ∧
    (perm.get "is_manager".toList).bind Value.asBool = some true

private theorem bridge_eq_session {discordId guild token : Text}
    (h : bridge site r = .session discordId guild token) :
    isSnowflake guild = true ∧
      token = mintDweebSession site.libs.hmac discordId guild site.sessionSecret r.mintedAt ∧
      ∃ cookie name, r.cookie = some cookie ∧
        verifySession site.libs.hmac site.url cookie site.sessionSecret r.now =
          some (discordId, name) ∧ Manages r cookie guild := by
  rw [bridge] at h
  split at h
  · cases h
  · rename_i g hguild
    split at h
    · cases h
    · rename_i caller name hsession
      obtain ⟨cookie, hcookie, hsession⟩ := Option.bind_eq_some_iff.1 hsession
      rw [hcookie, Option.getD_some] at h
      split at h
      · cases h
      · rename_i hmanager
        cases h
        have hflake := (Option.filter_eq_some_iff.1 hguild).2
        exact ⟨hflake, rfl, cookie, name, hcookie, hsession, checkManager_eq_ok_iff.1 hmanager⟩

private theorem forms_eq_ok_iff {v : Value} : forms site toRfc3339 d q = .ok v ↔
    ∃ guild bearer session, q.guild = some guild ∧
    isSnowflake guild = true ∧ q.bearer = some bearer ∧
      verifyDweebSession site.libs.hmac bearer site.sessionSecret q.now = some session ∧
        session.guildId = guild ∧
        v = formList toRfc3339 d guild := by
  rw [forms]
  constructor
  · intro h
    split at h
    · cases h
    · rename_i guild hguild
      obtain ⟨hguild, hflake⟩ := Option.filter_eq_some_iff.1 hguild
      split at h
      · cases h
      · rename_i bearer hbearer
        split at h
        · cases h
        · rename_i session hsession
          split at h
          · cases h
          · rename_i hsame
            exact ⟨guild, bearer, session, hguild, hflake, hbearer, hsession, not_not.1 hsame,
              (Except.ok.inj h).symm⟩
  · rintro ⟨guild, bearer, session, hguild, hflake, hbearer, hsession, hsame, rfl⟩
    have hfiltered : q.guild.filter isSnowflake = some guild :=
      Option.filter_eq_some_iff.2 ⟨hguild, hflake⟩
    rw [hfiltered]
    dsimp only
    rw [hbearer]
    dsimp only
    rw [hsession]
    exact if_neg (not_not.2 hsame)

end

/-! ### Credentials in circulation -/

/-- A credential that has been given out. -/
inductive Issued
  /-- By the auth gateway, to someone who has logged in. -/
  | login (discordId displayName : Text) (expires : Int64)
  | picker (r : BridgeRequest) (discordId guild : Text)
  | page (discordId guildId roleId : Text) (readOnly : Bool) (actorId : Option Text)
    (mintedAt : Timestamp)

def Issued.payload (url : UrlEncoding) : Issued → Text
  | login discordId displayName expires => sessionPayload url discordId displayName expires
  | picker r discordId guild => dweebPayload discordId guild r.mintedAt
  | page discordId guildId roleId readOnly actorId mintedAt =>
    iframePayload discordId guildId roleId readOnly actorId mintedAt

inductive PickerEvent
  | login (discordId displayName : Text) (expires : Int64)
  | bridge (r : BridgeRequest)
  | page (discordId guildId roleId : Text) (readOnly : Bool) (actorId : Option Text)
    (mintedAt : Timestamp)

def pickerStep (site : AdminSite) (issued : List Issued) : PickerEvent → Option (List Issued)
  | .login discordId displayName expires => some (.login discordId displayName expires :: issued)
  | .bridge r =>
    match bridge site r with
    | .session discordId guild _ => some (.picker r discordId guild :: issued)
    | _ => some issued
  | .page discordId guildId roleId readOnly actorId mintedAt =>
    some (.page discordId guildId roleId readOnly actorId mintedAt :: issued)

def pickerSystem (site : AdminSite) : System (List Issued) PickerEvent := ⟨pickerStep site⟩

/-- A text holds no seal but those that have been given out. -/
def Genuine (site : AdminSite) (issued : List Issued) (text : Text) : Prop :=
  ∀ payload, sealed ':' (site.libs.hmac site.sessionSecret) payload <:+ text →
    ∃ c ∈ issued, c.payload site.url = payload

/-- The cookie that comes with the event is genuine. -/
def PickerEvent.Genuine (site : AdminSite) (issued : List Issued) : PickerEvent → Prop
  | bridge r => ∀ cookie, r.cookie = some cookie → Dweeb.Genuine site issued cookie
  | _ => True

def LoggedIn (issued : List Issued) (discordId : Text) : Prop :=
  ∃ displayName expires, .login discordId displayName expires ∈ issued

/-- A picker token was given to someone who had logged in, as a manager of the guild. -/
def Issued.Rightful (issued : List Issued) : Issued → Prop
  | picker r discordId guild => ':' ∉ discordId ∧ isSnowflake guild = true ∧
    LoggedIn issued discordId ∧
      ∃ cookie, r.cookie = some cookie ∧ Manages r cookie guild
  | _ => True

section

variable {site : AdminSite} {issued issued' : List Issued}

theorem LoggedIn.mono {discordId : Text} (h : LoggedIn issued discordId) (hsub : issued ⊆ issued') :
    LoggedIn issued' discordId := by
  obtain ⟨displayName, expires, hmem⟩ := h
  exact ⟨displayName, expires, hsub hmem⟩

theorem Issued.Rightful.mono {c : Issued} (h : c.Rightful issued) (hsub : issued ⊆ issued') :
    c.Rightful issued' := by
  cases c with
  | picker r discordId guild => exact ⟨h.1, h.2.1, h.2.2.1.mono hsub, h.2.2.2⟩
  | _ => trivial

/-- The fields of a payload that has three. -/
theorem fields_of_issued {c : Issued} {discordId second exp : Text} (hc : c.Rightful issued)
    (h : (c.payload site.url).splitOn ':' = [discordId, second, exp]) :
    (∃ displayName expires, c = .login discordId displayName expires ∧ ':' ∉ discordId ∧
        site.url.encode displayName = second ∧ exp = ofInt expires.toInt) ∨
      ∃ r, c = .picker r discordId second ∧ exp = ofInt (r.mintedAt.seconds + dweebTtlSecs) := by
  cases c with
  | login d name expires =>
    rw [Issued.payload, splitOn_sessionPayload] at h
    have hjoined : d.splitOn ':' ++ [site.url.encode name, ofInt expires.toInt] = [discordId] ++
      [second, exp] := h
    obtain ⟨hd, hrest⟩ := List.append_inj' hjoined rfl
    obtain ⟨rfl, hcolon⟩ := splitOn_eq_singleton_iff.1 hd
    obtain ⟨hname, hexp⟩ := List.cons.inj hrest
    exact Or.inl ⟨name, expires, rfl, hcolon, hname, (List.singleton_inj.1 hexp).symm⟩
  | picker r d guild =>
    obtain ⟨hcolon, hflake, -⟩ := hc
    rw [Issued.payload, splitOn_dweebPayload, List.splitOn_append_cons_self_of_not_mem hcolon,
      List.splitOn_eq_singleton (colon_not_mem_of_isSnowflake hflake)] at h
    obtain ⟨rfl, hrest⟩ := List.cons.inj h
    obtain ⟨rfl, hexp⟩ := List.cons.inj hrest
    exact Or.inr ⟨r, rfl, (List.singleton_inj.1 hexp).symm⟩
  | page d guildId roleId readOnly actorId mintedAt =>
    have hcount := length_splitOn_iframePayload d guildId roleId readOnly actorId mintedAt
    rw [Issued.payload] at h
    rw [h] at hcount
    simp only [List.length_cons, List.length_nil] at hcount
    omega

private theorem rightful_pickerStep {e : PickerEvent} (h : ∀ c ∈ issued, c.Rightful issued)
    (he : e.Genuine site issued) (hstep : pickerStep site issued e = some issued') :
    ∀ c ∈ issued', c.Rightful issued' := by
  have hcons : ∀ {c : Issued}, c.Rightful issued → ∀ c' ∈ c :: issued,
      c'.Rightful (c :: issued) := by
    intro c hc c' hc'
    rcases List.mem_cons.1 hc' with rfl | hc'
    · exact hc.mono (List.subset_cons_self _ _)
    · exact (h c' hc').mono (List.subset_cons_self _ _)
  cases e with
  | login discordId displayName expires =>
    obtain rfl := Option.some.inj hstep
    exact hcons trivial
  | page discordId guildId roleId readOnly actorId mintedAt =>
    obtain rfl := Option.some.inj hstep
    exact hcons trivial
  | bridge r =>
    rw [pickerStep] at hstep
    split at hstep
    · rename_i discordId guild token hsession
      obtain rfl := Option.some.inj hstep
      obtain ⟨hflake, -, cookie, name, hcookie, hverified, hmanages⟩ := bridge_eq_session hsession
      obtain ⟨payload, second, exp, hfields, rfl, -, -⟩ := verifySession_eq_some_iff.1 hverified
      obtain ⟨c, hc, hpayload⟩ := he _ hcookie payload (List.suffix_refl _)
      rw [← hpayload] at hfields
      -- the cookie is one of a login, or else a picker token without its prefix
      have hcaller : ':' ∉ discordId ∧ LoggedIn issued discordId := by
        rcases fields_of_issued (h c hc) hfields with ⟨displayName, expires, rfl, hcolon, -⟩ |
          ⟨r', rfl, -⟩
        · exact ⟨hcolon, displayName, expires, hc⟩
        · exact ⟨(h _ hc).1, (h _ hc).2.2.1⟩
      exact hcons ⟨hcaller.1, hflake, hcaller.2, _, hcookie, hmanages⟩
    · obtain rfl := Option.some.inj hstep
      exact h

end

/-! ### Who sees a list -/

/-- A token that the bridge has given to a manager of the guild, not twelve hours ago. -/
def FromBridge (site : AdminSite) (issued : List Issued) (now : Timestamp)
    (guild bearer : Text) : Prop :=
  ∃ r discordId cookie, .picker r discordId guild ∈ issued ∧ LoggedIn issued discordId ∧
    r.cookie = some cookie ∧
    Manages r cookie guild ∧ now.seconds ≤ r.mintedAt.seconds + dweebTtlSecs ∧
      bearer = mintDweebSession site.libs.hmac discordId guild site.sessionSecret r.mintedAt

/-- A cookie of a login, behind the prefix of a token, whose name is the guild's id. -/
def FromNamesake (site : AdminSite) (issued : List Issued) (now : Timestamp)
    (guild bearer : Text) : Prop :=
  ∃ discordId displayName expires, .login discordId displayName expires ∈ issued ∧ ':' ∉ discordId ∧
    site.url.encode displayName = guild ∧ now.seconds ≤ expires.toInt ∧
      bearer = dweebPrefix ++ mintSession site.libs.hmac site.url discordId displayName expires
        site.sessionSecret

section

variable {site : AdminSite} {issued : List Issued} {now : Timestamp} {guild bearer : Text}

private theorem live_picker {mintedAt : Timestamp} :
    Live now (ofInt (mintedAt.seconds + dweebTtlSecs)) ↔
    now.seconds ≤ mintedAt.seconds + dweebTtlSecs := by
  have hrange := mintedAt.inRange
  rw [dweebTtlSecs]
  exact live_ofInt_iff (by omega) (by omega)

/-- What passes for a picker token of the guild. -/
theorem verified_iff (h : ∀ c ∈ issued, c.Rightful issued) (hflake : isSnowflake guild = true)
    (hgenuine : Genuine site issued bearer) :
    (∃ session, verifyDweebSession site.libs.hmac bearer site.sessionSecret now = some session ∧
      session.guildId = guild) ↔
      FromBridge site issued now guild bearer ∨ FromNamesake site issued now guild bearer := by
  constructor
  · rintro ⟨session, hverified, rfl⟩
    obtain ⟨payload, exp, hfields, rfl, hlive⟩ := verifyDweebSession_eq_some_iff.1 hverified
    obtain ⟨c, hc, rfl⟩ := hgenuine payload (List.suffix_append _ _)
    rcases fields_of_issued (h c hc) hfields with ⟨displayName, expires, rfl, hcolon, hname, rfl⟩ |
      ⟨r, rfl, rfl⟩
    · exact Or.inr ⟨session.discordId, displayName, expires, hc, hcolon, hname,
        (live_ofInt_iff expires.le_toInt expires.toInt_lt).1 hlive, rfl⟩
    · obtain ⟨-, -, hlogin, cookie, hcookie, hmanages⟩ := h _ hc
      exact Or.inl ⟨r, session.discordId, cookie, hc, hlogin, hcookie, hmanages,
        live_picker.1 hlive, rfl⟩
  · rintro (⟨r, discordId, cookie, hc, -, -, -, hlive, rfl⟩ |
      ⟨discordId, displayName, expires, -, hcolon, hname, hlive, rfl⟩)
    · obtain ⟨hcolon, -⟩ := h _ hc
      refine ⟨⟨discordId, guild⟩, verifyDweebSession_eq_some_iff.2
        ⟨_, _, ?_, rfl, live_picker.2 hlive⟩, rfl⟩
      rw [splitOn_dweebPayload, List.splitOn_append_cons_self_of_not_mem hcolon,
        List.splitOn_eq_singleton (colon_not_mem_of_isSnowflake hflake)]
      rfl
    · refine ⟨⟨discordId, guild⟩, verifyDweebSession_eq_some_iff.2 ⟨_, _, ?_, rfl,
        (live_ofInt_iff expires.le_toInt expires.toInt_lt).2 hlive⟩, rfl⟩
      rw [splitOn_sessionPayload, List.splitOn_eq_singleton hcolon, hname]
      rfl

end

/-- In any run in which nobody forges a seal, a list is served just for the tokens that the bridge
has given to managers of the guild in the last twelve hours, and for the login cookies that are
named as the guild. -/
theorem forms_served_iff {site : AdminSite} {es : List PickerEvent} {issued : List Issued}
    (hrun : (pickerSystem site).Run (fun issued e _ => e.Genuine site issued) [] es issued)
    {q : ListRequest} (hgenuine : ∀ bearer, q.bearer = some bearer → Genuine site issued bearer)
    (toRfc3339 : Instant → Text) (d : Database) (v : Value) :
    forms site toRfc3339 d q = .ok v ↔ ∃ guild bearer, q.guild = some guild ∧
      isSnowflake guild = true ∧ q.bearer = some bearer ∧
      (FromBridge site issued q.now guild bearer ∨ FromNamesake site issued q.now guild bearer) ∧
        v = formList toRfc3339 d guild := by
  have hrightful : ∀ c ∈ issued, c.Rightful issued :=
    hrun.invariant (P := fun issued => ∀ c ∈ issued, c.Rightful issued)
      (fun _ _ _ h he hstep => rightful_pickerStep h he hstep)
      (fun c hc => absurd hc List.not_mem_nil)
  rw [forms_eq_ok_iff]
  constructor
  · rintro ⟨guild, bearer, session, hguild, hflake, hbearer, hverified, hsame, hv⟩
    exact ⟨guild, bearer, hguild, hflake, hbearer,
      (verified_iff hrightful hflake (hgenuine bearer hbearer)).1 ⟨session, hverified, hsame⟩, hv⟩
  · rintro ⟨guild, bearer, hguild, hflake, hbearer, hfrom, hv⟩
    obtain ⟨session, hverified, hsame⟩ :=
      (verified_iff hrightful hflake (hgenuine bearer hbearer)).2 hfrom
    exact ⟨guild, bearer, session, hguild, hflake, hbearer, hverified, hsame, hv⟩

/-! ### A namesake -/

def flake : Text := "100000000000000000".toList

def adaAsks : BridgeRequest :=
  ⟨some flake, some adaCookie, sampleTime, openSite.guildPermission, sampleTime⟩

/-- Ada, who manages the guild, gets a token; Bob has the guild's id for a name. -/
def bothLogIn : List PickerEvent :=
  [.login "ada".toList "Ada".toList 1700003600, .bridge adaAsks,
    .login "bob".toList flake 1700003600]

def bothIssued : List Issued :=
  [.login "bob".toList flake 1700003600, .picker adaAsks "ada".toList flake,
    .login "ada".toList "Ada".toList 1700003600]

def adaToken : Text := mintDweebSession concatMac "ada".toList flake "secret".toList sampleTime

def bobToken : Text :=
  dweebPrefix ++ mintSession concatMac letterEncoding "bob".toList flake 1700003600 "secret".toList

def lists (token : Text) : ListRequest :=
  ⟨some flake, some (bytes ("Bearer ".toList ++ token)), sampleTime⟩

private theorem genuine_sealed {issued : List Issued} {c : Issued} (hc : c ∈ issued) (pre : Text) :
    Genuine openSite issued (pre ++ sealed ':' (concatMac "secret".toList)
      (c.payload letterEncoding)) := by
  rintro payload ⟨p, hp⟩
  obtain ⟨-, hmac⟩ := append_sealed_inj (by decide) hp
  exact ⟨c, hc, (List.append_cancel_left (bytes_injective hmac)).symm⟩

private theorem bothLogIn_runs :
    (pickerSystem openSite).Run (fun issued e _ => e.Genuine openSite issued)
    [] bothLogIn bothIssued := by
  have hcookie : PickerEvent.Genuine openSite [.login "ada".toList "Ada".toList 1700003600]
      (.bridge adaAsks) := by
    intro cookie h
    obtain rfl := Option.some.inj h
    exact genuine_sealed (c := .login "ada".toList "Ada".toList 1700003600)
      (List.mem_singleton_self _) []
  have hsession : bridge openSite adaAsks = .session "ada".toList flake adaToken := by
    decide +kernel
  refine .cons rfl trivial (.cons ?_ hcookie (.cons rfl trivial (.nil _)))
  change pickerStep openSite _ (.bridge adaAsks) = some _
  rw [pickerStep, hsession]

theorem forms_served_iff_namesake :
    (∃ v, forms openSite (fun _ => []) surveyDatabase (lists adaToken) = .ok v) ∧
    ∃ v, forms openSite (fun _ => []) surveyDatabase (lists bobToken) = .ok v := by
  have hlogin : LoggedIn bothIssued "ada".toList := ⟨"Ada".toList, 1700003600, by simp [bothIssued]⟩
  have hbearer : (lists adaToken).bearer = some adaToken ∧
    (lists bobToken).bearer = some bobToken := by decide +kernel
  constructor
  · refine ⟨_, (forms_served_iff bothLogIn_runs (fun bearer h => ?_) _ _ _).2
      ⟨flake, adaToken, rfl, by decide, hbearer.1,
        Or.inl ⟨adaAsks, "ada".toList, adaCookie,
          by simp [bothIssued], hlogin, rfl, ⟨_, rfl, by decide⟩, by decide, rfl⟩, rfl⟩⟩
    obtain rfl := Option.some.inj (hbearer.1.symm.trans h)
    exact genuine_sealed (c := .picker adaAsks "ada".toList flake)
      (by simp [bothIssued]) dweebPrefix
  · refine ⟨_, (forms_served_iff bothLogIn_runs (fun bearer h => ?_) _ _ _).2
      ⟨flake, bobToken, rfl, by decide, hbearer.2,
        Or.inr ⟨"bob".toList, flake, 1700003600,
          by simp [bothIssued], by decide, by decide, by decide, rfl⟩, rfl⟩⟩
    obtain rfl := Option.some.inj (hbearer.2.symm.trans h)
    exact genuine_sealed (c := .login "bob".toList flake 1700003600)
      (by simp [bothIssued]) dweebPrefix

end Dweeb

end FormRespondentRole
