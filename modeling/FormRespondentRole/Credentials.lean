import FormRespondentRole.Foundations.Fields

/-!
# Credentials

The three credentials that `session_secret` signs: the session cookie, the token of the DWEEB picker
and the token of the embedded role-config page.  Each is a payload of colon-separated fields that
ends with an expiry, followed by the HMAC of the payload in hexadecimal; the two tokens carry a
prefix that the HMAC does not cover.

HMAC-SHA256 and percent-encoding come from libraries and are parameters.
-/

namespace FormRespondentRole

open Foundations Text

/-- A MAC by key and message. -/
abbrev Mac := Text → Text → List UInt8

/-- Percent-encoding: the encoder writes letters, digits, `-`, `_`, `.`, `~` and `%`, so never a
colon. -/
structure UrlEncoding where
  encode : Text → Text
  decode : Text → Option Text
  colonFree : ∀ s, ':' ∉ encode s

/-- What `Utc::now().timestamp()` can answer: a second between the years −262143 and 262142. -/
structure Timestamp where
  seconds : Int
  inRange : -8334601228800 ≤ seconds ∧ seconds ≤ 8210266876799

/-- Equality of byte strings in a time that depends on their lengths only. -/
def constantTimeEq (a b : List UInt8) : Bool :=
  if a.length ≠ b.length then false
  else (a.zip b).foldl (fun diff xy => diff ||| (xy.1 ^^^ xy.2)) 0 == 0

private theorem foldl_diff_eq_zero {ps : List (UInt8 × UInt8)} {diff : UInt8} :
    ps.foldl (fun diff xy => diff ||| (xy.1 ^^^ xy.2)) diff = 0 ↔
      diff = 0 ∧ ∀ xy ∈ ps, xy.1 = xy.2 := by
  induction ps generalizing diff with
  | nil => simp
  | cons xy ps ih => rw [List.foldl_cons, ih, UInt8.or_eq_zero_iff, UInt8.xor_eq_zero_iff,
    List.forall_mem_cons, and_assoc]

theorem constantTimeEq_iff {a b : List UInt8} : constantTimeEq a b = true ↔ a = b := by
  unfold constantTimeEq
  by_cases hlen : a.length = b.length
  · rw [if_neg (not_not_intro hlen), beq_iff_eq, foldl_diff_eq_zero]
    constructor
    · rintro ⟨-, hall⟩
      refine List.ext_getElem hlen fun i ha hb => ?_
      have hi : i < (a.zip b).length := by rw [List.length_zip]; omega
      have hpair := hall _ (List.getElem_mem hi)
      rwa [List.getElem_zip] at hpair
    · rintro rfl
      refine ⟨rfl, fun xy hxy => ?_⟩
      obtain ⟨i, hi, rfl⟩ := List.getElem_of_mem hxy
      rw [List.getElem_zip]
  · rw [if_pos hlen]
    constructor
    · intro h; cases h
    · rintro rfl; exact absurd rfl hlen

/-! ## The session cookie -/

def sessionPayload (url : UrlEncoding) (discordId displayName : Text) (expiresUnix : Int64) :
    Text :=
  discordId ++ ':' :: url.encode displayName ++ ':' :: ofInt expiresUnix.toInt

/-- The cookie that the Auth Gateway sets. -/
def mintSession (hmac : Mac) (url : UrlEncoding) (discordId displayName : Text)
    (expiresUnix : Int64) (secret : Text) :
    Text :=
  let payload := sessionPayload url discordId displayName expiresUnix
  let sig := hexEncode (hmac secret payload)
  payload ++ ':' :: sig

def verifySession (hmac : Mac) (url : UrlEncoding) (cookieValue secret : Text) (now : Timestamp) :
    Option (Text × Text) :=
  match splitn ':' 4 cookieValue with
  | [discordId, encodedName, expiresStr, sig] => do
    let expires ← parseI64 expiresStr
    if now.seconds > expires then none else
    let payload := discordId ++ ':' :: encodedName ++ ':' :: expiresStr
    let expectedSig := hexEncode (hmac secret payload)
    if !constantTimeEq (bytes sig) (bytes expectedSig) then none else
    let displayName ← url.decode encodedName
    some (discordId, displayName)
  | _ => none

/-! ## The token of the DWEEB picker -/

def dweebPrefix : Text := "dws:".toList

def dweebTtlSecs : Int := 12 * 60 * 60

structure DweebSession where
  discordId : Text
  guildId : Text
deriving DecidableEq

def dweebPayload (discordId guildId : Text) (now : Timestamp) : Text :=
  discordId ++ ':' :: guildId ++ ':' :: ofInt (now.seconds + dweebTtlSecs)

def mintDweebSession (hmac : Mac) (discordId guildId sessionSecret : Text) (now : Timestamp) :
    Text :=
  let payload := dweebPayload discordId guildId now
  let sig := hexEncode (hmac sessionSecret payload)
  dweebPrefix ++ (payload ++ ':' :: sig)

/-- `strip_prefix` -/
def stripPrefix (pre s : Text) : Option Text := if pre <+: s then some (s.drop pre.length) else none

def verifyDweebSession (hmac : Mac) (token sessionSecret : Text) (now : Timestamp) :
    Option DweebSession := do
  let rest ← stripPrefix dweebPrefix token
  match splitn ':' 4 rest with
  | [discordId, guildId, expStr, sig] => do
    let exp ← parseI64 expStr
    if now.seconds > exp then none else
    let payload := discordId ++ ':' :: guildId ++ ':' :: expStr
    let expected := hexEncode (hmac sessionSecret payload)
    if !constantTimeEq (bytes sig) (bytes expected) then none else
    some { discordId, guildId }
  | _ => none

/-! ## The token of the embedded role-config page -/

def iframePrefix : Text := "ifs:".toList

def iframeTtlSecs : Int := 60 * 60

def iframeRoTtlSecs : Int := 15 * 60

structure IframeSession where
  discordId : Text
  guildId : Text
  roleId : Text
  readOnly : Bool
  actorId : Option Text
deriving DecidableEq

def iframePayload (discordId guildId roleId : Text) (readOnly : Bool) (actorId : Option Text)
    (now : Timestamp) : Text :=
  let ttl := if readOnly then iframeRoTtlSecs else iframeTtlSecs
  let exp := now.seconds + ttl
  let ro := if readOnly then "1".toList else "0".toList
  -- a colon in the actor would shift the fields
  let act := (actorId.getD []).filter (· ≠ ':')
  discordId ++ ':' :: guildId ++ ':' :: roleId ++ ':' :: ro ++ ':' :: act ++ ':' :: ofInt exp

def mintIframeSession (hmac : Mac) (discordId guildId roleId : Text) (readOnly : Bool)
    (actorId : Option Text) (sessionSecret : Text) (now : Timestamp) : Text :=
  let payload := iframePayload discordId guildId roleId readOnly actorId now
  let sig := hexEncode (hmac sessionSecret payload)
  iframePrefix ++ (payload ++ ':' :: sig)

/-- The flag of a token, when it is one. -/
def readOnlyFlag (roStr : Text) : Option Bool :=
  if roStr = "0".toList then some false else if roStr = "1".toList then some true else none

def verifyIframeSession (hmac : Mac) (token sessionSecret : Text) (now : Timestamp) :
    Option IframeSession := do
  let rest ← stripPrefix iframePrefix token
  match splitn ':' 7 rest with
  | [discordId, guildId, roleId, roStr, actStr, expStr, sig] => do
    let readOnly ← readOnlyFlag roStr
    let exp ← parseI64 expStr
    if now.seconds > exp then none else
    let payload := discordId ++ ':' :: guildId ++ ':' :: roleId ++ ':' :: roStr ++ ':' :: actStr ++
      ':' :: expStr
    let expected := hexEncode (hmac sessionSecret payload)
    if !constantTimeEq (bytes sig) (bytes expected) then none else
    some { discordId, guildId, roleId, readOnly, actorId := if actStr = [] then none
      else some actStr }
  | _ => none

end FormRespondentRole
