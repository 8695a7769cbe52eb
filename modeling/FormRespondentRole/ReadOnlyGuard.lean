import FormRespondentRole.CredentialKinds
import FormRespondentRole.Foundations.Json

/-!
# The read-only guard

The layer in front of all routes that turns away writes with a read-only session.  It looks at one
token of a request: the bearer of the first `Authorization` header, or else the first `ifs`
parameter that decodes.  A read-only token anywhere else passes with the request.
-/

namespace FormRespondentRole

open Foundations

inductive HttpMethod
  | get
  | head
  | options
  | post
  | put
  | patch
  | delete
  | connect
  | trace
  | extension (name : Text)
deriving DecidableEq

/-- The parts of a request that the guard reads. -/
structure HttpRequest where
  method : HttpMethod
  /-- The values of the `Authorization` headers, in their order. -/
  authorization : List (List UInt8) := []
  query : Option Text := none

/-- What the guard does with a request. -/
inductive Guarded
  | answered (status : Nat) (error : Text)
  | next (req : HttpRequest)

/-- `to_str`: a header value of visible ASCII characters, blanks and tabs. -/
def headerText (value : List UInt8) : Option Text :=
  if value.all fun b => (32 ≤ b && b < 127) || b = 9 then
    some (value.map fun b => Char.ofNat b.toNat) else none

def bearerOf (value : List UInt8) : Option Text :=
  (headerText value).bind (stripPrefix "Bearer ".toList)

section

variable (hmac : Mac) (url : UrlEncoding) (sessionSecret : Text) (now : Timestamp)

/-- The value of a parameter of this name, if it decodes. -/
def paramOf (name pair : Text) : Option Text :=
  match Text.splitn '=' 2 pair with
  | [k, v] => if k = name then url.decode v else none
  | _ => none

def queryParam (query name : Text) : Option Text := (query.splitOn '&').findSome? (paramOf url name)

def readOnlySessionOn (req : HttpRequest) : Option IframeSession := do
  let bearer := req.authorization.head?.bind bearerOf
  let token ← bearer.or (req.query.bind fun query => queryParam url query "ifs".toList)
  let session ← verifyIframeSession hmac token sessionSecret now
  if session.readOnly then some session else none

def readOnlyError : Text := "This view is read-only while impersonating a user.".toList

def blockReadOnlyWrites (req : HttpRequest) : Guarded :=
  if req.method = .get ∨ req.method = .head ∨ req.method = .options then .next req
  else match readOnlySessionOn hmac url sessionSecret now req with
    | some _ => .answered 403 readOnlyError
    | none => .next req

/-! ### Read-only requests -/

/-- A token of a session that may not write. -/
def ReadOnlyToken (token : Text) : Prop :=
  ∃ session, verifyIframeSession hmac token sessionSecret now = some session ∧
    session.readOnly = true

/-- The tokens of a request, in either carrier. -/
def carried (req : HttpRequest) : List Text :=
  req.authorization.filterMap bearerOf ++
    (req.query.elim [] fun query => (query.splitOn '&').filterMap (paramOf url "ifs".toList))

/-- The token that comes first: the bearer of the first header, or else the first parameter that
decodes. -/
inductive FirstToken (req : HttpRequest) (token : Text) : Prop
  | bearer {value : List UInt8} {rest : List (List UInt8)}
  (hauth : req.authorization = value :: rest)
      (htoken : bearerOf value = some token)
  | param {query : Text} {before after : List Text} {pair : Text}
      (hauth : ∀ value rest, req.authorization = value :: rest → bearerOf value = none)
        (hquery : req.query = some query)
      (hpairs : query.splitOn '&' = before ++ pair :: after)
        (hbefore : ∀ p ∈ before, paramOf url "ifs".toList p = none)
      (htoken : paramOf url "ifs".toList pair = some token)

variable {hmac url sessionSecret now} {req : HttpRequest} {token : Text}

private theorem head_bearer_eq_none_iff :
    req.authorization.head?.bind bearerOf = none ↔ ∀ value rest, req.authorization = value :: rest →
      bearerOf value = none := by
  cases req.authorization with
  | nil => simp
  | cons value rest =>
    constructor
    · intro h value' rest' heq
      cases heq
      exact h
    · exact fun h => h value rest rfl

private theorem candidate_eq_some_iff :
    (req.authorization.head?.bind bearerOf).or (req.query.bind fun query =>
      queryParam url query "ifs".toList) =
      some token ↔ FirstToken url req token := by
  constructor
  · intro h
    cases hbearer : req.authorization.head?.bind bearerOf with
    | some t =>
      rw [hbearer, Option.some_or] at h
      obtain ⟨value, hvalue, htoken⟩ := Option.bind_eq_some_iff.1 hbearer
      obtain ⟨rest, hauth⟩ := List.head?_eq_some_iff.1 hvalue
      exact FirstToken.bearer hauth (htoken.trans h)
    | none =>
      rw [hbearer, Option.none_or] at h
      obtain ⟨query, hquery, hparam⟩ := Option.bind_eq_some_iff.1 h
      obtain ⟨before, pair, after, hpairs, htoken, hbefore⟩ := List.findSome?_eq_some_iff.1 hparam
      exact FirstToken.param (head_bearer_eq_none_iff.1 hbearer) hquery hpairs hbefore htoken
  · intro h
    cases h with
    | bearer hauth htoken => rw [hauth, List.head?_cons, Option.bind_some, htoken, Option.some_or]
    | param hauth hquery hpairs hbefore htoken =>
      rw [head_bearer_eq_none_iff.2 hauth, Option.none_or, hquery]
      exact List.findSome?_eq_some_iff.2 ⟨_, _, _, hpairs, htoken, hbefore⟩

private theorem readOnlySessionOn_isSome_iff :
    (readOnlySessionOn hmac url sessionSecret now req).isSome ↔
    ∃ token, FirstToken url req token ∧ ReadOnlyToken hmac sessionSecret now token := by
  have hverified : ∀ token, ((verifyIframeSession hmac token sessionSecret now).bind fun session =>
      if session.readOnly then some session else none).isSome ↔
          ReadOnlyToken hmac sessionSecret now token := by
    intro token
    cases h : verifyIframeSession hmac token sessionSecret now with
    | none => simp [ReadOnlyToken, h]
    | some session => cases hro : session.readOnly <;> simp [ReadOnlyToken, h, hro]
  simp only [← candidate_eq_some_iff]
  rw [readOnlySessionOn]
  cases (req.authorization.head?.bind bearerOf).or (req.query.bind fun query =>
    queryParam url query "ifs".toList) with
  | none => simp
  | some first =>
    refine (hverified first).trans ⟨fun h => ⟨first, rfl, h⟩, ?_⟩
    rintro ⟨token, htoken, h⟩
    cases htoken
    exact h

/-- A write is turned away if, and only if, the token that comes first is a read-only one, and
otherwise it goes on to its handler, whatever else it carries. -/
theorem blockReadOnlyWrites_iff (hmethod : req.method ∉ [.get, .head, .options]) :
    (blockReadOnlyWrites hmac url sessionSecret now req = .answered 403 readOnlyError ↔
      ∃ token, FirstToken url req token ∧ ReadOnlyToken hmac sessionSecret now token) ∧
    (blockReadOnlyWrites hmac url sessionSecret now req = .answered 403 readOnlyError ∨
      blockReadOnlyWrites hmac url sessionSecret now req = .next req) := by
  have hwrites : ¬(req.method = .get ∨ req.method = .head ∨ req.method = .options) := by
    simpa [List.mem_cons, not_or] using hmethod
  rw [← readOnlySessionOn_isSome_iff, blockReadOnlyWrites, if_neg hwrites]
  cases readOnlySessionOn hmac url sessionSecret now req with
  | none => simp
  | some session => simp

end

/-- A read-only session of `alice`, opened by `dev`. -/
def impersonation : Text :=
  mintIframeSession concatMac "alice".toList "g1".toList "r1".toList true
    (some "dev".toList) "secret".toList sampleTime

/-- A save with this bearer and this session in its parameters. -/
def saveRequest (bearer : Text) (ifs : Option Text) : HttpRequest where
  method := .put
  authorization := [("Bearer ".toList ++ bearer).map fun c => UInt8.ofNat c.toNat]
  query := ifs.map ("ifs=".toList ++ ·)

private theorem impersonation_readOnly :
    ReadOnlyToken concatMac "secret".toList sampleTime impersonation :=
  ⟨⟨"alice".toList, "g1".toList, "r1".toList, true, some "dev".toList⟩, by decide +kernel, rfl⟩

theorem blockReadOnlyWrites_iff_bearer :
    blockReadOnlyWrites concatMac letterEncoding "secret".toList sampleTime
    (saveRequest impersonation none) =
      .answered 403 readOnlyError :=
  (blockReadOnlyWrites_iff (by decide)).1.2
    ⟨impersonation, FirstToken.bearer rfl (by decide +kernel), impersonation_readOnly⟩

/-- Behind a bearer that is no token, a read-only session passes. -/
theorem not_blockReadOnlyWrites :
    ¬∀ (hmac : Mac) (url : UrlEncoding) (sessionSecret : Text) (now : Timestamp)
      (req : HttpRequest), req.method ∉ [.get, .head, .options] →
    (∃ token ∈ carried url req, ReadOnlyToken hmac sessionSecret now token) →
    blockReadOnlyWrites hmac url sessionSecret now req = .answered 403 readOnlyError := by
  intro h
  have hcarried : impersonation ∈ carried letterEncoding
    (saveRequest ['x'] (some impersonation)) := by decide +kernel
  have hblocked := h concatMac letterEncoding "secret".toList sampleTime
    (saveRequest ['x'] (some impersonation)) (by decide)
    ⟨impersonation, hcarried, impersonation_readOnly⟩
  have hnone : readOnlySessionOn concatMac letterEncoding "secret".toList sampleTime
    (saveRequest ['x'] (some impersonation)) =
      none := by decide +kernel
  rw [blockReadOnlyWrites, hnone] at hblocked
  cases hblocked

end FormRespondentRole
