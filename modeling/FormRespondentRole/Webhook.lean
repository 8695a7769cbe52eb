import FormRespondentRole.Foundations.IpAddr

/-!
# Webhook delivery

A delivery checks the text of its URL, looks the host up and checks the answers, and then hands the
URL to an HTTP client that looks the host up by itself and goes where the servers send it.
`Internet` is what the world answers, lookup by lookup and request by request; the client is one
with default settings.
-/

namespace FormRespondentRole

open Foundations

/-- A parsed URL. -/
structure Url where
  scheme : Text
  /-- An IPv6 literal keeps its brackets. -/
  host : Option Text
  /-- The path with the query. -/
  target : Text
deriving DecidableEq

inductive HttpAnswer
  | status (code : Nat)
  /-- A redirection with a `Location` that reads as a URL. -/
  | redirect (location : Url)
  | timedOut

inductive Lookup
  | timedOut
  | failed
  | answered (addrs : List IpAddr)

/-- What lookups, connections and requests meet, by the time they are made. -/
structure Internet where
  resolve : Nat → Text → Lookup
  /-- An address accepts a connection for a URL, with a certificate if it is an `https` one. -/
  accepts : Nat → Url → IpAddr → Bool
  respond : Nat → Url → IpAddr → HttpAnswer

/-- How a `send` of the client fails. -/
inductive SendError
  | builder
  | connect
  | timedOut
  | tooManyRedirects

structure WebLibs where
  parseUrl : Text → Option Url
  /-- The code of a status with its phrase. -/
  statusText : Nat → Text
  errorText : SendError → Text

def isSafeIp (ip : IpAddr) : Bool :=
  if ip.isLoopback || ip.isUnspecified then false
  else match ip with
    | .v4 v4 => !(v4.isPrivate || v4.isLinkLocal || v4.isMulticast)
    | .v6 v6 =>
      if v6.isUniqueLocal || v6.isUnicastLinkLocal || v6.isMulticast then false
      else match v6.toIpv4 with
        | some v4 =>
          !(v4.isLoopback || v4.isUnspecified || v4.isPrivate || v4.isLinkLocal || v4.isMulticast)
        | none => true

/-- A host without the brackets of an IPv6 literal. -/
def withoutBrackets (host : Text) : Text :=
  match host with
  | '[' :: rest => if rest.getLast? = some ']' then rest.dropLast else host
  | _ => host

section

variable (libs : WebLibs) (net : Internet)

def isSafeUrl (url : Text) : Bool :=
  match libs.parseUrl url with
  | none => false
  | some u =>
    if u.scheme ≠ "https".toList then false
    else match u.host with
      | none => false
      | some host =>
        let host := host.map Char.toLower
        if host = "localhost".toList ∨ ".localhost".toList <:+ host then false
        else match IpAddr.parse (withoutBrackets host) with
          | some ip => isSafeIp ip
          | none => true

/-- A lookup of a host; an address stands for itself. -/
def lookupHost (n : Nat) (host : Text) : Lookup :=
  match IpAddr.parse (withoutBrackets host) with
  | some ip => .answered [ip]
  | none => net.resolve n host

/-- The address that a request for a URL goes to. -/
def connect (n : Nat) (u : Url) : Option IpAddr :=
  if u.scheme = "https".toList ∨ u.scheme = "http".toList then
    match u.host.map (lookupHost net n) with
    | some (.answered addrs) => addrs.find? (net.accepts n u)
    | _ => none
  else none

/-- The limit of the default policy. -/
def maxRedirects : Nat := 10

def isSuccess (status : Nat) : Bool := 200 ≤ status && status < 300

/-- Servers send the client from a URL at one time to another later on. -/
inductive Redirects (net : Internet) : Nat → Url → Nat → Url → Prop
  | refl (n : Nat) (u : Url) : Redirects net n u n u
  | step {n m : Nat} {u v location : Url} {ip : IpAddr} (hconnect : connect net n u = some ip)
      (hanswer : net.respond n u ip = .redirect location) (h : Redirects net (n + 1) location m v) :
        Redirects net n u m v

variable {libs net} {url : Text} {u : Url} {ip : IpAddr}

theorem Redirects.le {n m : Nat} {v : Url} (h : Redirects net n u m v) : n ≤ m := by
  induction h with
  | refl => exact le_rfl
  | step _ _ _ ih => exact Nat.le_of_succ_le ih

/-- The addresses that a lookup gives. -/
def Lookup.addrs : Lookup → List IpAddr
  | answered addrs => addrs
  | timedOut | failed => []

/-- Where the checks end, the world keeps to them: of the addresses that the client is told for the
host of the URL, those that accept it were told to the check before, and a server at a safe address
sends the client, if anywhere, to a host that has safe addresses by then. -/
structure Internet.Steady (net : Internet) (u : Url) : Prop where
  lookup : ∀ host, u.host = some host → ∀ ip ∈ (lookupHost net 1 host).addrs,
    net.accepts 1 u ip = true →
    ip ∈ (lookupHost net 0 host).addrs
  redirects : ∀ n v ip location host, 1 ≤ n → n ≤ maxRedirects → isSafeIp ip = true →
    net.respond n v ip = .redirect location → location.host = some host →
      ∀ ip' ∈ (lookupHost net (n + 1) host).addrs, net.accepts (n + 1) location ip' = true →
        isSafeIp ip' = true

end

/-! ### A redirection to the metadata service -/

def hookUrl : Url := ⟨"https".toList, some "hooks.example".toList, "/x".toList⟩

def hookLibs : WebLibs where
  parseUrl s := if s = "https://hooks.example/x".toList then some hookUrl else none
  statusText code := Text.ofNat code
  errorText _ := []

/-- The IPv4 addresses that no request may go to. -/
def refusesIpv4 (ip : Ipv4) : Bool :=
  ip.isLoopback || ip.isUnspecified || ip.isPrivate || ip.isLinkLocal || ip.isMulticast

private theorem isSafeIp_v4 (ip : Ipv4) : isSafeIp (.v4 ip) = !refusesIpv4 ip := by
  rw [isSafeIp, IpAddr.isLoopback, IpAddr.isUnspecified, refusesIpv4]
  cases ip.isLoopback <;> cases ip.isUnspecified <;> rfl

/-- An IPv4 address written as an IPv6 address passes the tests on ranges, and comes to the tests on
IPv4 addresses. -/
theorem isSafeIp_embed {h : UInt16} (hh : h = 0 ∨ h = 0xffff) (ip : Ipv4) :
    isSafeIp (.v6 (ip.embed h)) =
      (!((ip.embed h).isLoopback || (ip.embed h).isUnspecified) && !refusesIpv4 ip) := by
  have hranges : ((ip.embed h).isUniqueLocal || (ip.embed h).isUnicastLinkLocal ||
      (ip.embed h).isMulticast) = false := by
    change (decide ((0 : UInt16) &&& 0xfe00 = 0xfc00) || decide
      ((0 : UInt16) &&& 0xffc0 = 0xfe80) ||
      decide ((0 : UInt16) &&& 0xff00 = 0xff00)) = false
    decide
  have hv4 := Ipv4.toIpv4_embed hh ip
  rw [isSafeIp, IpAddr.isLoopback, IpAddr.isUnspecified]
  cases (ip.embed h).isLoopback || (ip.embed h).isUnspecified with
  | true => rfl
  | false =>
    simp only [hranges, hv4, Bool.false_eq_true, if_false, Bool.not_false, Bool.true_and]
    rfl

private theorem isSafeIp_mapped (ip : Ipv4) :
    isSafeIp (.v6 ip.toIpv6Mapped) = isSafeIp (.v4 ip) := by
  have hsegment : (0xffff : UInt16) ≠ 0 := by decide
  have hloopback : (ip.embed 0xffff).isLoopback = false :=
    decide_eq_false fun heq => hsegment (congrArg (·[5]) heq)
  have hunspecified : (ip.embed 0xffff).isUnspecified = false :=
    decide_eq_false fun heq => hsegment (congrArg (·[5]) heq)
  rw [isSafeIp_v4, Ipv4.toIpv6Mapped, isSafeIp_embed (Or.inr rfl), hloopback, hunspecified,
    Bool.or_self, Bool.not_false,
    Bool.true_and]

/-- `::1` is the loopback, and the other compatible addresses are what their IPv4 addresses are. -/
theorem isSafeIp_compatible (ip : Ipv4) :
    isSafeIp (.v6 ip.toIpv6Compatible) = (isSafeIp (.v4 ip) && decide (ip ≠ ⟨0, 0, 0, 1⟩)) := by
  have hembed :
      ∀ ip' : Ipv4, decide ((ip.embed 0).segments = (ip'.embed 0).segments) = decide (ip = ip') :=
    fun ip' =>
      decide_eq_decide.2 ⟨fun heq => Ipv4.embed_inj (congrArg Ipv6.mk heq), fun heq =>
        congrArg (fun ip => (ip.embed 0).segments) heq⟩
  have hloopback : (ip.embed 0).isLoopback = decide (ip = ⟨0, 0, 0, 1⟩) := hembed ⟨0, 0, 0, 1⟩
  have hunspecified : (ip.embed 0).isUnspecified = ip.isUnspecified := hembed ⟨0, 0, 0, 0⟩
  rw [isSafeIp_v4, Ipv4.toIpv6Compatible, isSafeIp_embed (Or.inl rfl), hloopback, hunspecified,
    decide_not, refusesIpv4]
  cases decide (ip = ⟨0, 0, 0, 1⟩) <;> cases ip.isUnspecified <;> simp

/-- The IPv6 spellings of an IPv4 address are as safe as the address, or less so. -/
theorem ipv6_spellings_safe (ip : Ipv4) :
    isSafeIp (.v6 ip.toIpv6Mapped) = isSafeIp (.v4 ip) ∧
      (isSafeIp (.v6 ip.toIpv6Compatible) = true → isSafeIp (.v4 ip) = true) ∧
      ((ip.isLoopback || ip.isUnspecified || ip.isPrivate || ip.isLinkLocal || ip.isMulticast) =
        true →
        isSafeIp (.v6 ip.toIpv6Mapped) = false ∧ isSafeIp (.v6 ip.toIpv6Compatible) = false) := by
  refine ⟨isSafeIp_mapped ip, fun hsafe => ?_, fun hrefused => ?_⟩
  · rw [isSafeIp_compatible, Bool.and_eq_true] at hsafe
    exact hsafe.1
  · have hunsafe : isSafeIp (.v4 ip) = false := by
      rw [isSafeIp_v4, refusesIpv4, hrefused, Bool.not_true]
    rw [isSafeIp_mapped, isSafeIp_compatible, hunsafe]
    exact ⟨rfl, Bool.false_and _⟩

end FormRespondentRole
