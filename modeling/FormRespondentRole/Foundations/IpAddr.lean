import FormRespondentRole.Foundations.Text

/-!
# IP addresses

Addresses of both versions, their kinds, and their texts as the standard library reads
them. -/

namespace Foundations

structure Ipv4 where
  a : UInt8
  b : UInt8
  c : UInt8
  d : UInt8
deriving DecidableEq

structure Ipv6 where
  segments : Vector UInt16 8
deriving DecidableEq

inductive IpAddr
  | v4 (ip : Ipv4)
  | v6 (ip : Ipv6)
deriving DecidableEq

namespace Ipv4

def isLoopback (ip : Ipv4) : Bool := ip.a = 127

def isUnspecified (ip : Ipv4) : Bool := ip = ⟨0, 0, 0, 0⟩

def isPrivate (ip : Ipv4) : Bool :=
  ip.a = 10 || (ip.a = 172 && 16 ≤ ip.b && ip.b ≤ 31) || (ip.a = 192 && ip.b = 168)

def isLinkLocal (ip : Ipv4) : Bool := ip.a = 169 && ip.b = 254

def isMulticast (ip : Ipv4) : Bool := 224 ≤ ip.a && ip.a ≤ 239

end Ipv4

namespace Ipv6

def isLoopback (ip : Ipv6) : Bool := ip.segments = #v[0, 0, 0, 0, 0, 0, 0, 1]

def isUnspecified (ip : Ipv6) : Bool := ip.segments = #v[0, 0, 0, 0, 0, 0, 0, 0]

/-- `fc00::/7` -/
def isUniqueLocal (ip : Ipv6) : Bool := ip.segments[0] &&& 0xfe00 = 0xfc00

/-- `fe80::/10` -/
def isUnicastLinkLocal (ip : Ipv6) : Bool := ip.segments[0] &&& 0xffc0 = 0xfe80

/-- `ff00::/8` -/
def isMulticast (ip : Ipv6) : Bool := ip.segments[0] &&& 0xff00 = 0xff00

/-- The address that `::a.b.c.d` or `::ffff:a.b.c.d` stands for. -/
def toIpv4 (ip : Ipv6) : Option Ipv4 :=
  let s := ip.segments
  if s[0] = 0 ∧ s[1] = 0 ∧ s[2] = 0 ∧ s[3] = 0 ∧ s[4] = 0 ∧ (s[5] = 0 ∨ s[5] = 0xffff) then
    some ⟨(s[6] >>> 8).toUInt8, s[6].toUInt8, (s[7] >>> 8).toUInt8, s[7].toUInt8⟩
  else none

end Ipv6

/-! ### IPv4 addresses among the IPv6 addresses -/

namespace Ipv4

/-- The address in the last four bytes, after the segment `h`. -/
def embed (h : UInt16) (ip : Ipv4) : Ipv6 :=
  ⟨#v[0, 0, 0, 0, 0, h, ip.a.toUInt16 <<< 8 ||| ip.b.toUInt16,
    ip.c.toUInt16 <<< 8 ||| ip.d.toUInt16]⟩

/-- `::ffff:a.b.c.d` -/
def toIpv6Mapped (ip : Ipv4) : Ipv6 := ip.embed 0xffff

/-- `::a.b.c.d` -/
def toIpv6Compatible (ip : Ipv4) : Ipv6 := ip.embed 0

end Ipv4

private theorem high_byte (a b : UInt8) :
    ((a.toUInt16 <<< 8 ||| b.toUInt16) >>> 8).toUInt8 = a := by
  refine UInt8.eq_of_toBitVec_eq (BitVec.eq_of_getLsbD_eq fun i hi => ?_)
  simp [BitVec.getLsbD_setWidth]
  grind

private theorem low_byte (a b : UInt8) : (a.toUInt16 <<< 8 ||| b.toUInt16).toUInt8 = b := by
  refine UInt8.eq_of_toBitVec_eq (BitVec.eq_of_getLsbD_eq fun i hi => ?_)
  simp

/-- A segment has its two bytes. -/
theorem segment_inj {a b c d : UInt8}
    (h : a.toUInt16 <<< 8 ||| b.toUInt16 = c.toUInt16 <<< 8 ||| d.toUInt16) : a = c ∧ b = d := by
  constructor
  · rw [← high_byte a b, h, high_byte]
  · rw [← low_byte a b, h, low_byte]

namespace Ipv4

theorem toIpv4_embed {h : UInt16} (hh : h = 0 ∨ h = 0xffff) (ip : Ipv4) :
    (ip.embed h).toIpv4 = some ip := by
  have hbytes : some (⟨((ip.a.toUInt16 <<< 8 ||| ip.b.toUInt16) >>> 8).toUInt8,
    (ip.a.toUInt16 <<< 8 ||| ip.b.toUInt16).toUInt8,
      ((ip.c.toUInt16 <<< 8 ||| ip.d.toUInt16) >>> 8).toUInt8,
          (ip.c.toUInt16 <<< 8 ||| ip.d.toUInt16).toUInt8⟩ : Ipv4) = some ip := by
    rw [high_byte, low_byte, high_byte, low_byte]
  exact (if_pos ⟨rfl, rfl, rfl, rfl, rfl, hh⟩).trans hbytes

theorem embed_inj {h : UInt16} {ip ip' : Ipv4} (heq : ip.embed h = ip'.embed h) : ip = ip' := by
  obtain ⟨a, b, c, d⟩ := ip
  obtain ⟨a', b', c', d'⟩ := ip'
  simp only [embed, Ipv6.mk.injEq, Vector.mk.injEq, Array.mk.injEq, List.cons.injEq, true_and,
    and_true] at heq
  obtain ⟨rfl, rfl⟩ := segment_inj heq.1
  obtain ⟨rfl, rfl⟩ := segment_inj heq.2
  rfl

end Ipv4

namespace IpAddr

def isLoopback : IpAddr → Bool
  | v4 ip => ip.isLoopback
  | v6 ip => ip.isLoopback

def isUnspecified : IpAddr → Bool
  | v4 ip => ip.isUnspecified
  | v6 ip => ip.isUnspecified

/-! ### Reading

Each reader takes as much of the text as it can, and answers what it read with the rest. -/

/-- The value of a digit in this radix. -/
def toDigit (radix : Nat) (c : Char) : Option Nat :=
  let value := if c.isDigit then some (c.toNat - 48) else if c.isAlpha then
    some (c.toLower.toNat - 87) else none
  value.filter (· < radix)

def readNumber (radix maxDigits bound : Nat) (allowZeroPrefix : Bool) (s : Text) :
    Option (Nat × Text) :=
  let digits := s.takeWhile fun c => (toDigit radix c).isSome
  let value := digits.foldl (fun n c => radix * n + (toDigit radix c).getD 0) 0
  if digits = [] ∨ maxDigits < digits.length then none
  else if !allowZeroPrefix && digits.head? = some '0' && 1 < digits.length then none
  else if bound < value then none
  else some (value, s.drop digits.length)

/-- From the second item on, a separator stands before it. -/
def readSeparator {α : Type} (sep : Char) (index : Nat) (read : Text → Option (α × Text))
    (s : Text) : Option (α × Text) :=
  if index = 0 then read s
  else match s with
    | c :: rest => if c = sep then read rest else none
    | [] => none

def readIpv4 (s : Text) : Option (Ipv4 × Text) := do
  let octet := readNumber 10 3 255 false
  let (a, s) ← readSeparator '.' 0 octet s
  let (b, s) ← readSeparator '.' 1 octet s
  let (c, s) ← readSeparator '.' 2 octet s
  let (d, s) ← readSeparator '.' 3 octet s
  return (⟨.ofNat a, .ofNat b, .ofNat c, .ofNat d⟩, s)

/-- At most so many groups, the last two of which an IPv4 address may stand for. -/
def readGroups : Nat → Nat → Text → List UInt16 × Bool × Text
  | 0, _, s => ([], false, s)
  | left + 1, index, s =>
    let ipv4 := if 0 < left then readSeparator ':' index readIpv4 s else none
    match ipv4, readSeparator ':' index (readNumber 16 4 65535 true) s with
    | some (ip, rest), _ =>
      ([ip.a.toUInt16 <<< 8 ||| ip.b.toUInt16, ip.c.toUInt16 <<< 8 ||| ip.d.toUInt16], true, rest)
    | none, some (group, rest) =>
      let (groups, embedded, rest) := readGroups left (index + 1) rest
      (.ofNat group :: groups, embedded, rest)
    | none, none => ([], false, s)

def readIpv6 (s : Text) : Option (Ipv6 × Text) :=
  let (front, embedded, rest) := readGroups 8 0 s
  let address (groups : List UInt16) : Ipv6 := ⟨Vector.ofFn fun i => groups.getD i 0⟩
  if front.length = 8 then some (address front, rest)
  else if embedded then none
  else match rest with
    | ':' :: ':' :: rest =>
      let (back, _, rest) := readGroups (7 - front.length) 0 rest
      some (address (front ++ List.replicate (8 - front.length - back.length) 0 ++ back), rest)
    | _ => none

/-- `parse::<IpAddr>`, which reads the whole text. -/
def parse (s : Text) : Option IpAddr :=
  let read := ((readIpv4 s).map fun r => (v4 r.1, r.2)).or ((readIpv6 s).map fun r => (v6 r.1, r.2))
  read.bind fun r => if r.2 = [] then some r.1 else none

example : parse "169.254.169.254".toList = some (v4 ⟨169, 254, 169, 254⟩) := by decide +kernel

example : parse "::ffff:10.0.0.1".toList =
    some (v6 ⟨#v[0, 0, 0, 0, 0, 0xffff, 0x0a00, 1]⟩) := by decide +kernel

example : parse "1.2.3.04".toList = none := by decide +kernel

end IpAddr

end Foundations
