import Mathlib

/-!
# Text

Program strings are lists of Unicode scalar values.  Their order is the order of the byte strings
that encode them in UTF-8: both compare scalar by scalar.
-/

namespace Foundations

abbrev Text := List Char

instance : LawfulBEq Text := List.instLawfulBEq

namespace Text

/-- The decimal digits of a natural number, without leading zeros. -/
def ofNat (n : Nat) : Text := Nat.toDigits 10 n

/-- The decimal text of an integer, with a minus sign when it is negative. -/
def ofInt : Int → Text
  | .ofNat n => ofNat n
  | .negSucc n => '-' :: ofNat (n + 1)

/-- `true` when the needle occurs in the text as one block. -/
def contains (s needle : Text) : Bool := decide (needle <:+: s)

/-- The number that a block of ASCII digits denotes, continuing from `acc`. -/
def digitsValue (acc : Nat) (ds : Text) : Nat := ds.foldl (fun n d => 10 * n + (d.toNat - 48)) acc

/-- The Unicode property `White_Space`. -/
def isWhitespace (c : Char) : Bool :=
  (9 ≤ c.toNat && c.toNat ≤ 13) || (0x2000 ≤ c.toNat && c.toNat ≤ 0x200A) ||
    c.toNat ∈ [0x20, 0x85, 0xA0, 0x1680, 0x2028, 0x2029, 0x202F, 0x205F, 0x3000]

def trim (s : Text) : Text := ((s.dropWhile isWhitespace).reverse.dropWhile isWhitespace).reverse

theorem trim_eq_self {s : Text} (h : ∀ c ∈ s, isWhitespace c = false) : trim s = s := by
  have hdrop : ∀ t : Text, (∀ c ∈ t, isWhitespace c = false) → t.dropWhile isWhitespace = t := by
    intro t ht
    cases t with
    | nil => rfl
    | cons c t => rw [List.dropWhile_cons_of_neg
      (by rw [ht c List.mem_cons_self]; exact Bool.false_ne_true)]
  rw [trim, hdrop s h, hdrop s.reverse fun c hc => h c (List.mem_reverse.1 hc),
    List.reverse_reverse]

theorem trim_trim (s : Text) : trim (trim s) = trim s := by
  have hleft : (trim s).dropWhile isWhitespace = trim s := by
    cases htrim : trim s with
    | nil => rfl
    | cons c t =>
      have hprefix : trim s <+: s.dropWhile isWhitespace := List.rdropWhile_prefix isWhitespace _
      obtain ⟨rest, hrest⟩ := hprefix
      rw [htrim, List.cons_append] at hrest
      have hc := List.dropWhile_idempotent isWhitespace s
      rw [← hrest] at hc
      by_cases hspace : isWhitespace c = true
      · rw [List.dropWhile_cons_of_pos hspace] at hc
        have hlen := congrArg List.length hc
        have hle := (List.dropWhile_suffix isWhitespace (l := t ++ rest)).length_le
        rw [List.length_cons] at hlen
        omega
      · rw [List.dropWhile_cons_of_neg hspace]
  rw [trim, hleft, trim, List.reverse_reverse, List.dropWhile_idempotent]

theorem trim_ne_nil {s : Text} {c : Char} (hc : c ∈ s) (h : isWhitespace c = false) :
    trim s ≠ [] := by
  intro htrim
  have hdrop := List.reverse_eq_nil_iff.1 htrim
  have hall := List.dropWhile_eq_nil_iff.1 hdrop
  have hmem : c ∈ s.dropWhile isWhitespace := by
    have hsplit := List.takeWhile_append_dropWhile (p := isWhitespace) (l := s)
    rw [← hsplit] at hc
    refine (List.mem_append.1 hc).resolve_left fun htake => ?_
    rw [List.mem_takeWhile_imp htake] at h
    cases h
  rw [hall c (List.mem_reverse.2 hmem)] at h
  cases h

theorem isWhitespace_of_isDigit {c : Char} (h : c.isDigit) : isWhitespace c = false := by
  simp only [Char.isDigit, ge_iff_le, Bool.and_eq_true, decide_eq_true_eq] at h
  have h₁ : 48 ≤ c.toNat := h.1
  have h₂ : c.toNat ≤ 57 := h.2
  unfold isWhitespace
  simp only [Bool.or_eq_false_iff, Bool.and_eq_false_iff, decide_eq_false_iff_not, List.mem_cons,
    List.not_mem_nil, or_false]
  omega

theorem toLower_of_isWhitespace {c : Char} (h : isWhitespace c = true) : c.toLower = c := by
  rw [Char.toLower]
  split
  · rename_i hupper
    have hlow : 65 ≤ c.toNat := hupper.1
    have hhigh : c.toNat ≤ 90 := hupper.2
    simp [isWhitespace] at h
    omega
  · rfl

/-- The value of a nonempty block of ASCII digits. -/
def parseDigits (s : Text) : Option Nat := if s ≠ [] ∧ s.all Char.isDigit then
    some (digitsValue 0 s) else none

/-- `parse::<u64>`: digits, which a plus sign may precede. -/
def parseU64 : Text → Option Nat
  | '+' :: ds => (parseDigits ds).filter (· < 2 ^ 64)
  | ds => (parseDigits ds).filter (· < 2 ^ 64)

/-- `parse::<i64>`: digits, which a sign may precede. -/
def parseI64 : Text → Option Int
  | '-' :: ds => ((parseDigits ds).filter (· ≤ 2 ^ 63)).map fun n => -n
  | '+' :: ds => ((parseDigits ds).filter (· < 2 ^ 63)).map fun n => n
  | ds => ((parseDigits ds).filter (· < 2 ^ 63)).map fun n => n

theorem parseI64_bounds {s : Text} {n : Int} (h : parseI64 s = some n) :
    -2 ^ 63 ≤ n ∧ n < 2 ^ 63 := by
  rw [parseI64.eq_def] at h
  split at h
  · obtain ⟨i, hi, rfl⟩ := Option.map_eq_some_iff.1 h
    obtain ⟨m, hm, hcast⟩ := Option.bind_eq_some_iff.1 hi
    obtain rfl := Option.some.inj hcast
    have hle : m ≤ 2 ^ 63 := of_decide_eq_true (Option.filter_eq_some_iff.1 hm).2
    omega
  all_goals
    obtain ⟨i, hi, rfl⟩ := Option.map_eq_some_iff.1 h
    obtain ⟨m, hm, hcast⟩ := Option.bind_eq_some_iff.1 hi
    obtain rfl := Option.some.inj hcast
    have hlt : m < 2 ^ 63 := of_decide_eq_true (Option.filter_eq_some_iff.1 hm).2
    omega

/-- Different hexadecimal digits have different characters. -/
theorem digitChar_inj {m n : Nat} (hm : m < 16) (hn : n < 16)
    (h : Nat.digitChar m = Nat.digitChar n) : m = n := by
  have hall : ∀ a b : Fin 16, Nat.digitChar a = Nat.digitChar b → a = b := by decide
  exact Fin.mk.inj_iff.1 (hall ⟨m, hm⟩ ⟨n, hn⟩ h)

theorem ofNat_ne_nil (n : Nat) : ofNat n ≠ [] := Nat.toDigits_ne_nil

theorem isDigit_of_mem_ofNat {n : Nat} {c : Char} (h : c ∈ ofNat n) : c.isDigit :=
  Nat.isDigit_of_mem_toDigits (by decide) (by decide) h

theorem digitsValue_ofNat (n : Nat) : digitsValue 0 (ofNat n) = n :=
  calc digitsValue 0 (ofNat n) = Nat.ofDigitChars 10 (Nat.toDigits 10 n) 0 :=
    Nat.ofDigitChars_eq_foldl.symm
    _ = n := Nat.ofDigitChars_ten_toDigits

/-- A positive number does not begin with a zero. -/
theorem head?_ofNat {n : Nat} (hn : n ≠ 0) : (ofNat n).head? ≠ some '0' := by
  induction n using Nat.strong_induction_on with
  | _ n ih =>
    by_cases hlt : n < 10
    · rw [ofNat, Nat.toDigits_of_lt_base hlt, List.head?_cons]
      intro h
      have hzero : n = 0 := digitChar_inj (n := 0) (by omega) (by omega) (Option.some.inj h)
      exact hn hzero
    · have hdiv : n / 10 ≠ 0 := by omega
      have hhead := ih (n / 10) (by omega) hdiv
      rw [ofNat] at hhead
      rw [ofNat, Nat.toDigits_of_base_le (by decide) (by omega),
        List.head?_append_of_ne_nil _ Nat.toDigits_ne_nil]
      exact hhead

theorem parseDigits_ofNat (n : Nat) : parseDigits (ofNat n) = some n := by
  have hall : (ofNat n).all Char.isDigit := List.all_eq_true.2 fun c hc => isDigit_of_mem_ofNat hc
  rw [parseDigits, if_pos ⟨ofNat_ne_nil n, hall⟩, digitsValue_ofNat]

/-- The text of a number that fits in 64 bits is read back as that number. -/
theorem parseI64_ofInt {z : Int} (hlow : -2 ^ 63 ≤ z) (hhigh : z < 2 ^ 63) :
    parseI64 (ofInt z) = some z := by
  cases z with
  | negSucc n =>
    have hn : n + 1 ≤ 2 ^ 63 := by omega
    rw [ofInt, parseI64, parseDigits_ofNat, Option.filter_some, if_pos (decide_eq_true hn)]
    rfl
  | ofNat n =>
    have hn : n < 2 ^ 63 := by
      have hcast : (Int.ofNat n) = (n : Int) := rfl
      omega
    obtain ⟨d, ds, hds⟩ := List.exists_cons_of_ne_nil (ofNat_ne_nil n)
    have hdigit : d.isDigit := isDigit_of_mem_ofNat (n := n) (hds ▸ List.mem_cons_self)
    have hminus : d ≠ '-' := by rintro rfl; exact absurd hdigit (by decide)
    have hplus : d ≠ '+' := by rintro rfl; exact absurd hdigit (by decide)
    rw [ofInt, parseI64, parseDigits_ofNat]
    · rw [Option.filter_some, if_pos (decide_eq_true hn)]
      rfl
    · intro ds' h; exact hminus (List.cons.inj (hds.symm.trans h)).1
    · intro ds' h; exact hplus (List.cons.inj (hds.symm.trans h)).1

/-- The text of an integer is made of digits and a minus sign. -/
theorem isDigit_or_eq_minus_of_mem_ofInt {z : Int} {c : Char} (h : c ∈ ofInt z) :
    c.isDigit ∨ c = '-' := by
  cases z with
  | ofNat n => exact Or.inl (isDigit_of_mem_ofNat h)
  | negSucc n =>
    rcases List.mem_cons.1 h with rfl | h
    · exact Or.inr rfl
    · exact Or.inl (isDigit_of_mem_ofNat h)

end Text

end Foundations
