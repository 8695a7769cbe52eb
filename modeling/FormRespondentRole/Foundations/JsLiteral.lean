import FormRespondentRole.Foundations.JsonText

/-!
# String literals of scripts

The value of a single-quoted literal is a sequence of UTF-16 code units.  A text in quotes is read
as itself just when it has no quote, no backslash and no line break (`readLiteral_iff`): an escape
takes more code units than it stands for.
-/

namespace Foundations

/-- The UTF-16 code units of a code point. -/
def codeUnits (n : Nat) : List UInt16 :=
  if n < 0x10000 then [n.toUInt16]
  else [(0xD800 + (n - 0x10000) / 0x400).toUInt16, (0xDC00 + (n - 0x10000) % 0x400).toUInt16]

def Text.units (s : Text) : List UInt16 := s.flatMap fun c => codeUnits c.toNat

namespace JsLiteral

open Text

/-- The line terminators; the last two may stand in a literal. -/
def isLineTerminator (c : Char) : Bool := c.toNat ∈ [0x0A, 0x0D, 0x2028, 0x2029]

def singleEscapes : List (Char × UInt16) :=
  [('b', 8), ('t', 9), ('n', 10), ('v', 11), ('f', 12), ('r', 13)]

def hexValue (digits : Text) : Option Nat :=
  digits.foldlM (fun n c => (Value.hexVal c).map (16 * n + ·)) 0

def hexDigits (n : Nat) (s : Text) : Option Nat :=
  if s.length < n then none else hexValue (s.take n)

def isOctalDigit (c : Char) : Bool := '0' ≤ c && c ≤ '7'

/-- An escape with a digit, which in strict code is that of the null character only. -/
def digitEscape (strict : Bool) (c : Char) (s : Text) : Option (List UInt16 × Nat) :=
  if c = '0' ∧ s.head?.all (fun d => !d.isDigit) then some ([0], 1)
  else if strict then none
  else if !isOctalDigit c then some (codeUnits c.toNat, 1)
  else
    let digits := c :: (s.take (if c ≤ '3' then 2 else 1)).takeWhile isOctalDigit
    some ([(digits.foldl (fun (n : Nat) (d : Char) => 8 * n + (d.toNat - 48)) 0).toUInt16],
      digits.length)

def unicodeEscape (s : Text) : Option (List UInt16 × Nat) :=
  if s.head? = some '{' then
    let digits := s.tail.takeWhile (· ≠ '}')
    if digits = [] ∨ digits.length = s.tail.length then none
    else (hexValue digits).bind fun n => if n ≤ 0x10FFFF then some (codeUnits n, digits.length + 3)
      else none
  else (hexDigits 4 s).map fun n => ([n.toUInt16], 5)

/-- What an escape stands for, read from after its backslash, and how many characters it takes. -/
def escape (strict : Bool) : Text → Option (List UInt16 × Nat)
  | [] => none
  | c :: s =>
    if c = 'x' then (hexDigits 2 s).map fun n => ([n.toUInt16], 3)
    else if c = 'u' then unicodeEscape s
    else if c = '\r' ∧ s.head? = some '\n' then some ([], 2)
    else if isLineTerminator c then some ([], 1)
    else if c.isDigit then digitEscape strict c s
    else match singleEscapes.lookup c with
      | some u => some ([u], 1)
      | none => some (codeUnits c.toNat, 1)

/-- Reading from where `skip` more characters belong to the last escape. -/
def readFrom (strict : Bool) : Nat → Text → Option (List UInt16 × Text)
  | _, [] => none
  | skip + 1, _ :: s => readFrom strict skip s
  | 0, c :: s =>
    if c = '\'' then some ([], s)
    else if c = '\n' ∨ c = '\r' then none
    else if c = '\\' then
      (escape strict s).bind fun e => (readFrom strict e.2 s).map fun r => (e.1 ++ r.1, r.2)
    else (readFrom strict 0 s).map fun r => (codeUnits c.toNat ++ r.1, r.2)

/-- A literal from after its opening quote: its value, and the text after its closing quote. -/
def readLiteral (strict : Bool) (s : Text) : Option (List UInt16 × Text) := readFrom strict 0 s

example : readLiteral true "a\\x62\\u{63}\\'' + b".toList =
    some (units "abc'".toList, " + b".toList) := by decide

variable {strict : Bool} {s v r : Text} {us : List UInt16} {n skip : Nat}

theorem units_cons (c : Char) (s : Text) : units (c :: s) = codeUnits c.toNat ++ units s :=
  List.flatMap_cons

theorem units_append (s s' : Text) : units (s ++ s') = units s ++ units s' := List.flatMap_append

theorem codeUnits_length (n : Nat) : 0 < (codeUnits n).length ∧ (codeUnits n).length ≤ 2 := by
  rw [codeUnits]
  split
  · exact ⟨Nat.one_pos, Nat.le_succ 1⟩
  · exact ⟨Nat.two_pos, le_rfl⟩

theorem length_le_units (s : Text) : s.length ≤ s.units.length := by
  induction s with
  | nil => exact Nat.le_refl 0
  | cons c s ih =>
    have hc := (codeUnits_length c.toNat).1
    rw [units_cons, List.length_append, List.length_cons]
    omega

private theorem length_digitEscape {c : Char} (h : digitEscape strict c s = some (us, n)) :
    us.length ≤ (units ((c :: s).take n)).length := by
  rw [digitEscape] at h
  split at h
  · cases h
    exact le_trans (by simp) (length_le_units _)
  · split at h
    · cases h
    · split at h
      · cases h
        simp [units]
      · cases h
        exact le_trans (by simp) (length_le_units _)

private theorem length_unicodeEscape {c : Char} (h : unicodeEscape s = some (us, n)) :
    us.length ≤ (units ((c :: s).take n)).length := by
  rw [unicodeEscape] at h
  split at h
  · rename_i hbrace
    obtain ⟨s', rfl⟩ : ∃ s', s = '{' :: s' := by
      cases s with
      | nil => cases hbrace
      | cons d s' => exact ⟨s', by rw [Option.some.inj hbrace]⟩
    simp only at h
    split at h
    · cases h
    · obtain ⟨m, -, hm⟩ := Option.bind_eq_some_iff.1 h
      split at hm
      · cases hm
        refine (codeUnits_length m).2.trans (le_trans ?_ (length_le_units _))
        simp
      · cases hm
  · obtain ⟨m, -, hm⟩ := Option.map_eq_some_iff.1 h
    cases hm
    exact le_trans (by simp) (length_le_units _)

/-- An escape stands for no more code units than it takes after its backslash. -/
theorem length_escape (h : escape strict s = some (us, n)) :
    us.length ≤ (units (s.take n)).length := by
  cases s with
  | nil => cases h
  | cons c s =>
    rw [escape] at h
    split at h
    · obtain ⟨m, -, hm⟩ := Option.map_eq_some_iff.1 h
      cases hm
      exact le_trans (by simp) (length_le_units _)
    split at h
    · exact length_unicodeEscape h
    split at h
    · cases h
      exact Nat.zero_le _
    split at h
    · cases h
      exact Nat.zero_le _
    split at h
    · exact length_digitEscape h
    split at h
    · cases h
      exact le_trans (by simp) (length_le_units _)
    · cases h
      simp [units]

/-- A literal ends at a quote.  Its value has no more code units than its text, and fewer with a
backslash. -/
theorem length_readFrom (h : readFrom strict skip s = some (us, r)) :
    ∃ used, s = used ++ '\'' :: r ∧ skip ≤ used.length ∧
      us.length + (if '\\' ∈ used.drop skip then 1 else 0) ≤ (units (used.drop skip)).length := by
  induction s generalizing skip us with
  | nil => cases h
  | cons c s ih =>
    cases skip with
    | succ skip =>
      obtain ⟨used, rfl, hskip, hle⟩ := ih h
      exact ⟨c :: used, rfl, Nat.succ_le_succ hskip, hle⟩
    | zero =>
      rw [readFrom] at h
      split at h
      · rename_i hc
        cases h
        exact ⟨[], by rw [hc]; rfl, le_rfl, le_rfl⟩
      split at h
      · cases h
      split at h
      · rename_i hc
        obtain ⟨⟨vs, n⟩, hescape, hrest⟩ := Option.bind_eq_some_iff.1 h
        obtain ⟨⟨ws, r'⟩, hread, hr⟩ := Option.map_eq_some_iff.1 hrest
        cases hr
        obtain ⟨used, rfl, hskip, hle⟩ := ih hread
        refine ⟨c :: used, rfl, Nat.zero_le _, ?_⟩
        have hvs := length_escape hescape
        rw [List.take_append_of_le_length hskip] at hvs
        have hsplit : (units used).length = (units (used.take n)).length +
            (units (used.drop n)).length := by
          rw [← List.length_append, ← units_append, List.take_append_drop]
        have hone := (codeUnits_length c.toNat).1
        dsimp only at hvs hle ⊢
        rw [List.drop_zero, units_cons, List.length_append, List.length_append,
          if_pos (by simp [hc])]
        omega
      · rename_i hc
        obtain ⟨⟨ws, r'⟩, hread, hr⟩ := Option.map_eq_some_iff.1 h
        cases hr
        obtain ⟨used, rfl, -, hle⟩ := ih hread
        refine ⟨c :: used, rfl, Nat.zero_le _, ?_⟩
        have hmem : '\\' ∈ c :: used ↔ '\\' ∈ used :=
          List.mem_cons.trans (or_iff_right (Ne.symm hc))
        rw [List.drop_zero] at hle
        rw [List.drop_zero, units_cons, List.length_append, List.length_append, Nat.add_assoc]
        simp only [hmem]
        exact Nat.add_le_add_left hle _

/-- Without a backslash a literal is read up to the first quote. -/
private theorem readFrom_append_iff (hv : '\\' ∉ v) :
    readFrom strict 0 (v ++ '\'' :: r) = some (units v, r) ↔ ∀ c ∈ v, c ∉ ['\'', '\n', '\r'] := by
  induction v with
  | nil => simp [readFrom, units]
  | cons c v ih =>
    rw [List.mem_cons, not_or] at hv
    have hunits : codeUnits c.toNat ++ units v ≠ [] := List.append_ne_nil_of_left_ne_nil
      (List.ne_nil_of_length_pos (codeUnits_length c.toNat).1) _
    rw [List.forall_mem_cons, ← ih hv.2, List.cons_append, readFrom, units_cons]
    by_cases hquote : c = '\''
    · refine iff_of_false (fun h => ?_) fun h => h.1 (by simp [hquote])
      rw [if_pos hquote, Option.some.injEq, Prod.mk.injEq] at h
      exact hunits h.1.symm
    by_cases hline : c = '\n' ∨ c = '\r'
    · refine iff_of_false (fun h => ?_) fun h => h.1 (by simp [hline])
      rw [if_neg hquote, if_pos hline] at h
      cases h
    have hplain : c ∉ ['\'', '\n', '\r'] := by simp [hquote, hline]
    rw [if_neg hquote, if_neg hline, if_neg (Ne.symm hv.1), and_iff_right hplain,
      Option.map_eq_some_iff]
    constructor
    · rintro ⟨⟨us, r'⟩, hread, hr⟩
      rw [Prod.mk.injEq, List.append_cancel_left_eq] at hr
      exact hread.trans (congrArg some (Prod.ext hr.1 hr.2))
    · exact fun h => ⟨_, h, rfl⟩

/-- A text in quotes is read as itself, and to its closing quote. -/
theorem readLiteral_iff :
    readLiteral strict (v ++ '\'' :: r) = some (units v, r) ↔
      ∀ c ∈ v, c ∉ ['\'', '\\', '\n', '\r'] := by
  have hplain : ∀ c : Char, c ∉ ['\'', '\\', '\n', '\r'] ↔ c ≠ '\\' ∧ c ∉ ['\'', '\n', '\r'] :=
      fun c => by
    simp [and_left_comm]
  constructor
  · intro h
    obtain ⟨used, hused, -, hle⟩ := length_readFrom h
    obtain rfl := List.append_cancel_right hused
    have hslash : '\\' ∉ v := fun hmem => by
      rw [List.drop_zero, if_pos hmem] at hle
      exact Nat.not_succ_le_self _ hle
    exact fun c hc => (hplain c).2 ⟨fun h => hslash (h ▸ hc), (readFrom_append_iff hslash).1 h c hc⟩
  · intro h
    have hslash : '\\' ∉ v := fun hmem => ((hplain _).1 (h _ hmem)).1 rfl
    exact (readFrom_append_iff hslash).2 fun c hc => ((hplain c).1 (h c hc)).2

end JsLiteral

end Foundations
