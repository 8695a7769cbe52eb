import FormRespondentRole.Foundations.Text

/-!
# Reading a binary64 number

`parseF64` is the grammar of Rust's `str::parse::<f64>`: an optional sign, then one of the words
`inf`, `infinity` and `nan` in any case, or decimal digits with an optional point and an optional
exponent, at least one digit standing before or after the point.  The value is the correctly
rounded one.
-/

namespace Foundations

abbrev F64 := Float.Model

namespace F64

/-- The exponent after the digits of a decimal number. -/
def parseExponent : Text → Option Int
  | [] => some 0
  | c :: rest =>
    if c = 'e' ∨ c = 'E' then
      match rest with
      | '-' :: ds => if ds ≠ [] ∧ ds.all Char.isDigit then some (-(Text.digitsValue 0 ds : Int))
        else none
      | '+' :: ds => if ds ≠ [] ∧ ds.all Char.isDigit then some (Text.digitsValue 0 ds) else none
      | ds => if ds ≠ [] ∧ ds.all Char.isDigit then some (Text.digitsValue 0 ds) else none
    else none

private def parseDecimal (s : Text) : Option F64 :=
  let whole := s.takeWhile Char.isDigit
  let afterWhole := s.dropWhile Char.isDigit
  let (fraction, afterFraction) :=
    match afterWhole with
    | '.' :: rest => (rest.takeWhile Char.isDigit, rest.dropWhile Char.isDigit)
    | rest => ([], rest)
  if whole = [] ∧ fraction = [] then none
  else (parseExponent afterFraction).map fun e =>
    Float.Model.ofScientific (Text.digitsValue (Text.digitsValue 0 whole) fraction)
      (e - fraction.length)

private def parseUnsigned (s : Text) : Option F64 :=
  if s.map Char.toLower = "inf".toList ∨ s.map Char.toLower = "infinity".toList then
    some (Float.Model.pack (.infinity .positive))
  else if s.map Char.toLower = "nan".toList then some (Float.Model.pack .notANumber)
  else parseDecimal s

def parse : Text → Option F64
  | '-' :: s => (parseUnsigned s).map Float.Model.neg
  | '+' :: s => parseUnsigned s
  | s => parseUnsigned s

example : parse "1e-1".toList = parse "+.10".toList := by decide

example : parse "1.5.2".toList = none := by decide

/-! ### The text of a whole number -/

private theorem toLower_of_isDigit {c : Char} (h : c.isDigit) : c.toLower = c := by
  simp only [Char.isDigit, ge_iff_le, Bool.and_eq_true, decide_eq_true_eq] at h
  have hdigit : c.toNat ≤ 57 := h.2
  rw [Char.toLower]
  split
  · rename_i hupper
    have hlow : 65 ≤ c.toNat := hupper.1
    omega
  · rfl

private theorem parseDecimal_ofNat (n : Nat) :
    parseDecimal (Text.ofNat n) = some (Float.Model.ofScientific n 0) := by
  have hall : ∀ c ∈ Text.ofNat n, c.isDigit := fun c hc => Text.isDigit_of_mem_ofNat hc
  have htake : (Text.ofNat n).takeWhile Char.isDigit = Text.ofNat n :=
    List.takeWhile_eq_self_iff.2 hall
  have hdrop : (Text.ofNat n).dropWhile Char.isDigit = [] := List.dropWhile_eq_nil_iff.2 hall
  have hvalue : Text.digitsValue (Text.digitsValue 0 (Text.ofNat n)) [] = n :=
    Text.digitsValue_ofNat n
  simp only [parseDecimal, htake, hdrop, Text.ofNat_ne_nil, false_and, if_false, parseExponent,
    Option.map_some, hvalue,
    List.length_nil, Nat.cast_zero, sub_zero]

private theorem parseUnsigned_ofNat (n : Nat) :
    parseUnsigned (Text.ofNat n) = some (Float.Model.ofScientific n 0) := by
  obtain ⟨d, ds, hds⟩ := List.exists_cons_of_ne_nil (Text.ofNat_ne_nil n)
  have hdigit : d.isDigit := Text.isDigit_of_mem_ofNat (n := n) (hds ▸ List.mem_cons_self)
  have hword : ∀ c : Char, c.isDigit = false →
      ∀ word : Text, (Text.ofNat n).map Char.toLower ≠ c :: word := by
    intro c hc word heq
    rw [hds, List.map_cons, toLower_of_isDigit hdigit] at heq
    rw [(List.cons.inj heq).1, hc] at hdigit
    cases hdigit
  have hinf : (Text.ofNat n).map Char.toLower ≠ "inf".toList := hword 'i' (by decide) "nf".toList
  have hinfinity : (Text.ofNat n).map Char.toLower ≠ "infinity".toList :=
    hword 'i' (by decide) "nfinity".toList
  have hnan : (Text.ofNat n).map Char.toLower ≠ "nan".toList := hword 'n' (by decide) "an".toList
  rw [parseUnsigned, if_neg (not_or.2 ⟨hinf, hinfinity⟩), if_neg hnan, parseDecimal_ofNat]

theorem parse_ofNat (n : Nat) : parse (Text.ofNat n) = some (Float.Model.ofScientific n 0) := by
  obtain ⟨d, ds, hds⟩ := List.exists_cons_of_ne_nil (Text.ofNat_ne_nil n)
  have hdigit : d.isDigit := Text.isDigit_of_mem_ofNat (n := n) (hds ▸ List.mem_cons_self)
  have hminus : d ≠ '-' := by rintro rfl; exact absurd hdigit (by decide)
  have hplus : d ≠ '+' := by rintro rfl; exact absurd hdigit (by decide)
  rw [parse]
  · exact parseUnsigned_ofNat n
  · intro s h; exact hminus (List.cons.inj (hds.symm.trans h)).1
  · intro s h; exact hplus (List.cons.inj (hds.symm.trans h)).1

theorem parse_neg_ofNat (n : Nat) :
    parse ('-' :: Text.ofNat n) = some (Float.Model.ofScientific n 0).neg := by
  rw [parse, parseUnsigned_ofNat, Option.map_some]

/-! ### No white space -/

private theorem isWhitespace_of_word {s word : Text}
    (hword : ∀ c ∈ word, Text.isWhitespace c = false) (h : s.map Char.toLower = word) :
    ∀ c ∈ s, Text.isWhitespace c = false := by
  intro c hc
  by_contra hspace
  rw [Bool.not_eq_false] at hspace
  have hmem : c.toLower ∈ word := h ▸ List.mem_map_of_mem hc
  rw [Text.toLower_of_isWhitespace hspace] at hmem
  rw [hword c hmem] at hspace
  cases hspace

private theorem isWhitespace_of_parseExponent {s : Text} {e : Int} (h : parseExponent s = some e) :
    ∀ c ∈ s, Text.isWhitespace c = false := by
  have hdigits : ∀ {ds : Text} {z : Int}, (if ds ≠ [] ∧ ds.all Char.isDigit then some z else none) =
    some e →
      ∀ c ∈ ds, Text.isWhitespace c = false := by
    intro ds z h c hc
    split at h
    · rename_i hds
      exact Text.isWhitespace_of_isDigit (List.all_eq_true.1 hds.2 c hc)
    · cases h
  rw [parseExponent.eq_def] at h
  split at h
  · exact List.forall_mem_nil _
  · split at h
    · rename_i c rest hc
      have hmark : Text.isWhitespace c = false := by rcases hc with rfl | rfl <;> decide
      refine List.forall_mem_cons.2 ⟨hmark, ?_⟩
      split at h
      · exact List.forall_mem_cons.2 ⟨by decide, hdigits h⟩
      · exact List.forall_mem_cons.2 ⟨by decide, hdigits h⟩
      · exact hdigits h
    · cases h

private theorem isWhitespace_of_parseDecimal {s : Text} {x : F64} (h : parseDecimal s = some x) :
    ∀ c ∈ s, Text.isWhitespace c = false := by
  have htake : ∀ {t : Text}, ∀ c ∈ t.takeWhile Char.isDigit, Text.isWhitespace c = false :=
    fun c hc => Text.isWhitespace_of_isDigit (List.mem_takeWhile_imp hc)
  have hsplit : ∀ t : Text, (∀ c ∈ t.dropWhile Char.isDigit, Text.isWhitespace c = false) →
      ∀ c ∈ t, Text.isWhitespace c = false := by
    intro t ht
    rw [← List.takeWhile_append_dropWhile (p := Char.isDigit) (l := t)]
    exact List.forall_mem_append.2 ⟨htake, ht⟩
  have hexponent : ∀ {p : Prop} [Decidable p] {t : Text} {f : Int → F64},
      (if p then none else (parseExponent t).map f) = some x →
          ∀ c ∈ t, Text.isWhitespace c = false := by
    intro p _ t f h
    split at h
    · cases h
    · obtain ⟨e, he, -⟩ := Option.map_eq_some_iff.1 h
      exact isWhitespace_of_parseExponent he
  refine hsplit s ?_
  rw [parseDecimal] at h
  dsimp only at h
  split at h
  · rename_i rest hrest
    rw [hrest]
    exact List.forall_mem_cons.2 ⟨by decide, hsplit _ (hexponent h)⟩
  · exact hexponent h

/-- What is read as a number is free of white space. -/
theorem isWhitespace_of_parse {s : Text} {x : F64} (h : parse s = some x) :
    ∀ c ∈ s, Text.isWhitespace c = false := by
  have hunsigned : ∀ {t : Text} {y : F64}, parseUnsigned t = some y →
      ∀ c ∈ t, Text.isWhitespace c = false := by
    intro t y h
    rw [parseUnsigned] at h
    split at h
    · rename_i hword
      exact hword.elim (isWhitespace_of_word (by simp [Text.isWhitespace]))
        (isWhitespace_of_word (by simp [Text.isWhitespace]))
    split at h
    · rename_i hword
      exact isWhitespace_of_word (by simp [Text.isWhitespace]) hword
    · exact isWhitespace_of_parseDecimal h
  rw [parse.eq_def] at h
  split at h
  · obtain ⟨y, hy, -⟩ := Option.map_eq_some_iff.1 h
    exact List.forall_mem_cons.2 ⟨by decide, hunsigned hy⟩
  · exact List.forall_mem_cons.2 ⟨by decide, hunsigned h⟩
  · exact hunsigned h

end F64

end Foundations
