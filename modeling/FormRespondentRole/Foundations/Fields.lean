import FormRespondentRole.Foundations.Text

/-!
# Separated fields and sealed payloads

A record is often written as fields with a separator character between them, followed by one more
separator and the MAC of all that in hexadecimal.  This file splits such texts.  `splitn` cuts off a
fixed number of fields and `List.splitOn` cuts at every separator; the two agree on a text whose
last field holds no separator, and a MAC in hexadecimal is such a field.
-/

namespace Foundations

namespace Text

/-- The UTF-8 encoding. -/
def bytes (s : Text) : List UInt8 := s.flatMap String.utf8EncodeChar

theorem bytes_injective : Function.Injective bytes := by
  intro s t h
  have hencode : s.utf8Encode = t.utf8Encode := congrArg List.toByteArray h
  have hdecode := congrArg ByteArray.utf8Decode? hencode
  rw [List.utf8Decode?_utf8Encode, List.utf8Decode?_utf8Encode] at hdecode
  exact List.toArray_inj (Option.some.inj hdecode)

/-! ## Pieces of a text -/

/-- `splitn`: at most `n` pieces, the last of which is what remains after `n - 1` separators. -/
def splitn (sep : Char) : Nat → Text → List Text
  | 0, _ => []
  | 1, s => [s]
  | n + 2, s =>
    match s.dropWhile (· ≠ sep) with
    | [] => [s]
    | _ :: rest => s.takeWhile (· ≠ sep) :: splitn sep (n + 1) rest

variable {sep : Char}

theorem splitn_append {f : Text} (hf : sep ∉ f) (n : Nat) (rest : Text) :
    splitn sep (n + 2) (f ++ sep :: rest) = f :: splitn sep (n + 1) rest := by
  have hall : ∀ c ∈ f, decide (c ≠ sep) = true :=
    fun c hc => decide_eq_true (ne_of_mem_of_not_mem hc hf)
  have hdrop : (f ++ sep :: rest).dropWhile (· ≠ sep) = sep :: rest := by
    rw [List.dropWhile_append_of_pos hall]
    simp
  have htake : (f ++ sep :: rest).takeWhile (· ≠ sep) = f := by
    rw [List.takeWhile_append_of_pos hall]
    simp
  rw [splitn, hdrop, htake]

theorem splitn_of_not_mem {s : Text} (hs : sep ∉ s) (n : Nat) : splitn sep (n + 1) s = [s] := by
  cases n with
  | zero => rfl
  | succ n =>
    have hall : ∀ c ∈ s, decide (c ≠ sep) = true :=
      fun c hc => decide_eq_true (ne_of_mem_of_not_mem hc hs)
    have hdrop : s.dropWhile (· ≠ sep) = [] := List.dropWhile_eq_nil_iff.2 hall
    rw [splitn, hdrop]

/-- The first separator of a text whose beginning holds none is where the beginning ends. -/
theorem append_cons_inj_of_not_mem_left {f g u v : Text} (hf : sep ∉ f) (hg : sep ∉ g)
    (h : f ++ sep :: u = g ++ sep :: v) : f = g ∧ u = v := by
  have hsplit := congrArg (List.splitOn sep) h
  rw [List.splitOn_append_cons_self_of_not_mem hf,
    List.splitOn_append_cons_self_of_not_mem hg] at hsplit
  obtain ⟨rfl, -⟩ := List.cons.inj hsplit
  exact ⟨rfl, (List.cons.inj (List.append_cancel_left h)).2⟩

/-- The last separator of a text whose end holds none is where the end begins. -/
theorem append_cons_inj_of_not_mem_right {a b u v : Text} (hu : sep ∉ u) (hv : sep ∉ v)
    (h : a ++ sep :: u = b ++ sep :: v) : a = b ∧ u = v := by
  have hrev := congrArg List.reverse h
  simp only [List.reverse_append, List.reverse_cons, List.append_assoc,
    List.singleton_append] at hrev
  have hu' : sep ∉ u.reverse := fun hmem => hu (List.mem_reverse.1 hmem)
  have hv' : sep ∉ v.reverse := fun hmem => hv (List.mem_reverse.1 hmem)
  obtain ⟨huv, hab⟩ := append_cons_inj_of_not_mem_left hu' hv' hrev
  exact ⟨List.reverse_injective hab, List.reverse_injective huv⟩

/-- A text with one separator or more is a first field, a separator and the rest. -/
theorem splitOn_eq_cons_iff {s f : Text} {fs : List Text} (hfs : fs ≠ []) :
    s.splitOn sep = f :: fs ↔ ∃ rest, s = f ++ sep :: rest ∧ sep ∉ f ∧ rest.splitOn sep = fs := by
  constructor
  · intro h
    by_cases hs : sep ∈ s
    · obtain ⟨f', rest, rfl, hf'⟩ := List.eq_append_cons_of_mem hs
      rw [List.splitOn_append_cons_self_of_not_mem hf'] at h
      obtain ⟨rfl, hrest⟩ := List.cons.inj h
      exact ⟨rest, rfl, hf', hrest⟩
    · rw [List.splitOn_eq_singleton hs] at h
      exact absurd (List.cons.inj h).2.symm hfs
  · rintro ⟨rest, rfl, hf, rfl⟩
    exact List.splitOn_append_cons_self_of_not_mem hf rest

theorem splitOn_eq_singleton_iff {s f : Text} : s.splitOn sep = [f] ↔ s = f ∧ sep ∉ f := by
  constructor
  · intro h
    by_cases hs : sep ∈ s
    · obtain ⟨f', rest, rfl, hf'⟩ := List.eq_append_cons_of_mem hs
      rw [List.splitOn_append_cons_self_of_not_mem hf'] at h
      exact absurd (List.cons.inj h).2 (List.splitOn_ne_nil _ _)
    · rw [List.splitOn_eq_singleton hs] at h
      obtain ⟨rfl, -⟩ := List.cons.inj h
      exact ⟨rfl, hs⟩
  · rintro ⟨rfl, hs⟩
    exact List.splitOn_eq_singleton hs

/-- `splitn` finds `n + 1` fields and a rest exactly when the text is a payload with these fields, a
separator and the rest. -/
theorem splitn_eq_iff {n : Nat} {s last : Text} {fs : List Text} (hlen : fs.length = n + 1) :
    splitn sep (n + 2) s = fs ++ [last] ↔
    ∃ payload : Text, payload.splitOn sep = fs ∧ s = payload ++ sep :: last := by
  induction n generalizing s fs with
  | zero =>
    obtain ⟨f, rfl⟩ := List.length_eq_one_iff.1 hlen
    by_cases hs : sep ∈ s
    · obtain ⟨f', rest, rfl, hf'⟩ := List.eq_append_cons_of_mem hs
      rw [splitn_append hf', splitn]
      constructor
      · intro h
        obtain ⟨rfl, hlast⟩ := List.cons.inj h
        obtain ⟨rfl, -⟩ := List.cons.inj hlast
        exact ⟨f', List.splitOn_eq_singleton hf', rfl⟩
      · rintro ⟨payload, hsplit, heq⟩
        obtain ⟨rfl, hpayload⟩ := splitOn_eq_singleton_iff.1 hsplit
        obtain ⟨rfl, rfl⟩ := append_cons_inj_of_not_mem_left hf' hpayload heq
        rfl
    · rw [splitn_of_not_mem hs]
      constructor
      · intro h
        exact absurd (congrArg List.length h) (by simp)
      · rintro ⟨payload, -, rfl⟩
        exact absurd (List.mem_append_right _ List.mem_cons_self) hs
  | succ n ih =>
    obtain ⟨f, fs, rfl⟩ := List.exists_cons_of_length_eq_add_one hlen
    have hlen' : fs.length = n + 1 := Nat.succ.inj hlen
    have hfs : fs ≠ [] := List.ne_nil_of_length_eq_add_one hlen'
    by_cases hs : sep ∈ s
    · obtain ⟨f', rest, rfl, hf'⟩ := List.eq_append_cons_of_mem hs
      rw [splitn_append hf', List.cons_append]
      constructor
      · intro h
        obtain ⟨rfl, hrest⟩ := List.cons.inj h
        obtain ⟨payload, hsplit, rfl⟩ := (ih hlen').1 hrest
        exact ⟨f' ++ sep :: payload, (splitOn_eq_cons_iff hfs).2 ⟨payload, rfl, hf', hsplit⟩,
          by simp⟩
      · rintro ⟨payload, hsplit, heq⟩
        obtain ⟨rest', rfl, hf, hrest'⟩ := (splitOn_eq_cons_iff hfs).1 hsplit
        rw [List.append_assoc, List.cons_append] at heq
        obtain ⟨rfl, hrest⟩ := append_cons_inj_of_not_mem_left hf' hf heq
        rw [(ih hlen').2 ⟨rest', hrest', hrest⟩]
    · rw [splitn_of_not_mem hs]
      constructor
      · intro h
        have hcount := congrArg List.length h
        simp only [List.length_cons, List.length_append, List.length_nil] at hcount
        omega
      · rintro ⟨payload, -, rfl⟩
        exact absurd (List.mem_append_right _ List.mem_cons_self) hs

/-! ## Hexadecimal text of bytes -/

def hexEncode (bs : List UInt8) : Text :=
  bs.flatMap fun b => [Nat.digitChar (b.toNat / 16), Nat.digitChar (b.toNat % 16)]

example : hexEncode [0x0F, 0xA0] = "0fa0".toList := by decide

theorem hexEncode_injective : Function.Injective hexEncode := by
  intro bs cs h
  induction bs generalizing cs with
  | nil =>
    cases cs with
    | nil => rfl
    | cons c cs => cases h
  | cons b bs ih =>
    cases cs with
    | nil => cases h
    | cons c cs =>
      obtain ⟨hhigh, h⟩ := List.cons.inj h
      obtain ⟨hlow, h⟩ := List.cons.inj h
      have hb := b.toNat_lt
      have hc := c.toNat_lt
      have hhigh := digitChar_inj (by omega) (by omega) hhigh
      have hlow := digitChar_inj (by omega) (by omega) hlow
      have hbc : b = c := UInt8.toNat_inj.1 (by omega)
      rw [hbc, ih h]

/-- Hexadecimal text holds only letters and digits. -/
theorem isAlphanum_of_mem_hexEncode {bs : List UInt8} {c : Char} (h : c ∈ hexEncode bs) :
    c.isAlphanum := by
  obtain ⟨b, -, hc⟩ := List.mem_flatMap.1 h
  have hall : ∀ d : Fin 16, (Nat.digitChar d).isAlphanum := by decide
  have hb := b.toNat_lt
  rcases List.mem_cons.1 hc with rfl | hc
  · exact hall ⟨b.toNat / 16, by omega⟩
  · rw [List.mem_singleton.1 hc]
    exact hall ⟨b.toNat % 16, by omega⟩

/-! ## Sealed payloads -/

variable {mac : Text → List UInt8}

/-- A payload followed by its MAC. -/
def sealed (sep : Char) (mac : Text → List UInt8) (payload : Text) : Text :=
  payload ++ sep :: hexEncode (mac payload)

/-- `splitn` finds fields and their MAC exactly when the text is a sealed payload with these
fields. -/
theorem splitn_sealed_iff {n : Nat} {s : Text} {fs : List Text} (hlen : fs.length = n + 1) :
    splitn sep (n + 2) s = fs ++ [hexEncode (mac ([sep].intercalate fs))] ↔
      ∃ payload : Text, payload.splitOn sep = fs ∧ s = sealed sep mac payload := by
  rw [splitn_eq_iff hlen]
  refine exists_congr fun payload => and_congr_right fun hsplit => ?_
  have hpayload : [sep].intercalate fs = payload := by rw [← hsplit, List.intercalate_splitOn]
  rw [hpayload, sealed]

/-- Two sealed payloads behind two prefixes are one text only when the payloads have one MAC. -/
theorem append_sealed_inj (hsep : sep.isAlphanum = false) {p q payload payload' : Text}
    (h : p ++ sealed sep mac payload = q ++ sealed sep mac payload') :
    p ++ payload = q ++ payload' ∧ mac payload = mac payload' := by
  have hfree : ∀ bs, sep ∉ hexEncode bs := fun bs hmem =>
    Bool.false_ne_true (hsep.symm.trans (isAlphanum_of_mem_hexEncode hmem))
  rw [sealed, sealed, ← List.append_assoc, ← List.append_assoc] at h
  obtain ⟨hpayload, hmac⟩ := append_cons_inj_of_not_mem_right (hfree _) (hfree _) h
  exact ⟨hpayload, hexEncode_injective hmac⟩

end Text

end Foundations
