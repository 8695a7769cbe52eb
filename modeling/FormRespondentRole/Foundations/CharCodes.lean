import FormRespondentRole.Foundations.Search

/-!
# Codes for characters

A table gives some characters codes, which are written for them.  One replacement after the other
writes the same as all of them at once, when no replacement meets a code that an earlier one has
written (`Ordered.replaceEach_eq_encode`).  The text can be read back when all codes begin with one
mark, which has a code itself, and none begins another (`Marked.restore_encode`).
-/

namespace Foundations

abbrev CodeTable := List (Char × Text)

namespace CodeTable

def codeOf (table : CodeTable) (c : Char) : Text := (table.lookup c).getD [c]

/-- All characters at once. -/
def encode (table : CodeTable) (s : Text) : Text := s.flatMap table.codeOf

/-- One entry after the other, each on the whole text. -/
def replaceEach : CodeTable → Text → Text
  | [], s => s
  | (c, code) :: table, s => replaceEach table (Text.replace [c] code s)

/-- Reading back from where `skip` more characters belong to the last code. -/
def restoreFrom (table : CodeTable) : Nat → Text → Text
  | _, [] => []
  | skip + 1, _ :: s => restoreFrom table skip s
  | 0, c :: s =>
    match table.find? fun e => (Pattern.literal e.2).matchesHead (c :: s) with
    | some e => e.1 :: restoreFrom table (e.2.length - 1) s
    | none => c :: restoreFrom table 0 s

/-- The codes from left to right give way to their characters. -/
def restore (table : CodeTable) (s : Text) : Text := restoreFrom table 0 s

/-- The characters of later entries are in no code of an earlier one. -/
def Ordered (table : CodeTable) : Prop := table.Pairwise fun e e' => e'.1 ≠ e.1 ∧ e'.1 ∉ e.2

/-- Codes begin with the mark and have no other, the mark has a code, and codes and characters are
apart. -/
structure Marked (table : CodeTable) (mark : Char) : Prop where
  starts : ∀ e ∈ table, e.2.head? = some mark ∧ mark ∉ e.2.tail
  mark_mem : mark ∈ table.map Prod.fst
  nodup : (table.map Prod.fst).Nodup
  apart : ∀ e ∈ table, ∀ e' ∈ table, e.2 <+: e'.2 → e = e'

instance (table : CodeTable) : Decidable table.Ordered :=
  inferInstanceAs (Decidable (List.Pairwise _ _))

variable {table : CodeTable} {mark c : Char} {s : Text}

/-! ### Writing -/

theorem codeOf_of_notMem (hc : c ∉ table.map Prod.fst) : table.codeOf c = [c] := by
  have hnone : table.lookup c = none := List.lookup_eq_none_iff.2 fun e he => by
    rw [bne_iff_ne]
    rintro rfl
    exact hc (List.mem_map_of_mem he)
  rw [codeOf, hnone, Option.getD_none]

/-- What has a code has that of an entry. -/
theorem exists_codeOf (hc : c ∈ table.map Prod.fst) :
    ∃ e ∈ table, e.1 = c ∧ table.codeOf c = e.2 := by
  obtain ⟨e, he, rfl⟩ := List.mem_map.1 hc
  cases hlookup : table.lookup e.1 with
  | none =>
    have hother := List.lookup_eq_none_iff.1 hlookup e he
    exact absurd rfl (bne_iff_ne.1 hother)
  | some code =>
    obtain ⟨l₁, l₂, rfl, -⟩ := List.lookup_eq_some_iff.1 hlookup
    refine ⟨(e.1, code), List.mem_append_right _ List.mem_cons_self, rfl, ?_⟩
    rw [codeOf, hlookup, Option.getD_some]

theorem encode_of_notMem (hs : ∀ c ∈ s, c ∉ table.map Prod.fst) : table.encode s = s := by
  induction s with
  | nil => rfl
  | cons c s ih =>
    rw [encode, List.flatMap_cons, codeOf_of_notMem (hs c List.mem_cons_self)]
    exact congrArg (c :: ·) (ih fun d hd => hs d (List.mem_cons_of_mem _ hd))

/-- Replacements one after the other are one substitution. -/
theorem Ordered.replaceEach_eq_encode (h : table.Ordered) (s : Text) :
    table.replaceEach s = table.encode s := by
  induction table generalizing s with
  | nil => exact (List.flatMap_singleton' s).symm
  | cons e table ih =>
    obtain ⟨c, code⟩ := e
    obtain ⟨hlater, htable⟩ := List.pairwise_cons.1 h
    rw [replaceEach, ih htable, Text.replace_singleton, encode, List.flatMap_assoc, encode]
    refine List.flatMap_congr fun d _ => ?_
    by_cases hd : d = c
    · subst hd
      have hcode : CodeTable.encode table code = code := by
        refine encode_of_notMem fun c' hc' hmem => ?_
        obtain ⟨e', he', rfl⟩ := List.mem_map.1 hmem
        exact (hlater e' he').2 hc'
      rw [if_pos rfl, codeOf, List.lookup_cons_self, Option.getD_some]
      exact hcode
    · rw [if_neg hd, List.flatMap_singleton, codeOf, codeOf, List.lookup_cons, beq_false_of_ne hd]

/-- A character is written away when it has a code and is in none. -/
theorem notMem_encode (hc : c ∈ table.map Prod.fst) (hcodes : ∀ e ∈ table, c ∉ e.2) (s : Text) :
    c ∉ table.encode s := by
  intro hmem
  obtain ⟨d, -, hd⟩ := List.mem_flatMap.1 hmem
  by_cases hkey : d ∈ table.map Prod.fst
  · obtain ⟨e, he, -, hcode⟩ := exists_codeOf hkey
    exact hcodes e he (hcode ▸ hd)
  · rw [codeOf_of_notMem hkey] at hd
    obtain rfl := List.mem_singleton.1 hd
    exact hkey hc

/-! ### Reading back -/

theorem restoreFrom_length (a s : Text) :
    table.restoreFrom a.length (a ++ s) = table.restore s := by
  induction a with
  | nil => rfl
  | cons c a ih => rw [List.length_cons, List.cons_append, restoreFrom, ih]

namespace Marked

theorem code_eq (h : table.Marked mark) {e : Char × Text} (he : e ∈ table) :
    e.2 = mark :: e.2.tail :=
  List.eq_cons_of_mem_head? (h.starts e he).1

/-- A code is found where it is written, whatever follows. -/
theorem find?_code (h : table.Marked mark) {e : Char × Text} (he : e ∈ table) (s : Text) :
    (table.find? fun e' => (Pattern.literal e'.2).matchesHead (e.2 ++ s)) = some e := by
  have hself : (Pattern.literal e.2).matchesHead (e.2 ++ s) = true :=
    Pattern.matchesHead_literal_self e.2 s
  have hsome : (table.find? fun e' => (Pattern.literal e'.2).matchesHead (e.2 ++ s)).isSome := by
    rw [List.find?_isSome]
    exact ⟨e, he, hself⟩
  obtain ⟨e', hfound⟩ := Option.isSome_iff_exists.1 hsome
  have he' := List.mem_of_find?_eq_some hfound
  have hmatch := List.find?_some hfound
  have hprefix : e'.2 <+: e.2 ++ s := Pattern.prefix_of_matchesHead hmatch
  rw [hfound]
  rcases List.prefix_or_prefix_of_prefix hprefix (List.prefix_append e.2 s) with hle | hle
  · rw [h.apart e' he' e he hle]
  · rw [h.apart e he e' he' hle]

/-- No code begins with another character than the mark. -/
theorem find?_plain (h : table.Marked mark) (hc : c ≠ mark) (s : Text) :
    (table.find? fun e => (Pattern.literal e.2).matchesHead (c :: s)) = none := by
  refine List.find?_eq_none.2 fun e he hmatch => hc ?_
  obtain ⟨t, ht⟩ := Pattern.prefix_of_matchesHead hmatch
  rw [h.code_eq he] at ht
  exact (List.cons.inj ht).1.symm

/-- What is written can be read back. -/
theorem restore_encode (h : table.Marked mark) (s : Text) : table.restore (table.encode s) = s := by
  induction s with
  | nil => rfl
  | cons c s ih =>
    rw [encode, List.flatMap_cons]
    change table.restore (table.codeOf c ++ table.encode s) = c :: s
    by_cases hc : c ∈ table.map Prod.fst
    · obtain ⟨e, he, rfl, hcode⟩ := exists_codeOf hc
      have hfind := h.find?_code he (table.encode s)
      have hlen : e.2.length - 1 = e.2.tail.length := List.length_tail.symm
      rw [hcode, restore]
      rw [h.code_eq he, List.cons_append] at hfind ⊢
      rw [restoreFrom, hfind]
      dsimp only
      rw [hlen, restoreFrom_length, ih]
    · have hmark : c ≠ mark := fun heq => hc (heq ▸ h.mark_mem)
      rw [codeOf_of_notMem hc, List.singleton_append, restore, restoreFrom, h.find?_plain hmark]
      exact congrArg (c :: ·) ih

/-- A mark in what is written begins a code. -/
theorem code_at_mark (h : table.Marked mark) {pre post : Text}
    (hs : table.encode s = pre ++ mark :: post) :
    ∃ e ∈ table, e.2 <+: mark :: post := by
  induction s generalizing pre with
  | nil => simp [encode] at hs
  | cons c s ih =>
    rw [encode, List.flatMap_cons] at hs
    change table.codeOf c ++ table.encode s = pre ++ mark :: post at hs
    rcases List.append_eq_append_iff.1 hs with ⟨pre', rfl, hrest⟩ | ⟨rest, hcode, hpost⟩
    · exact ih hrest
    · cases rest with
      | nil => exact @ih [] hpost.symm
      | cons d rest =>
        -- the mark is in the code of the character, so it is its first one
        obtain ⟨rfl, rfl⟩ := List.cons.inj hpost
        by_cases hc : c ∈ table.map Prod.fst
        · obtain ⟨e, he, -, hcodeOf⟩ := exists_codeOf hc
          rw [hcodeOf] at hcode
          cases pre with
          | nil => exact ⟨e, he, by rw [hcode]; exact List.prefix_append _ _⟩
          | cons d' pre =>
            have htail : e.2.tail = pre ++ mark :: rest := by rw [hcode]; rfl
            exact absurd (htail ▸ List.mem_append_right pre List.mem_cons_self) (h.starts e he).2
        · rw [codeOf_of_notMem hc] at hcode
          have hmem : mark ∈ [c] := hcode ▸ List.mem_append_right pre List.mem_cons_self
          obtain rfl := List.mem_singleton.1 hmem
          exact absurd h.mark_mem hc

end Marked

end CodeTable

end Foundations
