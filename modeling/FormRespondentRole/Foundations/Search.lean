import FormRespondentRole.Foundations.Text

/-!
# Searching and replacing in texts

A pattern is a list of tests, one for each character of a match.  A character that no test accepts
separates: no match crosses it, so searching and replacing on either side of it are
independent. -/

namespace Foundations

abbrev Pattern := List (Char → Bool)

namespace Pattern

/-- The pattern that one text matches. -/
def literal (s : Text) : Pattern := s.map fun c d => decide (d = c)

/-- The pattern of a text in lower case, in upper or lower case. -/
def anyCase (s : Text) : Pattern := s.map fun c d => decide (d.toLower = c)

/-- A match stands at the beginning of the text. -/
def matchesHead : Pattern → Text → Bool
  | [], _ => true
  | _ :: _, [] => false
  | t :: p, c :: s => t c && matchesHead p s

/-- A match stands somewhere in the text. -/
def occurs (p : Pattern) : Text → Bool
  | [] => p.matchesHead []
  | c :: s => p.matchesHead (c :: s) || occurs p s

/-- The text before the first match. -/
def before (p : Pattern) : Text → Option Text
  | [] => if p.matchesHead [] then some [] else none
  | c :: s => if p.matchesHead (c :: s) then some [] else (before p s).map (c :: ·)

/-- The text after the first match. -/
def after (p : Pattern) : Text → Option Text
  | [] => if p.matchesHead [] then some [] else none
  | c :: s => if p.matchesHead (c :: s) then some ((c :: s).drop p.length) else after p s

/-- No test of the pattern accepts the character. -/
def Separates (p : Pattern) (c : Char) : Prop := ∀ t ∈ p, t c = false

instance (p : Pattern) (c : Char) : Decidable (p.Separates c) :=
  inferInstanceAs (Decidable (∀ t ∈ p, t c = false))

variable {p : Pattern} {a b s : Text} {c : Char}

theorem occurs_cons (p : Pattern) (c : Char) (s : Text) :
    p.occurs (c :: s) = (p.matchesHead (c :: s) || p.occurs s) := rfl

theorem separates_literal {pat : Text} (h : c ∉ pat) : (literal pat).Separates c := by
  intro t ht
  obtain ⟨d, hd, rfl⟩ := List.mem_map.1 ht
  exact decide_eq_false (ne_of_mem_of_not_mem hd h).symm

theorem matchesHead_literal_self (pat s : Text) : (literal pat).matchesHead (pat ++ s) = true := by
  induction pat with
  | nil => rfl
  | cons c pat ih =>
    rw [literal, List.map_cons, List.cons_append, matchesHead, decide_eq_true rfl, Bool.true_and]
    exact ih

theorem eq_of_matchesHead {pat s : Text} (h : (literal pat).matchesHead s = true) :
    s = pat ++ s.drop pat.length := by
  induction pat generalizing s with
  | nil => rfl
  | cons c pat ih =>
    cases s with
    | nil => cases h
    | cons d s =>
      rw [literal, List.map_cons, matchesHead, Bool.and_eq_true, decide_eq_true_eq] at h
      rw [h.1, List.cons_append, List.length_cons, List.drop_succ_cons]
      exact congrArg (c :: ·) (ih h.2)

theorem prefix_of_matchesHead {pat s : Text} (h : (literal pat).matchesHead s = true) : pat <+: s :=
  ⟨_, (eq_of_matchesHead h).symm⟩

theorem matchesHead_nil (hp : p ≠ []) : p.matchesHead [] = false := by
  cases p with
  | nil => exact absurd rfl hp
  | cons t p => rfl

theorem matchesHead_append_sep (hc : p.Separates c) (a b : Text) :
    p.matchesHead (a ++ c :: b) = p.matchesHead a := by
  induction p generalizing a with
  | nil => rw [matchesHead, matchesHead]
  | cons t p ih =>
    cases a with
    | nil =>
      have hreject : matchesHead (t :: p) (c :: b) = false := by
        rw [matchesHead, hc t List.mem_cons_self, Bool.false_and]
      exact hreject
    | cons d a =>
      have htail := ih (fun t ht => hc t (List.mem_cons_of_mem _ ht)) a
      rw [List.cons_append, matchesHead, matchesHead, htail]

/-- No match crosses a separating character. -/
theorem occurs_append_sep (hc : p.Separates c) (a b : Text) :
    p.occurs (a ++ c :: b) = (p.occurs a || p.occurs b) := by
  induction a with
  | nil =>
    have hhead := matchesHead_append_sep hc [] b
    rw [List.nil_append] at hhead ⊢
    rw [occurs_cons, hhead, occurs]
  | cons d a ih =>
    have hhead := matchesHead_append_sep hc (d :: a) b
    rw [List.cons_append] at hhead ⊢
    rw [occurs_cons, hhead, ih, occurs_cons, Bool.or_assoc]

/-- No match begins at a character that the first test rejects. -/
theorem occurs_append_of_head {t : Char → Bool} (ha : ∀ c ∈ a, t c = false) (b : Text) :
    occurs (t :: p) (a ++ b) = occurs (t :: p) b := by
  induction a with
  | nil => rfl
  | cons d a ih =>
    have htail := ih fun c hc => ha c (List.mem_cons_of_mem _ hc)
    rw [List.cons_append, occurs, matchesHead, ha d List.mem_cons_self, Bool.false_and,
      Bool.false_or, htail]

theorem matchesHead_append_tail {t : Char → Bool} (hc : p.Separates c) (d : Char) (a b : Text) :
    matchesHead (t :: p) (d :: a ++ c :: b) = matchesHead (t :: p) (d :: a) := by
  rw [List.cons_append, matchesHead, matchesHead, matchesHead_append_sep hc]

/-- A match that begins at a character which no later test accepts is the first one, if none is
before it. -/
theorem before_append_match {t : Char → Bool} (hc : p.Separates c) (ha : occurs (t :: p) a = false)
    {b : Text} (hb : matchesHead (t :: p) (c :: b) = true) :
    before (t :: p) (a ++ c :: b) = some a := by
  induction a with
  | nil => exact if_pos hb
  | cons d a ih =>
    rw [occurs, Bool.or_eq_false_iff] at ha
    rw [List.cons_append, before, ← List.cons_append, matchesHead_append_tail hc, ha.1,
      if_neg Bool.false_ne_true, ih ha.2,
      Option.map_some]

/-- A match before such a character ends before it. -/
theorem before_append_of_occurs {t : Char → Bool} (hc : p.Separates c)
    (ha : occurs (t :: p) a = true) (b : Text) :
    ∃ s r, before (t :: p) (a ++ c :: b) = some s ∧ a = s ++ r ∧ matchesHead (t :: p) r = true := by
  induction a with
  | nil => cases ha
  | cons d a ih =>
    by_cases hd : matchesHead (t :: p) (d :: a) = true
    · refine ⟨[], d :: a, ?_, rfl, hd⟩
      rw [List.cons_append, before, ← List.cons_append, matchesHead_append_tail hc, if_pos hd]
    · rw [occurs, Bool.eq_false_iff.2 hd, Bool.false_or] at ha
      obtain ⟨s, r, hs, rfl, hr⟩ := ih ha
      refine ⟨d :: s, r, ?_, rfl, hr⟩
      rw [List.cons_append, before, ← List.cons_append, matchesHead_append_tail hc, if_neg hd, hs,
        Option.map_some]

theorem after_of_matchesHead (hs : p.matchesHead s = true) :
    p.after s = some (s.drop p.length) := by
  cases s with
  | nil => rw [after, if_pos hs, List.drop_nil]
  | cons c s => rw [after, if_pos hs]

theorem after_cons (h : p.matchesHead (c :: s) = false) : p.after (c :: s) = p.after s := by
  rw [after, h, if_neg Bool.false_ne_true]

/-- A match that begins at a character which no later test accepts, with none before it, has the
rest after it. -/
theorem after_append_match {t : Char → Bool} (hc : p.Separates c) (ha : occurs (t :: p) a = false)
    {b : Text} (hb : matchesHead (t :: p) (c :: b) = true) :
    after (t :: p) (a ++ c :: b) = some (b.drop p.length) := by
  induction a with
  | nil => exact (after_of_matchesHead hb).trans rfl
  | cons d a ih =>
    rw [occurs, Bool.or_eq_false_iff] at ha
    rw [← ih ha.2, List.cons_append, after_cons]
    rw [← List.cons_append, matchesHead_append_tail hc, ha.1]

end Pattern

namespace Text

open Pattern

/-- The replacement from where `skip` more characters belong to the last match. -/
def replaceFrom (pat rep : Text) : Nat → Text → Text
  | _, [] => []
  | skip + 1, _ :: s => replaceFrom pat rep skip s
  | 0, c :: s =>
    if (literal pat).matchesHead (c :: s) then rep ++ replaceFrom pat rep (pat.length - 1) s
    else c :: replaceFrom pat rep 0 s

/-- `str::replace`: the matches from left to right, none overlapping the one before, give way to
`rep`. -/
def replace (pat rep s : Text) : Text := replaceFrom pat rep 0 s

example : replace "aa".toList "b".toList "aaa.a".toList = "ba.a".toList := by decide

/-- The text with `none` for the matches that a replacement replaces, from where `skip` more
characters belong to the last one. -/
def scanFrom (pat : Text) : Nat → Text → List (Option Char)
  | _, [] => []
  | skip + 1, _ :: s => scanFrom pat skip s
  | 0, c :: s =>
    if (literal pat).matchesHead (c :: s) then none :: scanFrom pat (pat.length - 1) s
      else some c :: scanFrom pat 0 s

/-- How many matches `replace` replaces. -/
def matchCount (pat s : Text) : Nat := (scanFrom pat 0 s).count none

variable {pat rep a b s : Text} {c : Char}

theorem replace_of_not_occurs (h : (literal pat).occurs s = false) : replace pat rep s = s := by
  induction s with
  | nil => rfl
  | cons c s ih =>
    rw [occurs, Bool.or_eq_false_iff] at h
    rw [replace, replaceFrom, h.1, if_neg Bool.false_ne_true]
    exact congrArg (c :: ·) (ih h.2)

private theorem matchesHead_length {p : Pattern} (h : p.matchesHead s = true) :
    p.length ≤ s.length := by
  induction p generalizing s with
  | nil => exact Nat.zero_le _
  | cons t p ih =>
    cases s with
    | nil => cases h
    | cons c s =>
      rw [matchesHead, Bool.and_eq_true] at h
      exact Nat.succ_le_succ (ih h.2)

private theorem scanFrom_append_sep (hpat : pat ≠ []) (hc : c ∉ pat) {skip : Nat}
    (hskip : skip ≤ a.length) (b : Text) :
    scanFrom pat skip (a ++ c :: b) = scanFrom pat skip a ++ some c :: scanFrom pat 0 b := by
  have hlit : literal pat ≠ [] := by
    intro h
    exact hpat (List.map_eq_nil_iff.1 h)
  induction a generalizing skip with
  | nil =>
    obtain rfl : skip = 0 := by simpa using hskip
    have hhead := matchesHead_append_sep (separates_literal hc) [] b
    rw [List.nil_append, matchesHead_nil hlit] at hhead
    have hkeep : scanFrom pat 0 (c :: b) = some c :: scanFrom pat 0 b := by
      rw [scanFrom, hhead, if_neg Bool.false_ne_true]
    exact hkeep
  | cons d a ih =>
    cases skip with
    | succ skip =>
      have hle : skip ≤ a.length := by simpa using hskip
      rw [List.cons_append, scanFrom, scanFrom, ih hle]
    | zero =>
      have hhead := matchesHead_append_sep (separates_literal hc) (d :: a) b
      rw [List.cons_append] at hhead ⊢
      rw [scanFrom, scanFrom, hhead]
      by_cases hmatch : (literal pat).matchesHead (d :: a) = true
      · have hlen := matchesHead_length hmatch
        rw [literal, List.length_map, List.length_cons] at hlen
        have hle : pat.length - 1 ≤ a.length := by omega
        rw [if_pos hmatch, if_pos hmatch, ih hle, List.cons_append]
      · rw [if_neg hmatch, if_neg hmatch, ih (Nat.zero_le _), List.cons_append]

private theorem replaceFrom_eq_flatMap (pat rep : Text) (skip : Nat) (s : Text) :
    replaceFrom pat rep skip s = (scanFrom pat skip s).flatMap fun o => o.elim rep fun c =>
      [c] := by
  induction s generalizing skip with
  | nil => rfl
  | cons c s ih =>
    cases skip with
    | succ skip => rw [replaceFrom, scanFrom, ih]
    | zero =>
      rw [replaceFrom, scanFrom]
      split
      · rw [List.flatMap_cons, ih]
        rfl
      · rw [List.flatMap_cons, ih]
        rfl

/-- Replacing on either side of a separating character is independent. -/
theorem replace_append_sep (hpat : pat ≠ []) (hc : c ∉ pat) (a b : Text) :
    replace pat rep (a ++ c :: b) = replace pat rep a ++ c :: replace pat rep b := by
  rw [replace, replace, replace, replaceFrom_eq_flatMap, replaceFrom_eq_flatMap,
    replaceFrom_eq_flatMap,
    scanFrom_append_sep hpat hc (Nat.zero_le _), List.flatMap_append, List.flatMap_cons]
  rfl

theorem matchCount_append_sep (hpat : pat ≠ []) (hc : c ∉ pat) (a b : Text) :
    matchCount pat (a ++ c :: b) = matchCount pat a + matchCount pat b := by
  rw [matchCount, scanFrom_append_sep hpat hc (Nat.zero_le _), List.count_append,
    List.count_cons_of_ne (Option.some_ne_none c)]
  rfl

theorem matchCount_eq_zero_iff (hpat : pat ≠ []) : matchCount pat s = 0 ↔
    (literal pat).occurs s = false := by
  have hlit : literal pat ≠ [] := fun h => hpat (List.map_eq_nil_iff.1 h)
  induction s with
  | nil => exact iff_of_true rfl (matchesHead_nil hlit)
  | cons c s ih =>
    rw [matchCount, scanFrom, occurs, Bool.or_eq_false_iff]
    cases h : (literal pat).matchesHead (c :: s) with
    | true => simp
    | false =>
      rw [if_neg Bool.false_ne_true, List.count_cons_of_ne (Option.some_ne_none c)]
      exact ih.trans (and_iff_right rfl).symm

/-- A match of the whole text. -/
theorem matchCount_self (hpat : pat ≠ []) : matchCount pat pat = 1 := by
  have hmatch := matchesHead_literal_self pat []
  obtain ⟨c, pat', rfl⟩ := List.exists_cons_of_ne_nil hpat
  have hskip : ∀ s : Text, scanFrom (c :: pat') s.length s = [] := fun s => by
    induction s with
    | nil => rfl
    | cons d s ih => exact ih
  rw [List.append_nil] at hmatch
  rw [matchCount, scanFrom, if_pos hmatch, List.length_cons, Nat.add_sub_cancel, hskip]
  rfl

theorem replaceFrom_length (pat rep a s : Text) :
    replaceFrom pat rep a.length (a ++ s) = replace pat rep s := by
  induction a with
  | nil => rfl
  | cons c a ih => rw [List.length_cons, List.cons_append, replaceFrom, ih]

/-- A match at the beginning is replaced. -/
theorem replace_match (hpat : pat ≠ []) (rep s : Text) :
    replace pat rep (pat ++ s) = rep ++ replace pat rep s := by
  have hmatch := matchesHead_literal_self pat s
  obtain ⟨c, pat', rfl⟩ := List.exists_cons_of_ne_nil hpat
  rw [List.cons_append] at hmatch ⊢
  rw [replace, replaceFrom, if_pos hmatch, List.length_cons, Nat.add_sub_cancel, replaceFrom_length]

/-- A character is replaced wherever it stands. -/
theorem replace_singleton (c : Char) (rep s : Text) :
    replace [c] rep s = s.flatMap fun d => if d = c then rep else [d] := by
  induction s with
  | nil => rfl
  | cons d s ih =>
    have hhead : (literal [c]).matchesHead (d :: s) = decide (d = c) := Bool.and_true _
    rw [replace, replaceFrom, hhead, List.flatMap_cons, ← ih]
    by_cases hd : d = c
    · rw [decide_eq_true hd, if_pos rfl, if_pos hd, List.length_singleton, Nat.sub_self, replace]
    · rw [decide_eq_false hd, if_neg Bool.false_ne_true, if_neg hd, List.singleton_append, replace]

/-- A character that is neither replaced nor inserted stays as often as it is. -/
private theorem count_replaceFrom (hpat : pat ≠ []) (hc : c ∉ pat) (hrep : c ∉ rep) (skip : Nat)
    (s : Text) :
    (replaceFrom pat rep skip s).count c = (s.drop skip).count c := by
  induction s generalizing skip with
  | nil => rw [replaceFrom, List.drop_nil]
  | cons d s ih =>
    cases skip with
    | succ skip =>
      rw [replaceFrom, ih, List.drop_succ_cons]
    | zero =>
      rw [replaceFrom]
      split
      · rename_i hmatch
        have hsplit := eq_of_matchesHead hmatch
        obtain ⟨d', pat', rfl⟩ := List.exists_cons_of_ne_nil hpat
        rw [List.length_cons, List.drop_succ_cons] at hsplit
        rw [List.drop_zero, hsplit, List.count_append, List.count_append, ih, List.length_cons,
          Nat.add_sub_cancel,
          List.count_eq_zero.2 hc, List.count_eq_zero.2 hrep]
      · rw [List.count_cons, ih, List.drop_zero, List.drop_zero, List.count_cons]

/-- A rewriting of texts that begins at `start` only, and acts on its own on either side of the
characters of `seps`, which it neither takes away nor inserts. -/
structure Rewrites (start : Char) (seps : List Char) (f : Text → Text) : Prop where
  nil : f [] = []
  cons : ∀ c s, c ≠ start → f (c :: s) = c :: f s
  append_sep : ∀ a c b, c ∈ seps → f (a ++ c :: b) = f a ++ c :: f b
  count : ∀ c s, c ∈ seps → (f s).count c = s.count c

namespace Rewrites

variable {start : Char} {seps : List Char} {f g : Text → Text}

theorem replace {pat : Text} (hsep : ∀ c ∈ seps, c ∉ start :: pat ∧ c ∉ rep) :
    Rewrites start seps (Text.replace (start :: pat) rep) where
  nil := rfl
  cons c s hc := by
    rw [Text.replace, replaceFrom, literal, List.map_cons, matchesHead, decide_eq_false hc,
      Bool.false_and,
      if_neg Bool.false_ne_true, Text.replace]
  append_sep a c b hc := replace_append_sep (List.cons_ne_nil _ _) (hsep c hc).1 a b
  count c s hc := count_replaceFrom (List.cons_ne_nil _ _) (hsep c hc).1 (hsep c hc).2 0 s

theorem comp (hf : Rewrites start seps f) (hg : Rewrites start seps g) :
    Rewrites start seps (fun s => g (f s)) where
  nil := by rw [hf.nil, hg.nil]
  cons c s hc := by rw [hf.cons c s hc, hg.cons c _ hc]
  append_sep a c b hc := by rw [hf.append_sep a c b hc, hg.append_sep _ c _ hc]
  count c s hc := by rw [hg.count c _ hc, hf.count c s hc]

theorem skip (hf : Rewrites start seps f) (ha : start ∉ a) (s : Text) : f (a ++ s) = a ++ f s := by
  induction a with
  | nil => rfl
  | cons c a ih =>
    rw [List.mem_cons, not_or] at ha
    obtain ⟨hc, ha⟩ := ha
    rw [List.cons_append, hf.cons c _ (Ne.symm hc), ih ha, List.cons_append]

end Rewrites

end Text

end Foundations
