import FormRespondentRole.Foundations.JsonRoundTrip

/-!
# The strings of a JSON text

The text of a value is made of its string literals, those of the keys among them, and of structure
between them.  So a pattern that begins with a character outside the structure occurs in the text
just when it occurs in a literal (`occurs_text_iff`), and a rewriting that begins at such a
character leaves the text alone just when it leaves every literal alone
(`Rewrites.text_iff`). -/

namespace Foundations

open Text

namespace Value

mutual

/-- The strings of a value, the keys of objects among them. -/
def strings : Value → List Text
  | .string s => [s]
  | .array xs => elementStrings xs
  | .object fields => memberStrings fields
  | _ => []

def elementStrings : List Value → List Text
  | [] => []
  | x :: xs => x.strings ++ elementStrings xs

def memberStrings : List (Text × Value) → List Text
  | [] => []
  | (k, x) :: fields => k :: (x.strings ++ memberStrings fields)

end

theorem mem_elementStrings {s : Text} {xs : List Value} :
    s ∈ elementStrings xs ↔ ∃ x ∈ xs, s ∈ x.strings := by
  induction xs with
  | nil => simp [elementStrings]
  | cons x xs ih => simp [elementStrings, ih]

theorem mem_memberStrings {s : Text} {fields : List (Text × Value)} :
    s ∈ memberStrings fields ↔ s ∈ fields.map Prod.fst ∨ ∃ e ∈ fields, s ∈ e.2.strings := by
  induction fields with
  | nil => simp [memberStrings]
  | cons e fields ih =>
    obtain ⟨k, x⟩ := e
    simp only [memberStrings, List.mem_cons, List.mem_append, ih, List.map_cons, exists_eq_or_imp]
    rw [or_assoc, or_left_comm (a := s ∈ x.strings)]

/-- The characters outside string literals. -/
def isStructural (c : Char) : Bool :=
  isNumberChar c || c ∈ ['[', ']', '{', '}', ',', ':', 'n', 'u', 'l', 't', 'r', 'e', 'f', 'a', 's']

/-- The pieces are these strings, and structure. -/
structure Spells (ps : List Piece) (ss : List Text) : Prop where
  quoted : ∀ s, .quoted s ∈ ps ↔ s ∈ ss
  raw : ∀ t, .raw t ∈ ps → ∀ c ∈ t, isStructural c = true

namespace Spells

variable {ps qs : List Piece} {ss rs : List Text}

theorem single {t : Text} (ht : t.all isStructural = true) : Spells [.raw t] [] :=
  ⟨fun s => by simp, fun u hu => by
    rw [List.mem_singleton, Piece.raw.injEq] at hu
    exact List.all_eq_true.1 (hu ▸ ht)⟩

theorem literal (s : Text) : Spells [.quoted s] [s] := ⟨fun r => by simp, fun t ht => by simp at ht⟩

theorem append (h : Spells ps ss) (h' : Spells qs rs) : Spells (ps ++ qs) (ss ++ rs) := by
  constructor
  · intro s
    rw [List.mem_append, List.mem_append, h.quoted, h'.quoted]
  · intro t ht
    rcases List.mem_append.1 ht with ht | ht
    · exact h.raw t ht
    · exact h'.raw t ht

end Spells

section

variable {floatText : F64 → Text}

mutual

theorem spells_pieces : ∀ v : Value, v.WellFormed floatText → Spells (v.pieces floatText) v.strings
  | .null, _ => Spells.single rfl
  | .bool true, _ | .bool false, _ => Spells.single rfl
  | .number n, hn => Spells.single (List.all_eq_true.2 fun c hc =>
    by rw [isStructural, isNumberChar_of_mem_text hn hc, Bool.true_or])
  | .string s, _ => Spells.literal s
  | .array [], _ => Spells.single rfl
  | .array (x :: xs), h =>
    (Spells.single (t := ['[']) rfl).append
      ((spells_pieces x h.1).append (spells_elementPieces xs h.2))
  | .object [], _ => Spells.single rfl
  | .object ((k, x) :: fields), h =>
    (Spells.single (t := ['{']) rfl).append
      ((Spells.literal k).append ((Spells.single (t := [':']) rfl).append
        ((spells_pieces x h.2.1).append (spells_memberPieces fields h.2.2))))

theorem spells_elementPieces : ∀ xs : List Value, AllWellFormed floatText xs →
    Spells (elementPieces floatText xs) (elementStrings xs)
  | [], _ => Spells.single rfl
  | x :: xs, h =>
    (Spells.single (t := [',']) rfl).append
      ((spells_pieces x h.1).append (spells_elementPieces xs h.2))

theorem spells_memberPieces : ∀ fields : List (Text × Value), MembersWellFormed floatText fields →
    Spells (memberPieces floatText fields) (memberStrings fields)
  | [], _ => Spells.single rfl
  | (k, x) :: fields, h =>
    (Spells.single (t := [',']) rfl).append
      ((Spells.literal k).append ((Spells.single (t := [':']) rfl).append
        ((spells_pieces x h.1).append (spells_memberPieces fields h.2))))

end

end

end Value

/-! ### Escapes -/

theorem escapeChar_eq_or (c : Char) : escapeChar c = [c] ∨ ∃ t, escapeChar c = '\\' :: t := by
  unfold escapeChar
  repeat' split
  all_goals first | exact Or.inr ⟨_, rfl⟩ | exact Or.inl rfl

theorem eq_of_escaped {c : Char} (h : escapeChar c ≠ [c]) : c = '"' ∨ c = '\\' ∨ c.toNat < 32 := by
  by_contra hnot
  simp only [not_or, not_lt] at hnot
  obtain ⟨hquote, hbackslash, hcontrol⟩ := hnot
  refine h ?_
  unfold escapeChar
  rw [if_neg hquote, if_neg hbackslash, if_neg (by omega), if_neg (by omega), if_neg (by omega),
    if_neg (by omega),
    if_neg (by omega), if_neg (by omega)]

namespace Pattern

variable {t : Char → Bool} {p : Pattern}

theorem matchesHead_escape (hsep : ∀ c, escapeChar c ≠ [c] → p.Separates c) (s : Text) :
    p.matchesHead (escape s) = p.matchesHead s := by
  induction p generalizing s with
  | nil => rw [matchesHead, matchesHead]
  | cons t p ih =>
    cases s with
    | nil => rfl
    | cons c s =>
      rw [escape, List.flatMap_cons]
      by_cases hc : escapeChar c = [c]
      · rw [hc, List.singleton_append, matchesHead, matchesHead]
        exact congrArg (t c && ·) (ih (fun d hd u hu => hsep d hd u (List.mem_cons_of_mem _ hu)) s)
      · obtain ⟨u, hu⟩ := (escapeChar_eq_or c).resolve_left hc
        have hbackslash : t '\\' = false := hsep '\\' (by decide) t List.mem_cons_self
        rw [hu, List.cons_append, matchesHead, matchesHead, hbackslash,
          hsep c hc t List.mem_cons_self, Bool.false_and,
          Bool.false_and]

/-- A pattern that no escape can match part of occurs in a string just when it occurs in its
literal. -/
theorem occurs_escape (hsep : ∀ c, escapeChar c ≠ [c] → Separates (t :: p) c)
    (hhead : ∀ c, escapeChar c ≠ [c] → ∀ d ∈ escapeChar c, t d = false) (s : Text) :
    occurs (t :: p) (escape s) = occurs (t :: p) s := by
  induction s with
  | nil => rfl
  | cons c s ih =>
    by_cases hc : escapeChar c = [c]
    · have hmatch := matchesHead_escape hsep (c :: s)
      rw [escape, List.flatMap_cons, hc, List.singleton_append] at hmatch ⊢
      rw [occurs, occurs, hmatch]
      exact congrArg _ ih
    · rw [escape, List.flatMap_cons, occurs_append_of_head (hhead c hc), occurs, matchesHead,
        hsep c hc t List.mem_cons_self, Bool.false_and, Bool.false_or]
      exact ih

theorem occurs_pieces {ps : List Piece} (hquote : Separates (t :: p) '"')
    (hraw : ∀ u, .raw u ∈ ps → ∀ c ∈ u, t c = false) :
    occurs (t :: p) (ps.flatMap Piece.text) = true ↔ ∃ s, .quoted s ∈ ps ∧
      occurs (t :: p) (escape s) = true := by
  induction ps with
  | nil => simp [occurs, matchesHead]
  | cons piece ps ih =>
    have htail := ih fun u hu => hraw u (List.mem_cons_of_mem _ hu)
    cases piece with
    | raw u =>
      rw [List.flatMap_cons, Piece.text, occurs_append_of_head (hraw u List.mem_cons_self), htail]
      simp
    | quoted s =>
      have hopen : occurs (t :: p) ('"' :: (escape s ++ '"' :: ps.flatMap Piece.text)) =
          occurs (t :: p) (escape s ++ '"' :: ps.flatMap Piece.text) :=
        occurs_append_of_head (a := ['"'])
          (List.forall_mem_singleton.2 (hquote t List.mem_cons_self)) _
      rw [List.flatMap_cons, Piece.text, List.cons_append, List.append_assoc, List.singleton_append,
        hopen,
        occurs_append_sep hquote, Bool.or_eq_true, htail]
      simp

end Pattern

namespace Value

variable {floatText : F64 → Text} {v : Value}

/-- A pattern that begins outside the structure occurs in a text just when it occurs in one of its
strings. -/
theorem occurs_text_iff {t : Char → Bool} {p : Pattern} (hv : v.WellFormed floatText)
    (hstructure : ∀ c, isStructural c = true → t c = false)
    (hsep : ∀ c, escapeChar c ≠ [c] → Pattern.Separates (t :: p) c)
    (hhead : ∀ c, escapeChar c ≠ [c] → ∀ d ∈ escapeChar c, t d = false) :
    Pattern.occurs (t :: p) (v.text floatText) = true ↔
      ∃ s ∈ v.strings, Pattern.occurs (t :: p) s = true := by
  have hspells := spells_pieces v hv
  rw [text, Pattern.occurs_pieces (hsep '"' (by decide)) fun u hu c hc =>
    hstructure c (hspells.raw u hu c hc)]
  simp only [hspells.quoted, Pattern.occurs_escape hsep hhead]

end Value

/-! ### Rewriting -/

/-- A piece, with its literal rewritten. -/
def Piece.rewritten (f : Text → Text) : Piece → Text
  | raw t => t
  | quoted s => '"' :: (f (escape s) ++ ['"'])

theorem eq_of_append_cons {c : Char} {a a' b b' : Text} (hcount : a.count c = a'.count c)
    (h : a ++ c :: b = a' ++ c :: b') :
    a = a' ∧ b = b' := by
  induction a generalizing a' with
  | nil =>
    cases a' with
    | nil => exact ⟨rfl, (List.cons.inj h).2⟩
    | cons d a' =>
      rw [← (List.cons.inj h).1, List.count_cons_self] at hcount
      exact absurd hcount (Nat.succ_ne_zero _).symm
  | cons d a ih =>
    cases a' with
    | nil =>
      rw [(List.cons.inj h).1, List.count_cons_self] at hcount
      exact absurd hcount (Nat.succ_ne_zero _)
    | cons d' a' =>
      obtain ⟨rfl, htail⟩ := List.cons.inj h
      rw [List.count_cons, List.count_cons, Nat.add_right_cancel_iff] at hcount
      obtain ⟨rfl, hb⟩ := ih hcount htail
      exact ⟨rfl, hb⟩

namespace Text.Rewrites

variable {start : Char} {seps : List Char} {f : Text → Text} {ps : List Piece}

/-- A rewriting that begins outside the structure rewrites the literals, each on its own. -/
theorem pieces (hf : Rewrites start seps f) (hstart : '"' ≠ start) (hquote : '"' ∈ seps)
    (hraw : ∀ u, .raw u ∈ ps → start ∉ u) :
    f (ps.flatMap Piece.text) = ps.flatMap (Piece.rewritten f) := by
  induction ps with
  | nil => exact hf.nil
  | cons piece ps ih =>
    have htail := ih fun u hu => hraw u (List.mem_cons_of_mem _ hu)
    cases piece with
    | raw u =>
      rw [List.flatMap_cons, List.flatMap_cons, Piece.text, Piece.rewritten,
        hf.skip (hraw u List.mem_cons_self), htail]
    | quoted s =>
      rw [List.flatMap_cons, List.flatMap_cons, Piece.text, Piece.rewritten, List.cons_append,
        List.cons_append,
        List.append_assoc, List.append_assoc, List.singleton_append, List.singleton_append,
          hf.cons _ _ hstart,
        hf.append_sep _ _ _ hquote, htail]

theorem pieces_eq_iff (hf : Rewrites start seps f) (hquote : '"' ∈ seps) :
    ps.flatMap (Piece.rewritten f) = ps.flatMap Piece.text ↔
      ∀ s, .quoted s ∈ ps → f (escape s) = escape s := by
  induction ps with
  | nil => simp
  | cons piece ps ih =>
    rw [List.flatMap_cons, List.flatMap_cons]
    cases piece with
    | raw u =>
      rw [Piece.text, Piece.rewritten, List.append_cancel_left_eq, ih]
      simp
    | quoted s =>
      rw [Piece.text, Piece.rewritten, List.cons_append, List.cons_append, List.append_assoc,
        List.append_assoc,
        List.singleton_append, List.singleton_append, List.cons.injEq]
      constructor
      · rintro ⟨-, heq⟩ s' hs'
        obtain ⟨hliteral, htail⟩ := eq_of_append_cons (hf.count _ _ hquote) heq
        rcases List.mem_cons.1 hs' with hs' | hs'
        · cases hs'
          exact hliteral
        · exact ih.1 htail s' hs'
      · intro h
        rw [h s List.mem_cons_self, ih.2 fun s' hs' => h s' (List.mem_cons_of_mem _ hs')]
        exact ⟨rfl, rfl⟩

/-- A rewriting that begins outside the structure leaves a text alone just when it leaves every
literal alone. -/
theorem text_iff {floatText : F64 → Text} {v : Value} (hf : Rewrites start seps f)
    (hv : v.WellFormed floatText)
    (hstart : '"' ≠ start) (hstructure : Value.isStructural start = false) (hquote : '"' ∈ seps) :
    f (v.text floatText) = v.text floatText ↔ ∀ s ∈ v.strings, f (escape s) = escape s := by
  have hspells := Value.spells_pieces v hv
  have hraw : ∀ u, .raw u ∈ v.pieces floatText → start ∉ u := by
    intro u hu hmem
    rw [hspells.raw u hu start hmem] at hstructure
    cases hstructure
  rw [Value.text, hf.pieces hstart hquote hraw, hf.pieces_eq_iff hquote]
  simp only [hspells.quoted]

end Text.Rewrites

end Foundations
