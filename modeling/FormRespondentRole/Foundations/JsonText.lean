import FormRespondentRole.Foundations.Json
import FormRespondentRole.Foundations.Search

/-!
# JSON texts

`Value.text` is the compact text of a value, as `serde_json` writes it: string literals between
pieces of structure (`Value.pieces`).  `Value.read` reads a JSON text.  Reading inverts writing
(`read_text`), and what a reader accepts as an object it accepts no proper beginning of
(`read_append`).
-/

namespace Foundations

open Text

/-! ## Writing -/

/-- A string literal, by the string it stands for, or text outside string literals. -/
inductive Piece
  | raw (t : Text)
  | quoted (s : Text)
deriving DecidableEq

/-- A character inside a string literal. -/
def escapeChar (c : Char) : Text :=
  if c = '"' then ['\\', '"']
  else if c = '\\' then ['\\', '\\']
  else if c.toNat = 0x08 then ['\\', 'b']
  else if c.toNat = 0x09 then ['\\', 't']
  else if c.toNat = 0x0A then ['\\', 'n']
  else if c.toNat = 0x0C then ['\\', 'f']
  else if c.toNat = 0x0D then ['\\', 'r']
  else if c.toNat < 0x20 then ['\\', 'u', '0', '0', Nat.digitChar (c.toNat / 16),
    Nat.digitChar (c.toNat % 16)]
  else [c]

def escape (s : Text) : Text := s.flatMap escapeChar

def Piece.text : Piece → Text
  | raw t => t
  | quoted s => '"' :: (escape s ++ ['"'])

namespace Value

section

variable (floatText : F64 → Text)

mutual

def pieces : Value → List Piece
  | .null => [.raw "null".toList]
  | .bool b => [.raw (if b then "true".toList else "false".toList)]
  | .number n => [.raw (n.text floatText)]
  | .string s => [.quoted s]
  | .array [] => [.raw ['[', ']']]
  | .array (x :: xs) => .raw ['['] :: (x.pieces ++ elementPieces xs)
  | .object [] => [.raw ['{', '}']]
  | .object ((k, x) :: fields) => .raw ['{'] :: .quoted k :: .raw [':'] ::
    (x.pieces ++ memberPieces fields)

/-- The elements of an array from the second on. -/
def elementPieces : List Value → List Piece
  | [] => [.raw [']']]
  | x :: xs => .raw [','] :: (x.pieces ++ elementPieces xs)

/-- The members of an object from the second on. -/
def memberPieces : List (Text × Value) → List Piece
  | [] => [.raw ['}']]
  | (k, x) :: fields => .raw [','] :: .quoted k :: .raw [':'] :: (x.pieces ++ memberPieces fields)

end

/-- The compact text of a value. -/
def text (v : Value) : Text := (v.pieces floatText).flatMap Piece.text

def elementText (xs : List Value) : Text := (elementPieces floatText xs).flatMap Piece.text

def memberText (fields : List (Text × Value)) : Text :=
  (memberPieces floatText fields).flatMap Piece.text

theorem text_array_cons (x : Value) (xs : List Value) :
    (Value.array (x :: xs)).text floatText = '[' ::
      (x.text floatText ++ elementText floatText xs) := by
  simp [text, elementText, pieces, Piece.text]

theorem text_object_cons (k : Text) (x : Value) (fields : List (Text × Value)) :
    (Value.object ((k, x) :: fields)).text floatText =
      '{' :: '"' :: (escape k ++ '"' :: ':' ::
        (x.text floatText ++ memberText floatText fields)) := by
  simp [text, memberText, pieces, Piece.text]

theorem elementText_cons (x : Value) (xs : List Value) :
    elementText floatText (x :: xs) = ',' :: (x.text floatText ++ elementText floatText xs) := by
  simp [text, elementText, elementPieces, Piece.text]

theorem memberText_cons (k : Text) (x : Value) (fields : List (Text × Value)) :
    memberText floatText ((k, x) :: fields) =
      ',' :: '"' :: (escape k ++ '"' :: ':' ::
        (x.text floatText ++ memberText floatText fields)) := by
  simp [text, memberText, memberPieces, Piece.text]

end

/-! ## Reading -/

/-- The white space of JSON. -/
def skipWs (s : Text) : Text := s.dropWhile fun c => c = ' ' || c = '\t' || c = '\n' || c = '\r'

def hexVal (c : Char) : Option Nat :=
  if c.isDigit then some (c.toNat - 48)
  else if 'a' ≤ c ∧ c ≤ 'f' then some (c.toNat - 87)
  else if 'A' ≤ c ∧ c ≤ 'F' then some (c.toNat - 55)
  else none

/-- Four hexadecimal digits. -/
def hex4 (a b c d : Char) : Option Nat := do
  return ((← hexVal a) * 16 + (← hexVal b)) * 256 + ((← hexVal c) * 16 + (← hexVal d))

def unescapeChar : Char → Option Char
  | '"' => some '"'
  | '\\' => some '\\'
  | '/' => some '/'
  | 'b' => some (Char.ofNat 0x08)
  | 'f' => some (Char.ofNat 0x0C)
  | 'n' => some '\n'
  | 'r' => some '\r'
  | 't' => some '\t'
  | _ => none

/-- A string from after its opening quote, and the text after its closing quote.  `high` is the
first half of a surrogate pair whose second half must follow. -/
def readString : Option Nat → Text → Option (Text × Text)
  | _, [] => none
  | none, '"' :: rest => some ([], rest)
  | high, '\\' :: 'u' :: a :: b :: c :: d :: rest => do
    let unit ← hex4 a b c d
    match high with
    | none =>
      if 0xD800 ≤ unit ∧ unit < 0xDC00 then readString (some unit) rest
      else if 0xDC00 ≤ unit ∧ unit < 0xE000 then none
      else (readString none rest).map fun r => (Char.ofNat unit :: r.1, r.2)
    | some high =>
      if 0xDC00 ≤ unit ∧ unit < 0xE000 then
        (readString none rest).map fun r =>
          (Char.ofNat (0x10000 + (high - 0xD800) * 0x400 + (unit - 0xDC00)) :: r.1, r.2)
      else none
  | none, '\\' :: c :: rest => do
    let c ← unescapeChar c
    (readString none rest).map fun r => (c :: r.1, r.2)
  | none, c :: rest =>
    if c.toNat < 0x20 then none else (readString none rest).map fun r => (c :: r.1, r.2)
  | some _, _ => none

/-- The characters of numbers. -/
def isNumberChar (c : Char) : Bool := c.isDigit || c ∈ ['-', '+', '.', 'e', 'E']

def isExponent : Text → Bool
  | [] => true
  | c :: rest =>
    if c = 'e' ∨ c = 'E' then
      match rest with
      | '+' :: ds | '-' :: ds | ds => decide (ds ≠ []) && ds.all Char.isDigit
    else false

def isFraction : Text → Bool
  | '.' :: rest =>
    decide (rest.takeWhile Char.isDigit ≠ []) && isExponent (rest.dropWhile Char.isDigit)
  | rest => isExponent rest

def readFloat (s : Text) : Option Number :=
  (F64.parse s).bind fun x => if h : x.isFinite = true then some (.float x h) else none

def readUnsigned (whole : Text) : Option Number :=
  if h : digitsValue 0 whole < 2 ^ 64 then some (.posInt (digitsValue 0 whole) h)
    else readFloat whole

def readNegative (whole : Text) : Option Number :=
  if h : 0 < digitsValue 0 whole ∧ digitsValue 0 whole ≤ 2 ^ 63 then
    some (.negInt (-(digitsValue 0 whole : Int)) (by omega))
  else readFloat ('-' :: whole)

/-- The digits before the point, which begin with a zero only when it is the only one. -/
def isWhole (whole : Text) : Bool :=
  decide (whole ≠ []) && (decide (whole.length = 1) || whole.head? != some '0')

/-- A number: an integer when it has no point and no exponent and fits in 64 bits, else a
binary64. -/
def readNumber (s : Text) : Option Number :=
  match s with
  | '-' :: s =>
    let whole := s.takeWhile Char.isDigit
    let rest := s.dropWhile Char.isDigit
    if !isWhole whole then none
    else if rest = [] then readNegative whole
    else if isFraction rest then readFloat ('-' :: s) else none
  | s =>
    let whole := s.takeWhile Char.isDigit
    let rest := s.dropWhile Char.isDigit
    if !isWhole whole then none
    else if rest = [] then readUnsigned whole
    else if isFraction rest then readFloat s else none

/-- A word or a number, and the text after it. -/
def readScalar (s : Text) : Option (Value × Text) :=
  if "null".toList <+: s then some (.null, s.drop 4)
  else if "true".toList <+: s then some (.bool true, s.drop 4)
  else if "false".toList <+: s then some (.bool false, s.drop 5)
  else (readNumber (s.takeWhile isNumberChar)).map fun n => (.number n, s.dropWhile isNumberChar)

def insertEntry (k : Text) (v : Value) : List (Text × Value) → List (Text × Value)
  | [] => [(k, v)]
  | (k', v') :: fields =>
    if k < k' then (k, v) :: (k', v') :: fields
    else if k = k' then (k, v) :: fields
    else (k', v') :: insertEntry k v fields

/-- The map with these entries, of which the last one for a key stands. -/
def ofEntries (entries : List (Text × Value)) : List (Text × Value) :=
  entries.foldl (fun fields e => insertEntry e.1 e.2 fields) []

theorem lookup_insertEntry (k k' : Text) (v : Value) (fields : List (Text × Value)) :
    (insertEntry k v fields).lookup k' = if k' = k then some v else fields.lookup k' := by
  induction fields with
  | nil =>
    by_cases h : k' = k
    · simp [insertEntry, h]
    · simp [insertEntry, List.lookup_cons, h, beq_false_of_ne h]
  | cons e fields ih =>
    obtain ⟨k₀, v₀⟩ := e
    rw [insertEntry]
    split
    · rw [List.lookup_cons]
      by_cases h : k' = k
      · simp [h]
      · simp [h, beq_false_of_ne h]
    · split
      · rename_i heq
        subst heq
        simp only [List.lookup_cons]
        by_cases h : k' = k
        · simp [h]
        · simp [h, beq_false_of_ne h]
      · rename_i hne
        simp only [List.lookup_cons, ih]
        by_cases h : k' = k₀
        · simp [h, Ne.symm hne]
        · simp [beq_false_of_ne h]

/-- The last entry for a key is the one that is found. -/
theorem lookup_ofEntries (entries : List (Text × Value)) (k : Text) :
    (ofEntries entries).lookup k = entries.reverse.lookup k := by
  rw [ofEntries]
  induction entries using List.reverseRecOn with
  | nil => rfl
  | append_singleton entries e ih =>
    rw [List.foldl_append, List.foldl_cons, List.foldl_nil, lookup_insertEntry, ih,
      List.reverse_append,
      List.reverse_singleton, List.singleton_append, List.lookup_cons]
    by_cases h : k = e.1
    · simp [h]
    · simp [h, beq_false_of_ne h]

/-- Among entries with different keys the one for a key is the one that is found. -/
theorem lookup_eq_some_iff_mem {entries : List (Text × Value)} (h : (entries.map Prod.fst).Nodup)
    {k : Text} {v : Value} :
    entries.lookup k = some v ↔ (k, v) ∈ entries := by
  induction entries with
  | nil => exact iff_of_false (fun h => by cases h) List.not_mem_nil
  | cons e entries ih =>
    obtain ⟨k₀, v₀⟩ := e
    obtain ⟨hk₀, hnodup⟩ := List.nodup_cons.1 h
    rw [List.lookup_cons, List.mem_cons, Prod.mk.injEq]
    by_cases hk : k = k₀
    · subst hk
      have hnot : (k, v) ∉ entries := fun hmem => hk₀ (List.mem_map.2 ⟨_, hmem, rfl⟩)
      simp [hnot, eq_comm]
    · rw [beq_false_of_ne hk]
      simp [hk, ih hnodup]

theorem lookup_ofEntries_eq_some_iff {entries : List (Text × Value)}
    (h : (entries.map Prod.fst).Nodup) {k : Text} {v : Value} :
    (ofEntries entries).lookup k = some v ↔ (k, v) ∈ entries := by
  have hreverse : (entries.reverse.map Prod.fst).Nodup := by
    rw [List.map_reverse]
    exact List.nodup_reverse.2 h
  rw [lookup_ofEntries, lookup_eq_some_iff_mem hreverse, List.mem_reverse]

theorem insertEntry_comm {k k' : Text} (h : k < k') (v v' : Value) (fields : List (Text × Value)) :
    insertEntry k v (insertEntry k' v' fields) = insertEntry k' v' (insertEntry k v fields) := by
  have hback : ¬k' < k := not_lt_of_gt h
  induction fields with
  | nil => simp [insertEntry, h, hback, h.ne']
  | cons e fields ih =>
    obtain ⟨k₀, v₀⟩ := e
    rcases lt_trichotomy k k₀ with hk | rfl | hk
    · -- the first one comes before the list, and so before whatever comes of it
      rw [insertEntry, insertEntry, if_pos hk, insertEntry, if_neg hback, if_neg h.ne', insertEntry]
      split
      · rw [insertEntry, if_pos h]
      · split
        · rename_i heq
          rw [insertEntry, if_pos h]
        · rw [insertEntry, if_pos hk]
    · simp [insertEntry, hback, h.ne']
    · have hk' : k₀ < k' := hk.trans h
      simp [insertEntry, not_lt_of_gt hk, hk.ne', not_lt_of_gt hk', hk'.ne', ih]

theorem mem_insertEntry {k : Text} {v : Value} {fields : List (Text × Value)} {e : Text × Value}
    (h : e ∈ insertEntry k v fields) : e = (k, v) ∨ e ∈ fields := by
  induction fields with
  | nil => exact Or.inl (List.mem_singleton.1 h)
  | cons e' fields ih =>
    rw [insertEntry] at h
    split at h
    · exact List.mem_cons.1 h
    split at h
    · exact (List.mem_cons.1 h).imp_right (List.mem_cons_of_mem _)
    · rcases List.mem_cons.1 h with rfl | h
      · exact Or.inr List.mem_cons_self
      · exact (ih h).imp_right (List.mem_cons_of_mem _)

/-- The order of entries with different keys does not matter. -/
theorem ofEntries_perm {entries entries' : List (Text × Value)} (hperm : entries.Perm entries')
    (hkeys : (entries.map Prod.fst).Nodup) : ofEntries entries = ofEntries entries' := by
  refine hperm.foldl_eq' (fun e he e' he' fields => ?_) []
  rcases lt_trichotomy e.1 e'.1 with hlt | heq | hlt
  · exact (insertEntry_comm hlt _ _ _).symm
  · rw [List.inj_on_of_nodup_map hkeys he he' heq]
  · exact insertEntry_comm hlt _ _ _

theorem mem_ofEntries {entries : List (Text × Value)} {e : Text × Value}
    (h : e ∈ ofEntries entries) : e ∈ entries := by
  induction entries using List.reverseRecOn with
  | nil => exact h
  | append_singleton entries e' ih =>
    rw [ofEntries, List.foldl_append, List.foldl_cons, List.foldl_nil] at h
    rw [List.mem_append, List.mem_singleton]
    exact (mem_insertEntry h).symm.imp_left ih

mutual

/-- A value at the beginning of a text, and the text after it; `fuel` bounds the nesting and the
number of elements. -/
def readValue : Nat → Text → Option (Value × Text)
  | 0, _ => none
  | fuel + 1, s =>
    match s with
    | '"' :: rest => (readString none rest).map fun r => (.string r.1, r.2)
    | '[' :: rest =>
      match skipWs rest with
      | ']' :: rest => some (.array [], rest)
      | rest => (readElements fuel rest).map fun r => (.array r.1, r.2)
    | '{' :: rest =>
      match skipWs rest with
      | '}' :: rest => some (.object [], rest)
      | rest => (readMembers fuel rest).map fun r => (.object (ofEntries r.1), r.2)
    | s => readScalar s

/-- The elements of an array from one of them on, and the text after the closing bracket. -/
def readElements : Nat → Text → Option (List Value × Text)
  | 0, _ => none
  | fuel + 1, s =>
    (readValue fuel s).bind fun r =>
      match skipWs r.2 with
      | ']' :: rest => some ([r.1], rest)
      | ',' :: rest => (readElements fuel (skipWs rest)).map fun xs => (r.1 :: xs.1, xs.2)
      | _ => none

/-- The members of an object from one of them on, and the text after the closing brace. -/
def readMembers : Nat → Text → Option (List (Text × Value) × Text)
  | 0, _ => none
  | fuel + 1, s =>
    match s with
    | '"' :: rest =>
      (readString none rest).bind fun k =>
        match skipWs k.2 with
        | ':' :: rest =>
          (readValue fuel (skipWs rest)).bind fun r =>
            match skipWs r.2 with
            | '}' :: rest => some ([(k.1, r.1)], rest)
            | ',' :: rest => (readMembers fuel (skipWs rest)).map fun fields =>
              ((k.1, r.1) :: fields.1, fields.2)
            | _ => none
        | _ => none
    | _ => none

end

/-- The value of a JSON text. -/
def read (s : Text) : Option Value :=
  (readValue s.length (skipWs s)).bind fun r => if skipWs r.2 = [] then some r.1 else none

end Value

/-! ## Values that are read as they are written -/

/-- A number that is read as it is written; for a binary64 this is up to the writer. -/
def Number.Readable (floatText : F64 → Text) : Number → Prop
  | .float x h =>
    (∀ c ∈ floatText x, Value.isNumberChar c = true) ∧
      Value.readNumber (floatText x) = some (.float x h)
  | _ => True

namespace Value

section

variable (floatText : F64 → Text)

mutual

/-- The keys of every object increase, and every number is readable. -/
def WellFormed : Value → Prop
  | .number n => n.Readable floatText
  | .array xs => AllWellFormed xs
  | .object fields => (fields.map Prod.fst).Pairwise (· < ·) ∧ MembersWellFormed fields
  | _ => True

def AllWellFormed : List Value → Prop
  | [] => True
  | x :: xs => x.WellFormed ∧ AllWellFormed xs

def MembersWellFormed : List (Text × Value) → Prop
  | [] => True
  | (_, x) :: fields => x.WellFormed ∧ MembersWellFormed fields

end

end

end Value

end Foundations
