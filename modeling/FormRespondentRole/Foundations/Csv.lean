import FormRespondentRole.Foundations.Text

/-!
# Reading CSV

A reader for RFC 4180 with line feeds at the ends of the rows.  A cell that begins with a quote goes
on to the quote that is not doubled, and a doubled quote in it stands for one; other cells have no
quotes and no carriage returns.  The last row may end with the document.
-/

namespace Foundations.Csv

inductive State
  | start
  | plain
  | quoted
  /-- After a quote in a quoted cell. -/
  | closed
deriving DecidableEq

/-- What is left of the cell, of its row and of the document. -/
structure Rest where
  cell : Text
  cells : List Text
  rows : List (List Text)
deriving DecidableEq

namespace Rest

def cons (c : Char) (r : Rest) : Rest := { r with cell := c :: r.cell }

def prepend (a : Text) (r : Rest) : Rest := { r with cell := a ++ r.cell }

def row (r : Rest) : List Text := r.cell :: r.cells

/-- What is read before a comma that the rest follows. -/
def afterComma (r : Rest) : Rest := ⟨[], r.row, r.rows⟩

def afterLine (r : Rest) : Rest := ⟨[], [], r.row :: r.rows⟩

end Rest

def readFrom : State → Text → Option Rest
  | .quoted, [] => none
  | _, [] => some ⟨[], [], []⟩
  | .quoted, c :: s => if c = '"' then readFrom .closed s else (readFrom .quoted s).map (.cons c)
  | st, c :: s =>
    if c = ',' then (readFrom .start s).map .afterComma
    else if c = '\n' then if s = [] then some ⟨[], [], []⟩ else (readFrom .start s).map .afterLine
    else if c = '"' then
      if st = .start then readFrom .quoted s
      else if st = .closed then (readFrom .quoted s).map (.cons c)
      else none
    else if c = '\r' ∨ st = .closed then none
    else (readFrom .plain s).map (.cons c)

/-- The rows of a document. -/
def read (s : Text) : Option (List (List Text)) :=
  if s = [] then some [] else (readFrom .start s).map fun r => r.row :: r.rows

example : read "a,\"b\"\"\n\"\n,c\n".toList =
    some [["a".toList, "b\"\n".toList], [[], "c".toList]] := by decide

variable {st : State} {a s : Text} {d : Char}

/-- The text begins with the end of a cell. -/
def Ends (s : Text) : Prop := s.head? = some ',' ∨ s.head? = some '\n'

/-- A cell ends alike in every state but within quotes. -/
theorem readFrom_ends (hst : st ≠ .quoted) (hs : Ends s) : readFrom st s = readFrom .closed s := by
  cases s with
  | nil => rcases hs with hs | hs <;> cases hs
  | cons c s =>
    rcases hs with hs | hs
    all_goals
      obtain rfl := Option.some.inj hs
      cases st <;> first | exact absurd rfl hst | rfl

theorem readFrom_comma (s : Text) :
    readFrom .closed (',' :: s) = (readFrom .start s).map .afterComma := rfl

theorem readFrom_line (s : Text) : readFrom .closed ('\n' :: s) =
    if s = [] then some ⟨[], [], []⟩ else (readFrom .start s).map .afterLine := rfl

/-- A cell without quotes. -/
theorem readFrom_plain (ha : ',' ∉ a ∧ '"' ∉ a ∧ '\n' ∉ a ∧ '\r' ∉ a) (hst : st = .start ∨
    st = .plain) (hs : Ends s) :
    readFrom st (a ++ s) = (readFrom .closed s).map (.prepend a) := by
  induction a generalizing st with
  | nil =>
    have hquoted : st ≠ .quoted := by
      rintro rfl
      rcases hst with h | h <;> cases h
    have hid : Rest.prepend [] = id := rfl
    rw [List.nil_append, readFrom_ends hquoted hs, hid, Option.map_id]
    rfl
  | cons c a ih =>
    simp only [List.mem_cons, not_or] at ha
    obtain ⟨⟨hcomma, ha₁⟩, ⟨hquote, ha₂⟩, ⟨hline, ha₃⟩, hreturn, ha₄⟩ := ha
    have hstep : readFrom st (c :: (a ++ s)) = (readFrom .plain (a ++ s)).map (.cons c) := by
      rcases hst with rfl |
        rfl <;> simp [readFrom, Ne.symm hcomma, Ne.symm hline, Ne.symm hquote, Ne.symm hreturn]
    rw [List.cons_append, hstep, ih ⟨ha₁, ha₂, ha₃, ha₄⟩ (Or.inr rfl), Option.map_map]
    rfl

/-- A cell in quotes, from its first character on. -/
theorem readFrom_quoted (a s : Text) :
    readFrom .quoted ((a.flatMap fun c => if c = '"' then ['"', '"'] else [c]) ++ '"' :: s) =
      (readFrom .closed s).map (.prepend a) := by
  induction a with
  | nil =>
    have hid : Rest.prepend [] = id := rfl
    rw [hid, Option.map_id]
    rfl
  | cons c a ih =>
    rw [List.flatMap_cons, List.append_assoc]
    by_cases hc : c = '"'
    · subst hc
      have hstep : ∀ s, readFrom .quoted ('"' :: '"' :: s) = (readFrom .quoted s).map (.cons '"') :=
        fun _ => rfl
      rw [if_pos rfl, List.cons_append, List.singleton_append, hstep, ih, Option.map_map]
      rfl
    · have hstep : ∀ s, readFrom .quoted (c :: s) = (readFrom .quoted s).map (.cons c) :=
        fun _ => if_neg hc
      rw [if_neg hc, List.singleton_append, hstep, ih, Option.map_map]
      rfl

end Foundations.Csv
