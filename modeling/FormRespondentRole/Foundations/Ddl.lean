import FormRespondentRole.Foundations.Text

/-!
# Additive changes of a schema

Statements that create tables and indexes and add columns, each only if it is not there, and that
fill a column and then forbid `NULL` in it.  They run on a store of any values.

A statement whose effect is there already changes nothing (`exec_of_done`), no statement changes a
value (`keeps_exec`), and a list of statements fails only for the schema if each column comes with a
value that it may have or is filled first (`execAll_isSome`).
-/

namespace Foundations

/-- What an insertion that leaves the column out writes: a value, or what an expression yields
then. -/
inductive Default (ν : Type)
  | value (v : ν)
  | expression (text : Text)
deriving DecidableEq

structure Column (ν : Type) where
  name : Text
  type : Text
  notNull : Bool := false
  default : Option (Default ν) := none
  /-- The values that a `CHECK (… IN …)` admits. -/
  oneOf : Option (List ν) := none
deriving DecidableEq

structure TableSchema (ν : Type) where
  name : Text
  columns : List (Column ν)
  constraints : List Text := []
deriving DecidableEq

/-- An index that is not unique. -/
structure Index where
  name : Text
  table : Text
  definition : Text
deriving DecidableEq

structure Schema (ν : Type) where
  tables : List (TableSchema ν)
  indexes : List Index
deriving DecidableEq

/-- The values of a row, column by column; `none` is `NULL`. -/
abbrev Row (ν : Type) := List (Option ν)

structure Store (ν : Type) where
  schema : Schema ν
  rows : Text → List (Row ν)

/-! ### Reading and writing by name -/

/-- The first that meets the condition is changed. -/
def alterFirst {α : Type} (p : α → Bool) (f : α → α) : List α → List α
  | [] => []
  | a :: l => if p a then f a :: l else a :: alterFirst p f l

section

variable {α : Type} {p q : α → Bool} {f : α → α} {l : List α} {a : α}

theorem alterFirst_eq_self (h : l.find? p = some a) (ha : f a = a) : alterFirst p f l = l := by
  induction l with
  | nil => rfl
  | cons b l ih =>
    rw [alterFirst]
    by_cases hb : p b = true
    · rw [List.find?_cons_of_pos hb] at h
      rw [if_pos hb, Option.some.inj h, ha]
    · rw [List.find?_cons_of_neg hb] at h
      rw [if_neg hb, ih h]

theorem find?_alterFirst_self (hf : ∀ a, p (f a) = p a) :
    (alterFirst p f l).find? p = (l.find? p).map f := by
  induction l with
  | nil => rfl
  | cons b l ih =>
    rw [alterFirst]
    by_cases hb : p b = true
    · rw [if_pos hb, List.find?_cons_of_pos ((hf b).trans hb), List.find?_cons_of_pos hb]
      rfl
    · rw [if_neg hb, List.find?_cons_of_neg hb, List.find?_cons_of_neg hb, ih]

theorem find?_alterFirst_of_ne (hf : ∀ a, q (f a) = q a) (hpq : ∀ a, p a = true → q a = false) :
    (alterFirst p f l).find? q = l.find? q := by
  induction l with
  | nil => rfl
  | cons b l ih =>
    rw [alterFirst]
    by_cases hb : p b = true
    · have hq : ¬q b = true := Bool.eq_false_iff.1 (hpq b hb)
      rw [if_pos hb, List.find?_cons_of_neg (by rw [hf b]; exact hq), List.find?_cons_of_neg hq]
    · rw [if_neg hb]
      by_cases hq : q b = true
      · rw [List.find?_cons_of_pos hq, List.find?_cons_of_pos hq]
      · rw [List.find?_cons_of_neg hq, List.find?_cons_of_neg hq, ih]

end

section

variable {ν : Type} [DecidableEq ν]

/-- The value of a column of a row, `none` for `NULL`. -/
def valueAt (name : Text) : List (Column ν) → Row ν → Option ν
  | c :: cs, v :: vs => if c.name = name then v else valueAt name cs vs
  | _, _ => none

def setAt (name : Text) (f : Option ν → Option ν) : List (Column ν) → Row ν → Row ν
  | c :: cs, v :: vs => if c.name = name then f v :: vs else v :: setAt name f cs vs
  | _, row => row

namespace TableSchema

def column? (t : TableSchema ν) (name : Text) : Option (Column ν) :=
  t.columns.find? fun c => decide (c.name = name)

def alterColumn (t : TableSchema ν) (name : Text) (f : Column ν → Column ν) : TableSchema ν :=
  { t with columns := alterFirst (fun c => decide (c.name = name)) f t.columns }

def addColumn (t : TableSchema ν) (c : Column ν) : TableSchema ν :=
  { t with columns := t.columns ++ [c] }

end TableSchema

namespace Schema

def table? (s : Schema ν) (name : Text) : Option (TableSchema ν) :=
  s.tables.find? fun t => decide (t.name = name)

def column? (s : Schema ν) (table column : Text) : Option (Column ν) :=
  (s.table? table).bind (·.column? column)

def alterTable (s : Schema ν) (name : Text) (f : TableSchema ν → TableSchema ν) : Schema ν :=
  { s with tables := alterFirst (fun t => decide (t.name = name)) f s.tables }

def alterColumn (s : Schema ν) (table column : Text) (f : Column ν → Column ν) : Schema ν :=
  s.alterTable table (·.alterColumn column f)

end Schema

/-- The value of a column of a row of a table. -/
def Store.valueAt (s : Store ν) (table column : Text) (row : Row ν) : Option ν :=
  (s.schema.table? table).bind fun t => Foundations.valueAt column t.columns row

def Column.initial (c : Column ν) : Option ν :=
  match c.default with
  | some (.value v) => some v
  | _ => none

/-- The column may have the value; `NULL` passes a `CHECK`. -/
def Column.takes (c : Column ν) : Option ν → Bool
  | none => !c.notNull
  | some v => c.oneOf.all fun vs => decide (v ∈ vs)

/-- An insertion may leave the column out, whatever an expression yields. -/
def Column.omittable (c : Column ν) : Bool :=
  match c.default with
  | some (.expression _) => c.oneOf.isNone
  | _ => c.takes c.initial

/-! ### Statements -/

inductive Ddl (ν : Type)
  | createTable (t : TableSchema ν)
  | createIndex (i : Index)
  /-- With a default that is a value, if it has one. -/
  | addColumn (table : Text) (c : Column ν)
  /-- An `UPDATE` of the rows in which the column is `NULL`, for a column without a `CHECK`. -/
  | fill (table column : Text) (value : Store ν → Row ν → ν)
  | setNotNull (table column : Text)
  | setDefault (table column : Text) (v : ν)

namespace Ddl

/-- What a statement makes of the schema, unless it fails. -/
def applied (s : Schema ν) : Ddl ν → Option (Schema ν)
  | createTable t => if (s.table? t.name).isSome then some s
  else some { s with tables := s.tables ++ [t] }
  | createIndex i =>
    if s.indexes.any fun j => decide (j.name = i.name) then some s
    else if (s.table? i.table).isSome then some { s with indexes := s.indexes ++ [i] }
    else none
  | addColumn table c =>
    match s.table? table with
    | none => none
    | some t =>
      if (t.column? c.name).isSome then some s
      else some (s.alterTable table (·.addColumn c))
  | fill table column _ => if (s.column? table column).any fun c => c.oneOf.isNone then some s
    else none
  | setNotNull table column =>
    if (s.column? table column).isSome then
      some (s.alterColumn table column fun c => { c with notNull := true }) else none
  | setDefault table column v =>
    if (s.column? table column).isSome then
      some (s.alterColumn table column fun c => { c with default := some (.value v) })
    else none

/-- What a statement makes of the rows, unless it fails. -/
def appliedRows (s : Store ν) : Ddl ν → Option (Text → List (Row ν))
  | addColumn table c =>
    if (s.schema.column? table c.name).isSome then some s.rows
    else if !c.takes c.initial && !(s.rows table).isEmpty then none
    else some (Function.update s.rows table ((s.rows table).map fun row => row ++ [c.initial]))
  | fill table column value =>
    match s.schema.table? table with
    | none => none
    | some t => some (Function.update s.rows table ((s.rows table).map fun row =>
        setAt column (fun v => some (v.getD (value s row))) t.columns row))
  | setNotNull table column =>
    if (s.rows table).any fun row => (s.valueAt table column row).isNone then none else some s.rows
  | _ => some s.rows

def exec (d : Ddl ν) (s : Store ν) : Option (Store ν) :=
  (d.applied s.schema).bind fun schema => (d.appliedRows s).map fun rows => ⟨schema, rows⟩

/-- The statements of one transaction. -/
def execAll : List (Ddl ν) → Store ν → Option (Store ν)
  | [], s => some s
  | d :: ds, s => (d.exec s).bind (execAll ds)

def appliedAll : List (Ddl ν) → Schema ν → Option (Schema ν)
  | [], s => some s
  | d :: ds, s => (d.applied s).bind (appliedAll ds)

end Ddl

/-! ### Stores that conform to their schema -/

def Column.Takes (c : Column ν) (v : Option ν) : Prop := c.takes v = true

structure Store.Conforms (s : Store ν) : Prop where
  rows : ∀ name t, s.schema.table? name = some t → ∀ row ∈ s.rows name,
    List.Forall₂ Column.Takes t.columns row
  absent : ∀ name, s.schema.table? name = none → s.rows name = []

section

variable {name : Text} {cs : List (Column ν)} {c : Column ν} {row : Row ν} {f : Option ν → Option ν}
  {s s' : Store ν} {d : Ddl ν}

theorem Column.Takes.isSome {v : Option ν} (h : c.Takes v) (hnull : c.notNull = true) :
    v.isSome = true := by
  cases v with
  | some w => rfl
  | none =>
    rw [Takes, takes, hnull] at h
    cases h

theorem Column.takes_of_oneOf (hc : c.oneOf = none) (w : ν) : c.Takes (some w) := by
  rw [Takes, takes, hc]
  rfl

theorem valueAt_isSome (h : List.Forall₂ Column.Takes cs row)
    (hc : cs.find? (fun c => decide (c.name = name)) = some c) (hnull : c.notNull = true) :
    (valueAt name cs row).isSome = true := by
  induction h with
  | nil => cases hc
  | @cons b v cs vs hv _ ih =>
    rw [valueAt]
    by_cases hb : b.name = name
    · rw [List.find?_cons_of_pos (by simpa using hb)] at hc
      rw [if_pos hb]
      exact hv.isSome (Option.some.inj hc ▸ hnull)
    · rw [List.find?_cons_of_neg (by simpa using hb)] at hc
      rw [if_neg hb]
      exact ih hc

omit [DecidableEq ν] in
theorem setAt_eq_self (h : f (valueAt name cs row) = valueAt name cs row) :
    setAt name f cs row = row := by
  induction cs generalizing row with
  | nil => cases row <;> rfl
  | cons b cs ih =>
    cases row with
    | nil => rfl
    | cons v vs =>
      rw [valueAt] at h
      rw [setAt]
      by_cases hb : b.name = name
      · rw [if_pos hb] at h ⊢
        rw [h]
      · rw [if_neg hb] at h ⊢
        rw [ih h]

theorem valueAt_setAt (h : List.Forall₂ Column.Takes cs row)
    (hc : (cs.find? fun c => decide (c.name = name)).isSome = true) :
    valueAt name cs (setAt name f cs row) = f (valueAt name cs row) := by
  induction h with
  | nil => cases hc
  | @cons b v cs vs _ _ ih =>
    rw [valueAt, setAt]
    by_cases hb : b.name = name
    · rw [if_pos hb, if_pos hb, valueAt, if_pos hb]
    · rw [List.find?_cons_of_neg (by simpa using hb)] at hc
      rw [if_neg hb, if_neg hb, valueAt, if_neg hb, ih hc]

theorem valueAt_append {more : List (Column ν)} {rest : Row ν}
    (h : List.Forall₂ Column.Takes cs row)
    (hc : (cs.find? fun c => decide (c.name = name)).isSome = true) :
    valueAt name (cs ++ more) (row ++ rest) = valueAt name cs row := by
  induction h with
  | nil => cases hc
  | @cons b v cs vs _ _ ih =>
    rw [List.cons_append, List.cons_append, valueAt, valueAt]
    by_cases hb : b.name = name
    · rw [if_pos hb, if_pos hb]
    · rw [List.find?_cons_of_neg (by simpa using hb)] at hc
      rw [if_neg hb, if_neg hb, ih hc]

theorem setAt_append {more : List (Column ν)} {rest : Row ν} (h : List.Forall₂ Column.Takes cs row)
    (hc : (cs.find? fun c => decide (c.name = name)) = none) :
    setAt name f (cs ++ more) (row ++ rest) = row ++ setAt name f more rest := by
  induction h with
  | nil => rfl
  | @cons b v cs vs _ _ ih =>
    have habsent := List.find?_eq_none.1 hc
    rw [List.cons_append, List.cons_append, setAt,
      if_neg (by simpa using habsent b List.mem_cons_self),
      ih (List.find?_eq_none.2 fun c hc => habsent c (List.mem_cons_of_mem _ hc)), List.cons_append]

theorem takes_setAt (hf : ∀ v, (f v).isSome = true)
    (hc : ∀ c, cs.find? (fun c => decide (c.name = name)) = some c → c.oneOf = none)
    (h : List.Forall₂ Column.Takes cs row) :
    List.Forall₂ Column.Takes cs (setAt name f cs row) := by
  induction h with
  | nil => exact .nil
  | @cons b v cs vs hv hvs ih =>
    rw [setAt]
    by_cases hb : b.name = name
    · obtain ⟨w, hw⟩ := Option.isSome_iff_exists.1 (hf v)
      rw [if_pos hb, hw]
      exact .cons (Column.takes_of_oneOf (hc b (List.find?_cons_of_pos (by simpa using hb))) w) hvs
    · rw [if_neg hb]
      refine .cons hv (ih fun c hfound => hc c ?_)
      rw [List.find?_cons_of_neg (by simpa using hb), hfound]

/-- A column without `NULL` may be declared so. -/
theorem takes_notNull (h : List.Forall₂ Column.Takes cs row)
    (hvalue : (valueAt name cs row).isSome = true) :
    List.Forall₂ Column.Takes (alterFirst (fun c => decide (c.name = name))
      (fun c => { c with notNull := true }) cs) row := by
  induction h with
  | nil => exact .nil
  | @cons b v cs vs hv hvs ih =>
    rw [valueAt] at hvalue
    rw [alterFirst]
    by_cases hb : b.name = name
    · rw [if_pos hb] at hvalue
      rw [if_pos (decide_eq_true hb)]
      obtain ⟨w, rfl⟩ := Option.isSome_iff_exists.1 hvalue
      exact .cons hv hvs
    · rw [if_neg hb] at hvalue
      rw [if_neg (by simpa using hb)]
      exact .cons hv (ih hvalue)

theorem takes_default {v : Default ν} (h : List.Forall₂ Column.Takes cs row) :
    List.Forall₂ Column.Takes (alterFirst (fun c => decide (c.name = name))
      (fun c => { c with default := some v }) cs) row := by
  induction h with
  | nil => exact .nil
  | @cons b v cs vs hv hvs ih =>
    rw [alterFirst]
    split
    · refine .cons ?_ hvs
      cases v <;> exact hv
    · exact .cons hv ih

omit [DecidableEq ν] in
theorem Schema.table?_alterTable {s : Schema ν} {f : TableSchema ν → TableSchema ν}
    (hf : ∀ t, (f t).name = t.name) (other : Text) :
    (s.alterTable name f).table? other = if other = name then (s.table? other).map f
      else s.table? other := by
  by_cases hname : other = name
  · subst hname
    rw [if_pos rfl]
    exact find?_alterFirst_self fun t => by rw [hf]
  · rw [if_neg hname]
    refine find?_alterFirst_of_ne (fun t => by rw [hf]) fun t ht => decide_eq_false fun h =>
      hname ?_
    exact h.symm.trans (of_decide_eq_true ht)

/-- A change of the columns of a table and of its rows. -/
theorem Store.Conforms.alter (h : s.Conforms) (name : Text) {f : TableSchema ν → TableSchema ν}
    (hf : ∀ t, (f t).name = t.name) (rows : List (Row ν))
    (hrows : ∀ t, s.schema.table? name = some t →
      ∀ row ∈ rows, List.Forall₂ Column.Takes (f t).columns row)
    (habsent : s.schema.table? name = none → rows = []) :
    Store.Conforms ⟨s.schema.alterTable name f, Function.update s.rows name rows⟩ := by
  have htable : ∀ other, (s.schema.alterTable name f).table? other =
      if other = name then (s.schema.table? other).map f else s.schema.table? other :=
        Schema.table?_alterTable hf
  constructor
  · intro other t ht
    dsimp only at ht ⊢
    rw [htable] at ht
    by_cases hother : other = name
    · subst hother
      rw [if_pos rfl] at ht
      obtain ⟨t₀, ht₀, rfl⟩ := Option.map_eq_some_iff.1 ht
      rw [Function.update_self]
      exact hrows t₀ ht₀
    · rw [if_neg hother] at ht
      rw [Function.update_of_ne hother]
      exact h.rows other t ht
  · intro other ht
    dsimp only at ht ⊢
    rw [htable] at ht
    by_cases hother : other = name
    · subst hother
      rw [if_pos rfl] at ht
      rw [Function.update_self]
      exact habsent (Option.map_eq_none_iff.1 ht)
    · rw [if_neg hother] at ht
      rw [Function.update_of_ne hother]
      exact h.absent other ht

/-- A change of the rows of a table. -/
theorem Store.Conforms.updateRows {t : TableSchema ν} (h : s.Conforms)
    (ht : s.schema.table? name = some t) {rows : List (Row ν)}
    (hrows : ∀ row ∈ rows, List.Forall₂ Column.Takes t.columns row) :
    Store.Conforms ⟨s.schema, Function.update s.rows name rows⟩ := by
  have hself : s.schema.alterTable name id = s.schema := by
    rw [Schema.alterTable, alterFirst_eq_self ht rfl]
  have halter := h.alter name (f := id) (fun _ => rfl) rows (fun t' ht' row hrow => ?_)
    fun hnone => (by cases ht.symm.trans hnone)
  · rw [hself] at halter
    exact halter
  · obtain rfl := Option.some.inj (ht.symm.trans ht')
    exact hrows row hrow

/-- A change of a column that the rows are as good for as they were. -/
theorem Store.Conforms.alterColumn {t : TableSchema ν} {column : Text} {f : Column ν → Column ν}
    (h : s.Conforms) (ht : s.schema.table? name = some t)
    (hrows : ∀ row ∈ s.rows name,
      List.Forall₂ Column.Takes (t.alterColumn column f).columns row) :
    Store.Conforms ⟨s.schema.alterColumn name column f, s.rows⟩ := by
  have halter := h.alter name (f := (·.alterColumn column f)) (fun _ => rfl) (s.rows name)
    (fun t' ht' row hrow => ?_) fun hnone => (by cases ht.symm.trans hnone)
  · rw [Function.update_eq_self] at halter
    exact halter
  · obtain rfl := Option.some.inj (ht.symm.trans ht')
    exact hrows row hrow

/-- A further table; it has no rows unless one of its name comes before it. -/
theorem Store.Conforms.addTable (t : TableSchema ν) (h : s.Conforms) :
    Store.Conforms ⟨{ s.schema with tables := s.schema.tables ++ [t] }, s.rows⟩ := by
  have hfind : ∀ name, Schema.table? { s.schema with tables := s.schema.tables ++ [t] } name =
      (s.schema.table? name).or (if t.name = name then some t else none) := by
    intro name
    rw [Schema.table?, List.find?_append, Schema.table?, List.find?_singleton]
    simp only [decide_eq_true_eq]
  constructor
  · intro name t' ht' row hrow
    rw [hfind] at ht'
    cases htable : s.schema.table? name with
    | some t₀ =>
      rw [htable, Option.some_or] at ht'
      exact h.rows name t' (htable.trans ht') row hrow
    | none =>
      rw [h.absent name htable] at hrow
      exact absurd hrow List.not_mem_nil
  · intro name ht'
    rw [hfind, Option.or_eq_none_iff] at ht'
    exact h.absent name ht'.1

/-! ### Insertions -/

/-- An `INSERT` of a row that names the columns it has values for. -/
structure Insert (ν : Type) where
  table : Text
  values : List (Text × Option ν)

namespace Insert

/-- The value for a column that is not named comes from its default. -/
def valueFor (i : Insert ν) (evaluated : Text → ν) (c : Column ν) : Option ν :=
  match i.values.find? fun v => decide (v.1 = c.name), c.default with
  | some v, _ => v.2
  | none, some (.value v) => some v
  | none, some (.expression text) => some (evaluated text)
  | none, none => none

/-- The row that is inserted, unless the schema refuses it. -/
def row? (i : Insert ν) (evaluated : Text → ν) (s : Schema ν) : Option (Row ν) :=
  (s.table? i.table).bind fun t =>
    if (i.values.all fun v => (t.column? v.1).isSome) &&
        t.columns.all fun c => c.takes (i.valueFor evaluated c) then
      some (t.columns.map (i.valueFor evaluated))
    else none

def exec (i : Insert ν) (evaluated : Text → ν) (s : Store ν) : Option (Store ν) :=
  (i.row? evaluated s.schema).map fun row =>
    { s with rows := Function.update s.rows i.table (s.rows i.table ++ [row]) }

end Insert

/-- The other table has all columns of this one, in the same order, and those that it has more are
not needed. -/
def TableSchema.extendedBy (t t' : TableSchema ν) : Bool :=
  decide (t'.columns.take t.columns.length = t.columns ∧ t'.constraints = t.constraints) &&
    (t'.columns.drop t.columns.length).all fun c => (t.column? c.name).isNone && c.omittable

def Schema.extendedBy (s s' : Schema ν) : Bool :=
  s.tables.all fun t => (s'.table? t.name).any t.extendedBy

omit [DecidableEq ν] in
theorem table?_name {s : Schema ν} {t : TableSchema ν} (ht : s.table? name = some t) :
    t.name = name := by
  simpa using List.find?_some ht

theorem extendedBy_table {s s' : Schema ν} {t : TableSchema ν} (h : s.extendedBy s' = true)
    (ht : s.table? name = some t) : ∃ t', s'.table? name = some t' ∧ t.extendedBy t' = true := by
  have hany := List.all_eq_true.1 h t (List.mem_of_find?_eq_some ht)
  rw [table?_name ht] at hany
  exact (Option.any_eq_true _ _).1 hany

theorem extendedBy_columns {t t' : TableSchema ν} (h : t.extendedBy t' = true) :
    t'.constraints = t.constraints ∧ ∃ more, t'.columns = t.columns ++ more ∧
      ∀ c ∈ more, t.column? c.name = none ∧ c.omittable = true := by
  rw [TableSchema.extendedBy, Bool.and_eq_true, decide_eq_true_eq, List.all_eq_true] at h
  obtain ⟨⟨hcolumns, hconstraints⟩, hmore⟩ := h
  refine ⟨hconstraints, t'.columns.drop t.columns.length, ?_, fun c hc => ?_⟩
  · have hsplit := List.take_append_drop t.columns.length t'.columns
    rw [hcolumns] at hsplit
    exact hsplit.symm
  · have hcolumn := hmore c hc
    rwa [Bool.and_eq_true, Option.isNone_iff_eq_none] at hcolumn

theorem extendedBy_of_columns {t t' : TableSchema ν} {more : List (Column ν)}
    (hconstraints : t'.constraints = t.constraints) (hcolumns : t'.columns = t.columns ++ more)
    (hmore : ∀ c ∈ more, t.column? c.name = none ∧ c.omittable = true) :
    t.extendedBy t' = true := by
  rw [TableSchema.extendedBy, hcolumns, List.take_left, List.drop_left, Bool.and_eq_true,
    decide_eq_true_eq, List.all_eq_true]
  refine ⟨⟨rfl, hconstraints⟩, fun c hc => ?_⟩
  rw [Bool.and_eq_true, Option.isNone_iff_eq_none]
  exact hmore c hc

omit [DecidableEq ν] in
theorem column?_append_eq_none {t t' : TableSchema ν} {more : List (Column ν)}
    (hcolumns : t'.columns = t.columns ++ more) (h : t'.column? name = none) :
    t.column? name = none := by
  rw [TableSchema.column?, hcolumns, List.find?_append, Option.or_eq_none_iff] at h
  exact h.1

theorem TableSchema.extendedBy_trans {t t' t'' : TableSchema ν} (h : t.extendedBy t' = true)
    (h' : t'.extendedBy t'' = true) : t.extendedBy t'' = true := by
  obtain ⟨hconstraints, more, hcolumns, hmore⟩ := extendedBy_columns h
  obtain ⟨hconstraints', more', hcolumns', hmore'⟩ := extendedBy_columns h'
  have hall : t''.columns = t.columns ++ (more ++ more') := by rw [hcolumns', hcolumns,
    List.append_assoc]
  refine extendedBy_of_columns (hconstraints'.trans hconstraints) hall fun c hc => ?_
  rcases List.mem_append.1 hc with hc | hc
  · exact hmore c hc
  · exact ⟨column?_append_eq_none hcolumns (hmore' c hc).1, (hmore' c hc).2⟩

theorem Schema.extendedBy_trans {s s' s'' : Schema ν} (h : s.extendedBy s' = true)
    (h' : s'.extendedBy s'' = true) : s.extendedBy s'' = true := by
  refine List.all_eq_true.2 fun t ht => ?_
  obtain ⟨t', ht', hextended⟩ := (Option.any_eq_true _ _).1 (List.all_eq_true.1 h t ht)
  obtain ⟨t'', ht'', hextended'⟩ := extendedBy_table h' ht'
  exact (Option.any_eq_true _ _).2 ⟨t'', ht'', TableSchema.extendedBy_trans hextended hextended'⟩

namespace Insert

variable {i : Insert ν} {evaluated : Text → ν}

theorem row?_eq_some {s : Schema ν} : i.row? evaluated s = some row ↔
    ∃ t, s.table? i.table = some t ∧ (∀ v ∈ i.values, (t.column? v.1).isSome = true) ∧
      (∀ c ∈ t.columns, c.Takes (i.valueFor evaluated c)) ∧
        t.columns.map (i.valueFor evaluated) = row := by
  rw [row?, Option.bind_eq_some_iff]
  refine exists_congr fun t => and_congr_right fun _ => ?_
  rw [Option.ite_none_right_eq_some, Bool.and_eq_true, List.all_eq_true, List.all_eq_true,
    Option.some.injEq, and_assoc]
  rfl

/-- A column that may be left out takes what is written then. -/
private theorem takes_valueFor (hc : c.omittable = true)
    (hunnamed : (i.values.find? fun v => decide (v.1 = c.name)) = none) :
    c.Takes (i.valueFor evaluated c) := by
  rw [Column.omittable] at hc
  rw [valueFor, hunnamed]
  cases hdefault : c.default with
  | none =>
    rw [hdefault, Column.initial, hdefault] at hc
    exact hc
  | some d =>
    rw [hdefault] at hc
    cases d with
    | value v =>
      rw [Column.initial, hdefault] at hc
      exact hc
    | expression text => exact Column.takes_of_oneOf (Option.isNone_iff_eq_none.1 hc) _

/-- What a schema accepts is accepted by those that extend it; what is written then begins with the
same values. -/
theorem row?_of_extendedBy {s s' : Schema ν} (h : s.extendedBy s' = true)
    (hrow : i.row? evaluated s = some row) :
    ∃ more, i.row? evaluated s' = some (row ++ more) := by
  obtain ⟨t, ht, hnamed, htakes, rfl⟩ := row?_eq_some.1 hrow
  obtain ⟨t', ht', hextended⟩ := extendedBy_table h ht
  obtain ⟨-, more, hcolumns, hmore⟩ := extendedBy_columns hextended
  refine ⟨more.map (i.valueFor evaluated),
    row?_eq_some.2 ⟨t', ht', fun v hv => ?_, fun c hc => ?_, ?_⟩⟩
  · rw [TableSchema.column?, hcolumns, List.find?_append, Option.isSome_or, Bool.or_eq_true]
    exact .inl (hnamed v hv)
  · rw [hcolumns] at hc
    rcases List.mem_append.1 hc with hc | hc
    · exact htakes c hc
    · -- a column that the statement does not know is not named in it
      have hunnamed : (i.values.find? fun v => decide (v.1 = c.name)) = none := by
        refine List.find?_eq_none.2 fun v hv hname => ?_
        have hthere := hnamed v hv
        rw [of_decide_eq_true hname, (hmore c hc).1] at hthere
        cases hthere
      exact takes_valueFor (hmore c hc).2 hunnamed
  · rw [hcolumns, List.map_append]

theorem exec_eq_some : i.exec evaluated s = some s' ↔ ∃ row, i.row? evaluated s.schema = some row ∧
    s' = { s with rows := Function.update s.rows i.table (s.rows i.table ++ [row]) } := by
  rw [exec, Option.map_eq_some_iff]
  exact exists_congr fun row => and_congr_right fun _ => eq_comm

theorem exec_conforms (hs : s.Conforms) (h : i.exec evaluated s = some s') : s'.Conforms := by
  obtain ⟨row, hrow, rfl⟩ := exec_eq_some.1 h
  obtain ⟨t, ht, -, htakes, rfl⟩ := row?_eq_some.1 hrow
  refine hs.updateRows ht fun row hrow => ?_
  rcases List.mem_append.1 hrow with hrow | hrow
  · exact hs.rows i.table t ht row hrow
  · rw [List.mem_singleton.1 hrow, List.forall₂_map_right_iff]
    exact List.forall₂_same.2 htakes

end Insert

/-! ### One statement -/

namespace Ddl

/-- The effect of a statement is there. -/
def done (s : Schema ν) : Ddl ν → Bool
  | createTable t => (s.table? t.name).isSome
  | createIndex i => s.indexes.any fun j => decide (j.name = i.name)
  | addColumn table c => (s.column? table c.name).isSome
  | fill table column _ => (s.column? table column).any fun c => c.notNull && c.oneOf.isNone
  | setNotNull table column => (s.column? table column).any (·.notNull)
  | setDefault table column v => (s.column? table column).any fun c =>
    decide (c.default = some (.value v))

theorem exec_eq_some : d.exec s = some s' ↔ d.applied s.schema = some s'.schema ∧
    d.appliedRows s = some s'.rows := by
  rw [exec, Option.bind_eq_some_iff]
  constructor
  · rintro ⟨schema, hschema, hmap⟩
    obtain ⟨rows, hrows, rfl⟩ := Option.map_eq_some_iff.1 hmap
    exact ⟨hschema, hrows⟩
  · rintro ⟨hschema, hrows⟩
    exact ⟨s'.schema, hschema, Option.map_eq_some_iff.2 ⟨s'.rows, hrows, rfl⟩⟩

omit [DecidableEq ν] in
theorem column?_eq_some {s : Schema ν} {table column : Text} : s.column? table column = some c ↔
    ∃ t, s.table? table = some t ∧ t.columns.find? (fun c => decide (c.name = column)) = some c :=
  Option.bind_eq_some_iff

omit [DecidableEq ν] in
theorem alterColumn_eq_self {s : Schema ν} {table column : Text} {f : Column ν → Column ν}
    (hc : s.column? table column = some c) (hf : f c = c) : s.alterColumn table column f = s := by
  obtain ⟨t, ht, hc⟩ := column?_eq_some.1 hc
  have hcolumns : t.alterColumn column f = t := by rw [TableSchema.alterColumn,
    alterFirst_eq_self hc hf]
  rw [Schema.alterColumn, Schema.alterTable, alterFirst_eq_self ht hcolumns]

/-- A statement whose effect is there already changes nothing. -/
theorem exec_of_done (h : d.done s.schema = true) (hs : s.Conforms) : d.exec s = some s := by
  rw [exec_eq_some]
  cases d with
  | createTable t => exact ⟨if_pos h, rfl⟩
  | createIndex i => exact ⟨if_pos h, rfl⟩
  | addColumn table c =>
    obtain ⟨c', hc'⟩ := Option.isSome_iff_exists.1 h
    obtain ⟨t, ht, hfound⟩ := column?_eq_some.1 hc'
    refine ⟨?_, if_pos h⟩
    rw [applied, ht]
    exact if_pos (Option.isSome_iff_exists.2 ⟨c', hfound⟩)
  | fill table column value =>
    obtain ⟨c, hc, hboth⟩ := (Option.any_eq_true _ _).1 h
    obtain ⟨hnull, hcheck⟩ := Bool.and_eq_true_iff.1 hboth
    obtain ⟨t, ht, hfound⟩ := column?_eq_some.1 hc
    refine ⟨if_pos ((Option.any_eq_true _ _).2 ⟨c, hc, hcheck⟩), ?_⟩
    rw [appliedRows, ht]
    have hsame : ((s.rows table).map fun row =>
      setAt column (fun v => some (v.getD (value s row))) t.columns row) = s.rows table := by
      refine (List.map_congr_left fun row hrow => ?_).trans (List.map_id _)
      obtain ⟨v, hv⟩ := Option.isSome_iff_exists.1
        (valueAt_isSome (hs.rows table t ht row hrow) hfound hnull)
      exact setAt_eq_self (by rw [hv]; rfl)
    dsimp only
    rw [hsame, Function.update_eq_self]
  | setNotNull table column =>
    obtain ⟨c, hc, hnull⟩ := (Option.any_eq_true _ _).1 h
    obtain ⟨t, ht, hfound⟩ := column?_eq_some.1 hc
    constructor
    · have hself : ({ c with notNull := true } : Column ν) = c := by rw [← hnull]
      rw [applied, if_pos (Option.isSome_iff_exists.2 ⟨c, hc⟩), alterColumn_eq_self hc hself]
    · refine if_neg fun hany => ?_
      obtain ⟨row, hrow, hnone⟩ := List.any_eq_true.1 hany
      have hvalue := valueAt_isSome (hs.rows table t ht row hrow) hfound hnull
      rw [Store.valueAt, ht, Option.bind_some, Option.isNone_iff_eq_none] at hnone
      rw [hnone] at hvalue
      cases hvalue
  | setDefault table column v =>
    obtain ⟨c, hc, hdefault⟩ := (Option.any_eq_true _ _).1 h
    have hself : ({ c with default := some (.value v) } : Column ν) =
      c := by rw [← of_decide_eq_true hdefault]
    refine ⟨?_, rfl⟩
    rw [applied, if_pos (Option.isSome_iff_exists.2 ⟨c, hc⟩), alterColumn_eq_self hc hself]

theorem exec_conforms (hs : s.Conforms) (h : d.exec s = some s') : s'.Conforms := by
  obtain ⟨hschema, hrows⟩ := exec_eq_some.1 h
  obtain ⟨schema', rows'⟩ := s'
  dsimp only at hschema hrows
  cases d with
  | createTable t =>
    obtain rfl := Option.some.inj hrows
    rw [applied] at hschema
    split at hschema
    · obtain rfl := Option.some.inj hschema
      exact ⟨hs.rows, hs.absent⟩
    · obtain rfl := Option.some.inj hschema
      exact hs.addTable t
  | createIndex i =>
    obtain rfl := Option.some.inj hrows
    rw [applied] at hschema
    split at hschema
    · obtain rfl := Option.some.inj hschema
      exact ⟨hs.rows, hs.absent⟩
    · obtain ⟨-, hschema⟩ := Option.ite_none_right_eq_some.1 hschema
      obtain rfl := Option.some.inj hschema
      exact ⟨hs.rows, hs.absent⟩
  | addColumn table c =>
    rw [applied] at hschema
    split at hschema
    · cases hschema
    · rename_i t ht
      have hcolumn : s.schema.column? table c.name = t.column? c.name := by
        rw [Schema.column?, ht, Option.bind_some]
      rw [appliedRows, hcolumn] at hrows
      by_cases hthere : (t.column? c.name).isSome = true
      · rw [if_pos hthere] at hschema hrows
        obtain rfl := Option.some.inj hschema
        obtain rfl := Option.some.inj hrows
        exact ⟨hs.rows, hs.absent⟩
      · rw [if_neg hthere] at hschema hrows
        obtain ⟨hallowed, hrows⟩ := Option.ite_none_left_eq_some.1 hrows
        obtain rfl := Option.some.inj hschema
        obtain rfl := Option.some.inj hrows
        refine hs.alter table (f := (·.addColumn c)) (fun t => rfl) _ (fun t' ht' row hrow => ?_)
          fun hnone => ?_
        · obtain ⟨row₀, hrow₀, rfl⟩ := List.mem_map.1 hrow
          have hvalue : c.Takes c.initial := by
            by_contra hnot
            refine hallowed ?_
            rw [Bool.and_eq_true, Bool.not_eq_true', Bool.not_eq_true', List.isEmpty_eq_false_iff]
            exact ⟨Bool.eq_false_iff.2 hnot, List.ne_nil_of_mem hrow₀⟩
          exact List.rel_append (hs.rows table t' ht' row₀ hrow₀) (.cons hvalue .nil)
        · cases ht.symm.trans hnone
  | fill table column value =>
    obtain ⟨hthere, hschema⟩ := Option.ite_none_right_eq_some.1 hschema
    obtain ⟨c, hc, hcheck⟩ := (Option.any_eq_true _ _).1 hthere
    obtain rfl := Option.some.inj hschema
    rw [appliedRows] at hrows
    split at hrows
    · cases hrows
    · rename_i t ht
      obtain rfl := Option.some.inj hrows
      refine hs.updateRows ht fun row hrow => ?_
      obtain ⟨row₀, hrow₀, rfl⟩ := List.mem_map.1 hrow
      refine takes_setAt (fun _ => rfl) (fun c' hc' => ?_) (hs.rows table t ht row₀ hrow₀)
      obtain ⟨t', ht', hfound⟩ := column?_eq_some.1 hc
      obtain rfl := Option.some.inj (ht.symm.trans ht')
      obtain rfl := Option.some.inj (hfound.symm.trans hc')
      exact Option.isNone_iff_eq_none.1 hcheck
  | setNotNull table column =>
    obtain ⟨hthere, hschema⟩ := Option.ite_none_right_eq_some.1 hschema
    obtain ⟨hvalues, hrows⟩ := Option.ite_none_left_eq_some.1 hrows
    obtain rfl := Option.some.inj hschema
    obtain rfl := Option.some.inj hrows
    obtain ⟨c, hc⟩ := Option.isSome_iff_exists.1 hthere
    obtain ⟨t, ht, -⟩ := column?_eq_some.1 hc
    refine hs.alterColumn ht fun row hrow => takes_notNull (hs.rows table t ht row hrow) ?_
    by_contra hnone
    refine hvalues (List.any_eq_true.2 ⟨row, hrow, ?_⟩)
    rw [Store.valueAt, ht, Option.bind_some]
    simpa using hnone
  | setDefault table column v =>
    obtain ⟨hthere, hschema⟩ := Option.ite_none_right_eq_some.1 hschema
    obtain rfl := Option.some.inj hschema
    obtain rfl := Option.some.inj hrows
    obtain ⟨c, hc⟩ := Option.isSome_iff_exists.1 hthere
    obtain ⟨t, ht, -⟩ := column?_eq_some.1 hc
    exact hs.alterColumn ht fun row hrow => takes_default (hs.rows table t ht row hrow)

end Ddl

/-! ### Values stay -/

/-- A value stays where it is; `NULL` may give way to a value. -/
def Row.Keeps (row row' : Row ν) : Prop := ∀ (i : Nat) (v : ν), row[i]? = some (some v) →
    row'[i]? = some (some v)

/-- The tables have the rows that they had, each with its values. -/
def Store.Keeps (s s' : Store ν) : Prop :=
  ∀ name, List.Forall₂ Row.Keeps (s.rows name) (s'.rows name)

omit [DecidableEq ν] in
theorem Store.Keeps.refl (s : Store ν) : s.Keeps s :=
  fun _ => List.forall₂_same.2 fun _ _ _ _ h => h

omit [DecidableEq ν] in
theorem Store.Keeps.trans {s'' : Store ν} (h : s.Keeps s') (h' : s'.Keeps s'') : s.Keeps s'' := by
  intro name
  have hrows := h name
  have hrows' := h' name
  generalize s.rows name = rows, s'.rows name = rows', s''.rows name = rows'' at hrows hrows'
  induction hrows generalizing rows'' with
  | nil => cases hrows' with | nil => exact .nil
  | cons hrow _ ih =>
    cases hrows' with
    | cons hrow' hrest => exact .cons (fun i v hv => hrow' i v (hrow i v hv)) (ih _ hrest)

omit [DecidableEq ν] in
theorem keeps_setAt (hf : ∀ v, f (some v) = some v) : Row.Keeps row (setAt name f cs row) := by
  induction cs generalizing row with
  | nil => cases row <;> exact fun _ _ h => h
  | cons b cs ih =>
    cases row with
    | nil => exact fun _ _ h => h
    | cons v vs =>
      rw [setAt]
      split
      · rintro (_ | i) w hw
        · rw [List.getElem?_cons_zero, Option.some.injEq] at hw ⊢
          rw [hw, hf]
        · exact hw
      · rintro (_ | i) w hw
        · exact hw
        · exact ih i w hw

namespace Ddl

theorem exec_keeps (h : d.exec s = some s') : s.Keeps s' := by
  obtain ⟨-, hrows⟩ := exec_eq_some.1 h
  have hsame : some s.rows = some s'.rows → s.Keeps s' := by
    intro heq name
    rw [← Option.some.inj heq]
    exact Store.Keeps.refl s name
  have hupdate : ∀ {table : Text} {g : Row ν → Row ν}, (∀ row : Row ν, row.Keeps (g row)) →
      some (Function.update s.rows table ((s.rows table).map g)) = some s'.rows → s.Keeps s' := by
    intro table g hg heq name
    rw [← Option.some.inj heq]
    by_cases hname : name = table
    · subst hname
      rw [Function.update_self, List.forall₂_map_right_iff]
      exact List.forall₂_same.2 fun row _ => hg row
    · rw [Function.update_of_ne hname]
      exact Store.Keeps.refl s name
  cases d with
  | addColumn table c =>
    rw [appliedRows] at hrows
    split at hrows
    · exact hsame hrows
    · obtain ⟨-, hrows⟩ := Option.ite_none_left_eq_some.1 hrows
      refine hupdate (fun row i v hv => ?_) hrows
      obtain ⟨hi, -⟩ := List.getElem?_eq_some_iff.1 hv
      rw [List.getElem?_append_left hi, hv]
  | fill table column value =>
    rw [appliedRows] at hrows
    split at hrows
    · cases hrows
    · exact hupdate (fun row => keeps_setAt fun v => rfl) hrows
  | setNotNull table column =>
    obtain ⟨-, hrows⟩ := Option.ite_none_left_eq_some.1 hrows
    exact hsame hrows
  | _ => exact hsame hrows

/-! ### Transactions -/

variable {ds : List (Ddl ν)}

/-- Statements whose effects are there already change nothing. -/
theorem execAll_of_done (h : ∀ d ∈ ds, d.done s.schema = true) (hs : s.Conforms) :
    execAll ds s = some s := by
  induction ds with
  | nil => rfl
  | cons d ds ih =>
    rw [execAll, exec_of_done (h d List.mem_cons_self) hs]
    exact ih fun d' hd' => h d' (List.mem_cons_of_mem _ hd')

theorem execAll_spec (hs : s.Conforms) (h : execAll ds s = some s') :
    appliedAll ds s.schema = some s'.schema ∧ s'.Conforms ∧ s.Keeps s' := by
  induction ds generalizing s with
  | nil =>
    obtain rfl := Option.some.inj h
    exact ⟨rfl, hs, .refl s⟩
  | cons d ds ih =>
    obtain ⟨next, hnext, hrest⟩ := Option.bind_eq_some_iff.1 h
    obtain ⟨hschema, hconforms, hkeeps⟩ := ih (exec_conforms hs hnext) hrest
    refine ⟨?_, hconforms, (exec_keeps hnext).trans hkeeps⟩
    rw [appliedAll, (exec_eq_some.1 hnext).1]
    exact hschema

theorem exec_addColumn {table : Text} {t : TableSchema ν} (ht : s.schema.table? table = some t)
    (hnew : t.column? c.name = none) (h : (addColumn table c).exec s = some s') :
    s'.schema = s.schema.alterTable table (·.addColumn c) ∧
      s'.rows = Function.update s.rows table ((s.rows table).map fun row =>
        row ++ [c.initial]) := by
  obtain ⟨hschema, hrows⟩ := exec_eq_some.1 h
  have hcolumn : ¬(t.column? c.name).isSome = true := by rw [hnew]; exact Bool.false_ne_true
  rw [applied, ht] at hschema
  dsimp only at hschema
  rw [if_neg hcolumn] at hschema
  rw [appliedRows, Schema.column?, ht, Option.bind_some, if_neg hcolumn] at hrows
  exact ⟨(Option.some.inj hschema).symm,
    (Option.some.inj (Option.ite_none_left_eq_some.1 hrows).2).symm⟩

/-- A column that is added and then filled. -/
theorem rows_of_fill {table : Text} {t : TableSchema ν} {value : Store ν → Row ν → ν}
    (hs : s.Conforms) (ht : s.schema.table? table = some t) (hnew : t.column? c.name = none)
    (hvalue : c.initial = none)
    (h : execAll [addColumn table c, fill table c.name value] s = some s') :
    ∃ added, (addColumn table c).exec s = some added ∧
      s'.rows = Function.update s.rows table ((s.rows table).map fun row =>
        row ++ [some (value added (row ++ [none]))]) := by
  obtain ⟨added, hadded, hrest⟩ := Option.bind_eq_some_iff.1 h
  obtain ⟨filled, hfilled, hrest⟩ := Option.bind_eq_some_iff.1 hrest
  obtain rfl := Option.some.inj hrest
  refine ⟨added, hadded, ?_⟩
  obtain ⟨hschema, hrows⟩ := exec_addColumn ht hnew hadded
  have htable : added.schema.table? table = some (t.addColumn c) := by
    rw [hschema, Schema.table?_alterTable (f := (·.addColumn c)) (fun _ => rfl), if_pos rfl, ht]
    rfl
  obtain ⟨-, hrows'⟩ := exec_eq_some.1 hfilled
  rw [appliedRows, htable] at hrows'
  dsimp only at hrows'
  rw [← Option.some.inj hrows', hrows, Function.update_idem, Function.update_self, List.map_map]
  congr 1
  refine List.map_congr_left fun row hrow => ?_
  rw [Function.comp_apply, hvalue, TableSchema.addColumn,
    setAt_append (hs.rows table t ht row hrow) hnew, setAt, if_pos rfl]
  rfl

/-- A column comes with a value that it may have, or is filled just before it may not be `NULL`. -/
def careful : List (Ddl ν) → Bool
  | fill table column _ :: setNotNull table' column' :: ds =>
  decide (table = table' ∧ column = column') && careful ds
  | setNotNull _ _ :: _ => false
  | addColumn _ c :: ds => c.takes c.initial && careful ds
  | _ :: ds => careful ds
  | [] => true

/-- After a column has been filled it may be declared to be without `NULL`. -/
theorem setNotNull_of_fill {table column : Text} {value : Store ν → Row ν → ν} (hs : s.Conforms)
    (h : (fill table column value).exec s = some s') :
    ((setNotNull table column).exec s').isSome = true := by
  obtain ⟨hschema, hrows⟩ := exec_eq_some.1 h
  obtain ⟨hthere, hschema⟩ := Option.ite_none_right_eq_some.1 hschema
  have hsame : s'.schema = s.schema := (Option.some.inj hschema).symm
  obtain ⟨c, hc, -⟩ := (Option.any_eq_true _ _).1 hthere
  obtain ⟨t, ht, hfound⟩ := column?_eq_some.1 hc
  have hfilled : ((s'.rows table).any fun row => (s'.valueAt table column row).isNone) = false := by
    rw [appliedRows, ht] at hrows
    rw [← Option.some.inj hrows, Function.update_self, List.any_map, List.any_eq_false]
    intro row hrow
    rw [Function.comp_apply, Store.valueAt, hsame, ht, Option.bind_some,
      valueAt_setAt (hs.rows table t ht row hrow) (Option.isSome_iff_exists.2 ⟨c, hfound⟩)]
    simp
  rw [exec, applied, hsame, if_pos (Option.isSome_iff_exists.2 ⟨c, hc⟩), appliedRows, hfilled]
  rfl

theorem appliedRows_fill {table column : Text} {value : Store ν → Row ν → ν}
    (h : ((fill table column value).applied s.schema).isSome = true) :
    ((fill table column value).appliedRows s).isSome = true := by
  obtain ⟨schema', hschema⟩ := Option.isSome_iff_exists.1 h
  obtain ⟨c, hc, -⟩ := (Option.any_eq_true _ _).1 (Option.ite_none_right_eq_some.1 hschema).1
  obtain ⟨t, ht, -⟩ := column?_eq_some.1 hc
  rw [appliedRows, ht]
  rfl

/-- Careful statements fail for the schema only. -/
theorem execAll_isSome (hcareful : careful ds = true) (hs : s.Conforms)
    (h : (appliedAll ds s.schema).isSome = true) :
    (execAll ds s).isSome = true := by
  have hstep : ∀ {d : Ddl ν} {ds : List (Ddl ν)} {s : Store ν}, s.Conforms →
    (appliedAll (d :: ds) s.schema).isSome = true →
      (d.appliedRows s).isSome = true →
        (∀ s', d.exec s = some s' → s'.Conforms → (appliedAll ds s'.schema).isSome = true →
          (execAll ds s').isSome = true) →
          (execAll (d :: ds) s).isSome = true := by
    intro d ds s hs h hrows ih
    rw [appliedAll] at h
    obtain ⟨schema', hschema⟩ := Option.isSome_iff_exists.1 (Option.isSome_of_isSome_bind h)
    obtain ⟨rows', hrows⟩ := Option.isSome_iff_exists.1 hrows
    have hnext : d.exec s = some ⟨schema', rows'⟩ := exec_eq_some.2 ⟨hschema, hrows⟩
    rw [hschema] at h
    rw [execAll, hnext]
    exact ih _ hnext (exec_conforms hs hnext) h
  induction ds using careful.induct generalizing s with
  | case1 table column value table' column' ds ih =>
    rw [careful, Bool.and_eq_true, decide_eq_true_eq] at hcareful
    obtain ⟨⟨rfl, rfl⟩, hrest⟩ := hcareful
    refine hstep hs h ?_ fun s' hs' hconforms h' => ?_
    · exact appliedRows_fill (Option.isSome_of_isSome_bind h)
    · obtain ⟨next, hnext⟩ := Option.isSome_iff_exists.1 (setNotNull_of_fill hs hs')
      exact hstep hconforms h' (Option.isSome_iff_exists.2 ⟨_, (exec_eq_some.1 hnext).2⟩)
        fun s'' _ hconforms' h'' => ih hrest hconforms' h''
  | case2 table column ds => cases hcareful
  | case3 table c ds ih =>
    rw [careful, Bool.and_eq_true] at hcareful
    refine hstep hs h ?_ fun s' _ hconforms h' => ih hcareful.2 hconforms h'
    rw [appliedRows]
    split
    · rfl
    · rw [hcareful.1]
      rfl
  | case4 d ds hfill hnull hadd ih =>
    have hrest : careful ds = true := by
      rw [careful] at hcareful
      · exact hcareful
      all_goals assumption
    refine hstep hs h ?_ fun s' _ hconforms h' => ih hrest hconforms h'
    cases d with
    | fill table column value => exact appliedRows_fill (Option.isSome_of_isSome_bind h)
    | setNotNull table column => exact (hnull table column rfl).elim
    | addColumn table c => exact (hadd table c rfl).elim
    | _ => rfl
  | case5 => rfl

end Ddl

end

end

end Foundations
