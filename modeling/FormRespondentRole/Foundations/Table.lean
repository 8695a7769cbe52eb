import Mathlib

/-!
# Tables with a primary key

A table is the list of its rows, with distinct keys.  An `UPDATE` assigns to columns outside the
key, and an `INSERT` needs a key that is not taken, so every statement on a table gives a
table. -/

namespace Foundations

structure Table {ρ κ : Type} (key : ρ → κ) where
  rows : List ρ
  nodup : (rows.map key).Nodup

/-- An assignment to columns outside the primary key. -/
structure SetClause {ρ κ : Type} (key : ρ → κ) where
  set : ρ → ρ
  key_set : ∀ row, key (set row) = key row

namespace Table

variable {ρ κ : Type} {key : ρ → κ}

def empty : Table key := ⟨[], List.nodup_nil⟩

/-- `UPDATE … SET … WHERE …`. -/
def update (t : Table key) (p : ρ → Bool) (c : SetClause key) : Table key where
  rows := t.rows.map fun row => if p row then c.set row else row
  nodup := by
    rw [List.map_map]
    have hkey : (key ∘ fun row => if p row then c.set row else row) = key := by
      funext row
      simp only [Function.comp]
      split
      · exact c.key_set row
      · rfl
    rw [hkey]
    exact t.nodup

def insert (t : Table key) (row : ρ) (h : key row ∉ t.rows.map key) : Table key where
  rows := t.rows ++ [row]
  nodup := by
    rw [List.map_append, List.map_singleton, List.nodup_append]
    refine ⟨t.nodup, List.nodup_singleton _, ?_⟩
    rintro k hk _ hk' rfl
    rw [List.mem_singleton] at hk'
    exact h (hk' ▸ hk)

@[simp] theorem insert_rows (t : Table key) (row : ρ) (h : key row ∉ t.rows.map key) :
    (t.insert row h).rows = t.rows ++ [row] := rfl

/-- `DELETE … WHERE …`. -/
def delete (t : Table key) (p : ρ → Bool) : Table key where
  rows := t.rows.filter fun row => !p row
  nodup := t.nodup.sublist (List.filter_sublist.map key)

theorem mem_delete {t : Table key} {p : ρ → Bool} {row : ρ} :
    row ∈ (t.delete p).rows ↔ row ∈ t.rows ∧ p row = false := by
  rw [delete, List.mem_filter, Bool.not_eq_true']

theorem eq_of_rows {t t' : Table key} (h : t.rows = t'.rows) : t = t' := by
  cases t
  cases t'
  cases h
  rfl

theorem delete_congr {t : Table key} {p q : ρ → Bool} (h : ∀ row ∈ t.rows, p row = q row) :
    t.delete p = t.delete q :=
  eq_of_rows (List.filter_congr fun row hrow => by rw [h row hrow])

theorem update_congr {t : Table key} {p q : ρ → Bool} {c : SetClause key}
    (h : ∀ row ∈ t.rows, p row = q row) :
    t.update p c = t.update q c :=
  eq_of_rows (List.map_congr_left fun row hrow => by rw [h row hrow])

theorem delete_of_not {t : Table key} {p : ρ → Bool} (hp : ∀ row ∈ t.rows, p row = false) :
    t.delete p = t :=
  eq_of_rows (List.filter_eq_self.2 fun row hrow => by rw [hp row hrow]; rfl)

theorem update_of_not {t : Table key} {p : ρ → Bool} {c : SetClause key}
    (hp : ∀ row ∈ t.rows, p row = false) :
    t.update p c = t := by
  refine eq_of_rows ((List.map_congr_left fun row hrow => ?_).trans (List.map_id _))
  rw [hp row hrow]
  rfl

theorem mem_update {t : Table key} {p : ρ → Bool} {c : SetClause key} {row : ρ} :
    row ∈ (t.update p c).rows ↔ ∃ row' ∈ t.rows, row = if p row' then c.set row' else row' := by
  simp only [update, List.mem_map, eq_comm (b := row)]

/-- Rows are determined by their keys. -/
theorem eq_of_key {t : Table key} {row row' : ρ} (h : row ∈ t.rows) (h' : row' ∈ t.rows)
    (hkey : key row = key row') :
    row = row' := List.inj_on_of_nodup_map t.nodup h h' hkey

/-- An update that keeps rows in or out of a selection acts on the selection. -/
theorem filter_update (t : Table key) (p : ρ → Bool) {q : ρ → Bool} {c : SetClause key}
    (hq : ∀ row, q (c.set row) = q row) :
    (t.update p c).rows.filter q = (t.rows.filter q).map fun row => if p row then c.set row
      else row := by
  rw [update, List.filter_map]
  have hcomp : (q ∘ fun row => if p row then c.set row else row) = q := by
    funext row
    simp only [Function.comp]
    split
    · exact hq row
    · rfl
  rw [hcomp]

theorem filter_update_of_not {t : Table key} {p q : ρ → Bool} {c : SetClause key}
    (hq : ∀ row, q (c.set row) = q row) (hp : ∀ row ∈ t.rows, q row = true → p row = false) :
    (t.update p c).rows.filter q = t.rows.filter q := by
  rw [filter_update t p hq]
  refine (List.map_congr_left fun row hrow => ?_).trans (List.map_id _)
  obtain ⟨hrow, hselected⟩ := List.mem_filter.1 hrow
  rw [hp row hrow hselected]
  rfl

/-- What a deletion leaves of a selection. -/
theorem filter_delete (t : Table key) (p q : ρ → Bool) :
    (t.delete p).rows.filter q = (t.rows.filter q).filter fun row => !p row := by
  rw [delete, List.filter_filter, List.filter_filter]
  exact List.filter_congr fun row _ => Bool.and_comm _ _

theorem filter_delete_of_not {t : Table key} {p q : ρ → Bool}
    (hp : ∀ row ∈ t.rows, q row = true → p row = false) :
    (t.delete p).rows.filter q = t.rows.filter q := by
  rw [filter_delete, List.filter_eq_self]
  intro row hrow
  obtain ⟨hrow, hselected⟩ := List.mem_filter.1 hrow
  rw [hp row hrow hselected]
  rfl

end Table

end Foundations
