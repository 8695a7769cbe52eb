import Mathlib

/-!
# Sets kept as strictly increasing lists

`SortedSet α` is an ordered set: a list that carries the proof that it is strictly
increasing. -/

namespace Foundations

structure SortedSet (α : Type*) [LinearOrder α] where
  toList : List α
  sorted : toList.Pairwise (· < ·)
deriving DecidableEq

namespace SortedSet

variable {α : Type*} [LinearOrder α]

instance : Membership α (SortedSet α) := ⟨fun s a => a ∈ s.toList⟩

instance (a : α) (s : SortedSet α) : Decidable (a ∈ s) := inferInstanceAs (Decidable (a ∈ s.toList))

theorem mem_def {a : α} {s : SortedSet α} : a ∈ s ↔ a ∈ s.toList := Iff.rfl

def empty : SortedSet α := ⟨[], List.Pairwise.nil⟩

def isEmpty (s : SortedSet α) : Bool := s.toList.isEmpty

private theorem pairwise_orderedInsert {a : α} {l : List α} (hl : l.Pairwise (· < ·)) (ha : a ∉ l) :
    (l.orderedInsert (· ≤ ·) a).Pairwise (· < ·) := by
  induction l with
  | nil => exact List.pairwise_singleton _ a
  | cons b l ih =>
    obtain ⟨hb, hl'⟩ := List.pairwise_cons.1 hl
    rw [List.mem_cons, not_or] at ha
    rw [List.orderedInsert_cons]
    split
    · rename_i hab
      have hlt : a < b := lt_of_le_of_ne hab ha.1
      refine List.pairwise_cons.2 ⟨fun c hc => ?_, hl⟩
      rcases List.mem_cons.1 hc with rfl | hc
      · exact hlt
      · exact hlt.trans (hb c hc)
    · rename_i hab
      refine List.pairwise_cons.2 ⟨fun c hc => ?_, ih hl' ha.2⟩
      rcases (List.mem_orderedInsert _).1 hc with rfl | hc
      · exact not_le.1 hab
      · exact hb c hc

def insert (s : SortedSet α) (a : α) : SortedSet α :=
  if h : a ∈ s.toList then s
    else ⟨s.toList.orderedInsert (· ≤ ·) a, pairwise_orderedInsert s.sorted h⟩

def extend (s : SortedSet α) (l : List α) : SortedSet α := l.foldl insert s

def ofList (l : List α) : SortedSet α := empty.extend l

@[simp] theorem mem_empty {a : α} : ¬ a ∈ (empty : SortedSet α) := List.not_mem_nil

@[simp] theorem mem_insert {s : SortedSet α} {a b : α} : b ∈ s.insert a ↔ b = a ∨ b ∈ s := by
  unfold insert
  split
  · rename_i h
    constructor
    · exact Or.inr
    · rintro (rfl | hb)
      · exact h
      · exact hb
  · exact List.mem_orderedInsert _

@[simp] theorem mem_extend {s : SortedSet α} {l : List α} {b : α} :
    b ∈ s.extend l ↔ b ∈ s ∨ b ∈ l := by
  unfold extend
  induction l generalizing s with
  | nil => simp
  | cons a l ih => rw [List.foldl_cons, ih, mem_insert, List.mem_cons, or_comm (a := b = a),
    or_assoc]

@[simp] theorem mem_ofList {l : List α} {b : α} : b ∈ ofList l ↔ b ∈ l := by
  simp [ofList]

theorem isEmpty_iff {s : SortedSet α} : s.isEmpty = true ↔ ∀ a, a ∉ s := by
  rw [isEmpty, List.isEmpty_iff, List.eq_nil_iff_forall_not_mem]
  rfl

end SortedSet

end Foundations
