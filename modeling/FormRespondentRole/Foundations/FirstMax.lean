import Mathlib

/-!
# The earliest maximum of a history

A history lists its entries newest first.  `FirstMax score history a` says that `a` is the earliest
of the entries with the greatest score.  A new entry takes its place just when its score is
greater. -/

namespace Foundations

variable {α β : Type*} [LinearOrder β] {score : α → β} {history : List α} {a b : α}

def FirstMax (score : α → β) (history : List α) (a : α) : Prop :=
  ∃ later earlier, history = later ++ a :: earlier ∧ (∀ b ∈ later, score b ≤ score a) ∧
    ∀ b ∈ earlier, score b < score a

theorem FirstMax.singleton (a : α) : FirstMax score [a] a :=
  ⟨[], [], rfl, fun _ h => absurd h List.not_mem_nil, fun _ h => absurd h List.not_mem_nil⟩

theorem FirstMax.mem (h : FirstMax score history a) : a ∈ history := by
  obtain ⟨later, earlier, rfl, -, -⟩ := h
  exact List.mem_append_right _ List.mem_cons_self

theorem FirstMax.le (h : FirstMax score history a) (hb : b ∈ history) : score b ≤ score a := by
  obtain ⟨later, earlier, rfl, hlater, hearlier⟩ := h
  rcases List.mem_append.1 hb with hb | hb
  · exact hlater b hb
  · rcases List.mem_cons.1 hb with rfl | hb
    · exact le_refl _
    · exact le_of_lt (hearlier b hb)

/-- A greater entry becomes the maximum. -/
theorem FirstMax.cons_of_lt (h : FirstMax score history a) (hlt : score a < score b) :
    FirstMax score (b :: history) b :=
  ⟨[], history, rfl, fun _ hc => absurd hc List.not_mem_nil, fun _ hc =>
    lt_of_le_of_lt (h.le hc) hlt⟩

/-- The maximum stays the maximum, also on a tie. -/
theorem FirstMax.cons_of_le (h : FirstMax score history a) (hle : score b ≤ score a) :
    FirstMax score (b :: history) a := by
  obtain ⟨later, earlier, rfl, hlater, hearlier⟩ := h
  refine ⟨b :: later, earlier, rfl, fun c hc => ?_, hearlier⟩
  rcases List.mem_cons.1 hc with rfl | hc
  · exact hle
  · exact hlater c hc

end Foundations
