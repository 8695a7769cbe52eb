import Mathlib.Data.List.Sort

/-!
# The first row of each key

`SELECT DISTINCT ON (key) … ORDER BY …` sorts the rows, and keeps the first of each key.
-/

namespace Foundations

variable {α κ ι : Type} [DecidableEq κ] {key : α → κ} {l : List α} {a b : α}

def firstOfEach (key : α → κ) : List α → List α
  | [] => []
  | a :: l => a :: (firstOfEach key l).filter fun b => decide (key b ≠ key a)

theorem firstOfEach_sublist : ∀ l : List α, (firstOfEach key l).Sublist l
  | [] => List.Sublist.slnil
  | a :: l => (List.filter_sublist.trans (firstOfEach_sublist l)).cons_cons a

theorem nodup_firstOfEach : ∀ l : List α, ((firstOfEach key l).map key).Nodup
  | [] => List.nodup_nil
  | a :: l => by
    refine List.nodup_cons.2 ⟨fun hmem => ?_,
      (nodup_firstOfEach l).sublist (List.filter_sublist.map key)⟩
    obtain ⟨b, hb, hkey⟩ := List.mem_map.1 hmem
    exact of_decide_eq_true (List.mem_filter.1 hb).2 hkey

/-- Each key has a row, none after another of the key. -/
theorem exists_firstOfEach {r : α → α → Prop} (hrefl : ∀ a, r a a) (hsorted : l.Pairwise r)
    (ha : a ∈ l) :
    ∃ b ∈ firstOfEach key l, key b = key a ∧ r b a := by
  induction l with
  | nil => exact absurd ha List.not_mem_nil
  | cons c l ih =>
    obtain ⟨hc, hl⟩ := List.pairwise_cons.1 hsorted
    rcases List.mem_cons.1 ha with rfl | ha
    · exact ⟨a, List.mem_cons_self, rfl, hrefl a⟩
    · obtain ⟨b, hb, hkey, hba⟩ := ih hl ha
      by_cases hcb : key b = key c
      · exact ⟨c, List.mem_cons_self, hcb.symm.trans hkey, hc a ha⟩
      · exact ⟨b, List.mem_cons_of_mem _ (List.mem_filter.2 ⟨hb, decide_eq_true hcb⟩), hkey, hba⟩

/-! ### Sorted rows -/

section

variable [LinearOrder ι] (key : α → κ) (order : α → ι)

/-- The rows come in the order of `order`. -/
def distinctOn (rows : List α) : List α :=
  firstOfEach key (rows.insertionSort fun a b => order a ≤ order b)

variable {key order} {rows : List α}

theorem sorted_rows (rows : List α) :
    (rows.insertionSort fun a b => order a ≤ order b).Pairwise fun a b => order a ≤ order b := by
  have : Std.Total fun a b : α => order a ≤ order b := ⟨fun a b => le_total (order a) (order b)⟩
  have : IsTrans α fun a b => order a ≤ order b := ⟨fun a b c => le_trans⟩
  exact List.pairwise_insertionSort _ rows

theorem mem_of_mem_distinctOn (h : a ∈ distinctOn key order rows) : a ∈ rows :=
  (List.mem_insertionSort _).1 ((firstOfEach_sublist _).subset h)

theorem nodup_distinctOn (rows : List α) : ((distinctOn key order rows).map key).Nodup :=
  nodup_firstOfEach _

/-- Each key has the first of its rows. -/
theorem exists_distinctOn (h : a ∈ rows) : ∃ b ∈ distinctOn key order rows, key b = key a ∧
    order b ≤ order a :=
  exists_firstOfEach (fun a => le_refl (order a)) (sorted_rows rows)
    ((List.mem_insertionSort _).2 h)

/-- The row of a key is before every other of the key. -/
theorem distinctOn_le (ha : a ∈ distinctOn key order rows) (hb : b ∈ rows) (hkey : key b = key a) :
    order a ≤ order b := by
  obtain ⟨c, hc, hkey', hle⟩ : ∃ c ∈ distinctOn key order rows, key c = key b ∧ order c ≤ order b :=
    exists_distinctOn hb
  have hsame : c = a := List.inj_on_of_nodup_map (nodup_distinctOn rows) hc ha (hkey'.trans hkey)
  exact hsame ▸ hle

end

end Foundations
