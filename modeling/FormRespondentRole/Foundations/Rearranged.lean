import Mathlib.Data.List.Forall2
import Mathlib.Data.List.Perm.Basic

/-!
# Lists up to order

`Rearranged R xs ys` says that `ys` is `xs` in some order with each item replaced by one that is
related to it.  What reads a list item by item, and does not depend on the order, is the same for
both.
-/

namespace Foundations

variable {α β γ δ : Type}

/-- A permutation of the first list is related to the second, item by item. -/
def Rearranged (R : α → β → Prop) (xs : List α) (ys : List β) : Prop :=
    ∃ moved : List α, moved.Perm xs ∧ List.Forall₂ R moved ys

variable {R : α → β → Prop} {xs : List α} {ys : List β}

theorem Rearranged.refl {R : α → α → Prop} (hR : ∀ x, R x x) (xs : List α) : Rearranged R xs xs :=
  ⟨xs, List.Perm.refl xs, List.forall₂_same.2 fun x _ => hR x⟩

theorem rearranged_eq_iff {xs ys : List α} : Rearranged (· = ·) xs ys ↔ ys.Perm xs := by
  constructor
  · rintro ⟨moved, hperm, heq⟩
    have hmoved : moved = ys := by rwa [List.forall₂_eq_eq_eq] at heq
    rwa [← hmoved]
  · exact fun hperm => ⟨ys, hperm, List.forall₂_same.2 fun _ _ => rfl⟩

theorem Rearranged.append {xs' : List α} {ys' : List β} (h : Rearranged R xs ys)
    (h' : Rearranged R xs' ys') :
    Rearranged R (xs ++ xs') (ys ++ ys') := by
  obtain ⟨moved, hperm, hrel⟩ := h
  obtain ⟨moved', hperm', hrel'⟩ := h'
  exact ⟨moved ++ moved', hperm.append hperm', List.rel_append hrel hrel'⟩

theorem Rearranged.flatMap {f : γ → List α} {g : δ → List β} {ps : List γ} {ps' : List δ}
    (h : List.Forall₂ (fun p p' => Rearranged R (f p) (g p')) ps ps') :
    Rearranged R (ps.flatMap f) (ps'.flatMap g) := by
  induction h with
  | nil => exact ⟨[], List.Perm.nil, List.Forall₂.nil⟩
  | cons hp _ ih => exact hp.append ih

theorem Rearranged.filter {p : α → Bool} {p' : β → Bool} (hp : ∀ x y, R x y → p' y = p x)
    (h : Rearranged R xs ys) :
    Rearranged R (xs.filter p) (ys.filter p') := by
  obtain ⟨moved, hperm, hrel⟩ := h
  refine ⟨moved.filter p, hperm.filter p, ?_⟩
  clear hperm
  induction hrel with
  | nil => exact List.Forall₂.nil
  | @cons x y moved ys hxy _ ih =>
    rw [List.filter_cons, List.filter_cons, hp x y hxy]
    split
    · exact List.Forall₂.cons hxy ih
    · exact ih

theorem Rearranged.filterMap {f : α → Option γ} {g : β → Option γ} (hf : ∀ x y, R x y → g y = f x)
    (h : Rearranged R xs ys) : (ys.filterMap g).Perm (xs.filterMap f) := by
  obtain ⟨moved, hperm, hrel⟩ := h
  refine List.Perm.trans (List.Perm.of_eq ?_) (hperm.filterMap f)
  clear hperm
  induction hrel with
  | nil => rfl
  | @cons x y moved ys hxy _ ih => rw [List.filterMap_cons, List.filterMap_cons, hf x y hxy, ih]

/-- A fold whose steps commute. -/
theorem Rearranged.foldl_eq {f : γ → α → γ} {g : γ → β → γ} (hf : ∀ x y, R x y → ∀ z, g z y = f z x)
    (hcomm : ∀ z x x', f (f z x) x' = f (f z x') x) (h : Rearranged R xs ys) (z : γ) :
    ys.foldl g z = xs.foldl f z := by
  obtain ⟨moved, hperm, hrel⟩ := h
  rw [← hperm.foldl_eq' fun x _ x' _ z => hcomm z x x']
  clear hperm
  induction hrel generalizing z with
  | nil => rfl
  | @cons x y moved ys hxy _ ih => rw [List.foldl_cons, List.foldl_cons, hf x y hxy, ih]

/-! ### Reading item by item -/

theorem mapM_eq_some_iff {f : α → Option γ} {cs : List γ} :
    xs.mapM f = some cs ↔ List.Forall₂ (fun x c => f x = some c) xs cs := by
  induction xs generalizing cs with
  | nil => simp [eq_comm]
  | cons x xs ih =>
    rw [List.mapM_cons, List.forall₂_cons_left_iff]
    cases hx : f x with
    | none => simp
    | some c => cases hxs : xs.mapM f with
      | none => simp [← ih, hxs]
      | some rest => simp [← ih, hxs, eq_comm]

/-- What is read from related lists is related. -/
theorem forall₂_mapM {f : α → Option γ} {g : β → Option δ} {S : γ → δ → Prop}
    (hf : ∀ x y c, R x y → f x = some c → ∃ d, g y = some d ∧ S c d) (h : List.Forall₂ R xs ys)
    {cs : List γ} (hcs : xs.mapM f = some cs) :
    ∃ ds, ys.mapM g = some ds ∧ List.Forall₂ S cs ds := by
  simp only [mapM_eq_some_iff] at hcs ⊢
  induction h generalizing cs with
  | nil =>
    cases hcs
    exact ⟨[], List.Forall₂.nil, List.Forall₂.nil⟩
  | @cons x y xs ys hxy _ ih =>
    obtain ⟨c, rest, hc, hrest, rfl⟩ := List.forall₂_cons_left_iff.1 hcs
    obtain ⟨d, hd, hcd⟩ := hf x y c hxy hc
    obtain ⟨ds, hds, hrel⟩ := ih hrest
    exact ⟨d :: ds, List.Forall₂.cons hd hds, List.Forall₂.cons hcd hrel⟩

theorem Rearranged.mapM {f : α → Option γ} {g : β → Option δ} {S : γ → δ → Prop}
    (hf : ∀ x y c, R x y → f x = some c → ∃ d, g y = some d ∧ S c d) (h : Rearranged R xs ys)
    {cs : List γ} (hcs : xs.mapM f = some cs) : ∃ ds, ys.mapM g = some ds ∧ Rearranged S cs ds := by
  obtain ⟨moved, hperm, hrel⟩ := h
  obtain ⟨cs', hcs', hperm'⟩ := List.perm_comp_forall₂ hperm (mapM_eq_some_iff.1 hcs)
  obtain ⟨ds, hds, hrel'⟩ := forall₂_mapM hf hrel (mapM_eq_some_iff.2 hcs')
  exact ⟨ds, hds, cs', hperm', hrel'⟩

end Foundations
