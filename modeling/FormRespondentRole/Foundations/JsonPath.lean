import FormRespondentRole.Foundations.Json

/-!
# Places in a JSON value

A path leads to one place of a value, member by member and item by item.  A list of selectors stands
for many places, one member or all items at each level, and `modifyAll` changes the values at those
places and no others.
-/

namespace Foundations

namespace Value

inductive Step
  | member (key : Text)
  | item (i : Nat)

def child : Value → Step → Option Value
  | .object fields, .member k => fields.lookup k
  | .array xs, .item i => xs[i]?
  | _, _ => none

/-- The value at a path. -/
def atPath : Value → List Step → Option Value
  | v, [] => some v
  | v, s :: path => (v.child s).bind (·.atPath path)

/-- What a value shows without its children. -/
inductive Head
  | null
  | bool (b : Bool)
  | number (n : Number)
  | string (s : Text)
  | array (length : Nat)
  | object (keys : List Text)

def head : Value → Head
  | .null => .null
  | .bool b => .bool b
  | .number n => .number n
  | .string s => .string s
  | .array xs => .array xs.length
  | .object fields => .object (fields.map Prod.fst)

inductive Selector
  | member (key : Text)
  | items

def Selector.admits : Selector → Step → Bool
  | member k, .member k' => k' = k
  | items, .item _ => true
  | _, _ => false

/-- Changes the first entry for a key. -/
def modifyEntry (k : Text) (f : Value → Value) : List (Text × Value) → List (Text × Value)
  | [] => []
  | (k', v) :: fields => if k' = k then (k', f v) :: fields else (k', v) :: modifyEntry k f fields

/-- Changes the selected children; a value of another shape stays as it is. -/
def modify : Selector → (Value → Value) → Value → Value
  | .member k, f, .object fields => .object (modifyEntry k f fields)
  | .items, f, .array xs => .array (xs.map f)
  | _, _, v => v

def modifyAll (f : Value → Value) : List Selector → Value → Value
  | [] => f
  | sel :: sels => modify sel (modifyAll f sels)

/-- The path leads to a selected place. -/
def Selects : List Selector → List Step → Prop := List.Forall₂ fun sel s => sel.admits s = true

variable {f : Value → Value}

theorem atPath_append (v : Value) (p q : List Step) :
    v.atPath (p ++ q) = (v.atPath p).bind (·.atPath q) := by
  induction p generalizing v with
  | nil => rfl
  | cons s p ih =>
    rw [List.cons_append, atPath, atPath, Option.bind_assoc]
    exact congrArg _ (funext ih)

private theorem lookup_modifyEntry (k k' : Text) (fields : List (Text × Value)) :
    (modifyEntry k f fields).lookup k' = if k' = k then (fields.lookup k').map f
      else fields.lookup k' := by
  induction fields with
  | nil => simp [modifyEntry]
  | cons e fields ih =>
    obtain ⟨k₀, v⟩ := e
    by_cases h₀ : k₀ = k
    · subst h₀
      by_cases h : k' = k₀
      · simp [modifyEntry, h]
      · simp [modifyEntry, h, List.lookup_cons, beq_false_of_ne h]
    · rw [modifyEntry, if_neg h₀, List.lookup_cons, List.lookup_cons, ih]
      by_cases h : k' = k₀
      · subst h
        simp [h₀]
      · simp [beq_false_of_ne h]

theorem child_modify (sel : Selector) (v : Value) (s : Step) :
    (v.modify sel f).child s = if sel.admits s then (v.child s).map f else v.child s := by
  cases sel with
  | member k =>
    cases v with
    | object fields =>
      cases s with
      | member k' => simp [modify, child, Selector.admits, lookup_modifyEntry]
      | item i => rfl
    | _ => cases s <;> simp [modify, child, Selector.admits]
  | items =>
    cases v with
    | array xs =>
      cases s with
      | member k' => rfl
      | item i => simp [modify, child, Selector.admits]
    | _ => cases s <;> simp [modify, child, Selector.admits]

private theorem modifyEntry_congr {g : Value → Value} {k : Text} {fields : List (Text × Value)}
    (h : ∀ x, fields.lookup k = some x → f x = g x) :
    modifyEntry k f fields = modifyEntry k g fields := by
  induction fields with
  | nil => rfl
  | cons e fields ih =>
    obtain ⟨k', v⟩ := e
    by_cases hk : k' = k
    · subst hk
      rw [modifyEntry, modifyEntry, if_pos rfl, if_pos rfl, h v List.lookup_cons_self]
    · rw [modifyEntry, modifyEntry, if_neg hk, if_neg hk, ih]
      intro x hx
      have hne : (k == k') = false := beq_false_of_ne (Ne.symm hk)
      exact h x (by rw [List.lookup_cons, hne]; exact hx)

/-- Only what is done to the selected children counts. -/
theorem modify_congr {g : Value → Value} {sel : Selector} {v : Value}
    (h : ∀ s x, sel.admits s = true → v.child s = some x → f x = g x) :
    v.modify sel f = v.modify sel g := by
  cases sel with
  | member k =>
    cases v with
    | object fields => exact congrArg Value.object (modifyEntry_congr fun x =>
      h (.member k) x (decide_eq_true rfl))
    | _ => rfl
  | items =>
    cases v with
    | array xs =>
      refine congrArg Value.array (List.map_congr_left fun x hx => ?_)
      obtain ⟨i, hi, hget⟩ := List.getElem_of_mem hx
      exact h (.item i) x rfl (List.getElem?_eq_some_iff.2 ⟨hi, hget⟩)
    | _ => rfl

theorem modify_id (sel : Selector) (v : Value) : (v.modify sel fun x => x) = v := by
  have hentry : ∀ (k : Text) (fields : List (Text × Value)),
      (modifyEntry k (fun x => x) fields) = fields := by
    intro k fields
    induction fields with
    | nil => rfl
    | cons e fields ih =>
      rw [modifyEntry, ih]
      split <;> rfl
  cases sel with
  | member k =>
    cases v with
    | object fields => exact congrArg Value.object (hentry k fields)
    | _ => rfl
  | items =>
    cases v with
    | array xs => exact congrArg Value.array (List.map_id _)
    | _ => rfl

private theorem keys_modifyEntry (k : Text) (fields : List (Text × Value)) :
    (modifyEntry k f fields).map Prod.fst = fields.map Prod.fst := by
  induction fields with
  | nil => rfl
  | cons e fields ih =>
    obtain ⟨k', v⟩ := e
    by_cases h : k' = k
    · simp [modifyEntry, h]
    · simp [modifyEntry, h, ih]

theorem head_modify (sel : Selector) (v : Value) : (v.modify sel f).head = v.head := by
  cases sel <;> cases v <;> simp [modify, head, keys_modifyEntry]

theorem atPath_modifyAll_cons (sel : Selector) (sels : List Selector) (v : Value) (s : Step)
    (path : List Step) :
    (modifyAll f (sel :: sels) v).atPath (s :: path) =
      if sel.admits s then (v.child s).bind fun x => (modifyAll f sels x).atPath path
        else v.atPath (s :: path) := by
  rw [modifyAll, atPath, child_modify]
  by_cases h : sel.admits s = true
  · simp only [h, if_true, Option.bind_map]
    rfl
  · simp only [h, Bool.false_eq_true, if_false]
    rfl

/-- Under a selected place, the changed value is found. -/
theorem atPath_modifyAll_of_selects {sels : List Selector} {path : List Step}
    (h : Selects sels path) (v : Value) (rest : List Step) :
    (modifyAll f sels v).atPath (path ++ rest) = (v.atPath path).bind fun x =>
      (f x).atPath rest := by
  induction h generalizing v with
  | nil => rfl
  | cons hadmits _ ih =>
    rw [List.cons_append, atPath_modifyAll_cons, if_pos hadmits, atPath, Option.bind_assoc]
    exact congrArg _ (funext ih)

private theorem exists_selects (sels : List Selector) : ∃ path, Selects sels path := by
  induction sels with
  | nil => exact ⟨[], List.Forall₂.nil⟩
  | cons sel sels ih =>
    obtain ⟨path, hpath⟩ := ih
    cases sel with
    | member k => exact ⟨.member k :: path, List.Forall₂.cons (decide_eq_true rfl) hpath⟩
    | items => exact ⟨.item 0 :: path, List.Forall₂.cons rfl hpath⟩

/-- A path that leaves the selected places finds what it found before. -/
theorem atPath_modifyAll_of_leaves {sels : List Selector} {path : List Step}
    (hbefore : ∀ rest, ¬Selects sels (path ++ rest)) (hafter : ∀ p, p <+: path → ¬Selects sels p)
    (v : Value) :
    (modifyAll f sels v).atPath path = v.atPath path := by
  induction sels generalizing path v with
  | nil => exact absurd List.Forall₂.nil (hafter [] List.nil_prefix)
  | cons sel sels ih =>
    cases path with
    | nil =>
      obtain ⟨rest, hrest⟩ := exists_selects (sel :: sels)
      exact absurd hrest (hbefore rest)
    | cons s path =>
      rw [atPath_modifyAll_cons]
      by_cases hadmits : sel.admits s = true
      · rw [if_pos hadmits, atPath]
        refine congrArg _ (funext fun x => ih (fun rest hsel => ?_) (fun p hp hsel => ?_) x)
        · exact hbefore rest (List.Forall₂.cons hadmits hsel)
        · exact hafter (s :: p) ((List.prefix_cons_inj s).2 hp) (List.Forall₂.cons hadmits hsel)
      · rw [if_neg hadmits]

/-- A path to a place before the selected ones finds a value with the same head. -/
theorem head_atPath_modifyAll {sels : List Selector} {path : List Step}
    (h : ∀ p, p <+: path → ¬Selects sels p) (v : Value) :
    ((modifyAll f sels v).atPath path).map head = (v.atPath path).map head := by
  induction sels generalizing path v with
  | nil => exact absurd List.Forall₂.nil (h [] List.nil_prefix)
  | cons sel sels ih =>
    cases path with
    | nil => exact congrArg some (head_modify sel v)
    | cons s path =>
      rw [atPath_modifyAll_cons]
      by_cases hadmits : sel.admits s = true
      · rw [if_pos hadmits, atPath]
        have hrest : ∀ p, p <+: path → ¬Selects sels p := fun p hp hsel =>
          h (s :: p) ((List.prefix_cons_inj s).2 hp) (List.Forall₂.cons hadmits hsel)
        cases v.child s with
        | none => rfl
        | some x => exact ih hrest x
      · rw [if_neg hadmits]

/-! ### Hereditary properties -/

/-- A property that goes by the keys of objects and by the values inside. -/
structure Hereditary (A : List Text → Prop) (K : Value → Prop) : Prop where
  array : ∀ xs, K (.array xs) ↔ ∀ x ∈ xs, K x
  object : ∀ fields, K (.object fields) ↔ A (fields.map Prod.fst) ∧ ∀ e ∈ fields, K e.2

namespace Hereditary

variable {A : List Text → Prop} {K : Value → Prop}

theorem child {v x : Value} {s : Step} (h : Hereditary A K) (hv : K v) (hx : v.child s = some x) :
    K x := by
  cases v with
  | object fields =>
    cases s with
    | member k =>
      obtain ⟨before, after, hfields, -⟩ := List.lookup_eq_some_iff.1 hx
      refine ((h.object fields).1 hv).2 (k, x) ?_
      rw [hfields]
      exact List.mem_append_right _ List.mem_cons_self
    | item i => cases hx
  | array xs =>
    cases s with
    | member k => cases hx
    | item i => exact (h.array xs).1 hv x (List.mem_of_getElem? hx)
  | _ => cases s <;> cases hx

private theorem modifyEntry_iff {k : Text} {fields : List (Text × Value)}
    (hf : ∀ x, fields.lookup k = some x → (K (f x) ↔ K x)) :
    (∀ e ∈ modifyEntry k f fields, K e.2) ↔ ∀ e ∈ fields, K e.2 := by
  induction fields with
  | nil => exact Iff.rfl
  | cons e fields ih =>
    obtain ⟨k', v⟩ := e
    by_cases hk : k' = k
    · subst hk
      rw [modifyEntry, if_pos rfl, List.forall_mem_cons, List.forall_mem_cons]
      exact and_congr_left' (hf v List.lookup_cons_self)
    · rw [modifyEntry, if_neg hk, List.forall_mem_cons, List.forall_mem_cons, ih]
      intro x hx
      have hne : (k == k') = false := beq_false_of_ne (Ne.symm hk)
      exact hf x (by rw [List.lookup_cons, hne]; exact hx)

/-- What keeps the property of the selected children, both ways, keeps that of the value. -/
theorem modify_iff {sel : Selector} {v : Value} (h : Hereditary A K)
    (hf : ∀ s x, sel.admits s = true → v.child s = some x → (K (f x) ↔ K x)) :
    K (v.modify sel f) ↔ K v := by
  cases sel with
  | member k =>
    cases v with
    | object fields =>
      rw [modify, h.object, h.object, keys_modifyEntry, modifyEntry_iff fun x =>
        hf (.member k) x (decide_eq_true rfl)]
    | _ => exact Iff.rfl
  | items =>
    cases v with
    | array xs =>
      rw [modify, h.array, h.array, List.forall_mem_map]
      refine forall₂_congr fun x hx => ?_
      obtain ⟨i, hi, hget⟩ := List.getElem_of_mem hx
      exact hf (.item i) x rfl (List.getElem?_eq_some_iff.2 ⟨hi, hget⟩)
    | _ => exact Iff.rfl

theorem modify {sel : Selector} {v : Value} (h : Hereditary A K) (hf : ∀ x, K x → K (f x))
    (hv : K v) :
    K (v.modify sel f) :=
  (h.modify_iff fun _ _ _ hx => iff_of_true (hf _ (h.child hv hx)) (h.child hv hx)).2 hv

theorem modifyAll {sels : List Selector} {v : Value} (h : Hereditary A K) (hf : ∀ x, K x → K (f x))
    (hv : K v) :
    K (v.modifyAll f sels) := by
  induction sels generalizing v with
  | nil => exact hf v hv
  | cons sel sels ih => exact h.modify (fun x hx => ih hx) hv

end Hereditary

end Value

end Foundations
