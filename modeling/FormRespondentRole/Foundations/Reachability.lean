import Mathlib

/-!
# Guarded transition systems and their runs

A system is an executable guarded step: `step s e = some s'` when the event `e` is enabled in `s`.
`System.exec` replays a list of events, and `System.Run C` is the same thing as a relation that also
records a condition `C` on every step taken.  The one induction of the library is `Run.invariant`:
what every step under `C` preserves holds at the end of every run under `C`.  A property of every
state a run passes through is the same statement for the prefixes of the run
(`Run.split`). -/

namespace Foundations

/-- A transition system given by its guarded step function. -/
structure System (σ ε : Type*) where
  step : σ → ε → Option σ

namespace System

variable {σ ε : Type*} (sys : System σ ε)

/-- Replay of a list of events; `none` when one of them is not enabled. -/
def exec : σ → List ε → Option σ
  | s, [] => some s
  | s, e :: es => (sys.step s e).bind fun s' => exec s' es

/-- A run from `s` to `t` all of whose steps satisfy `C`. -/
inductive Run (C : σ → ε → σ → Prop) : σ → List ε → σ → Prop
  | nil (s : σ) : Run C s [] s
  | cons {s s' t : σ} {e : ε} {es : List ε} (h : sys.step s e = some s') (hC : C s e s')
      (tail : Run C s' es t) : Run C s (e :: es) t

variable {sys}

theorem Run.single {C : σ → ε → σ → Prop} {s t : σ} {e : ε} (h : sys.step s e = some t)
    (hC : C s e t) :
    sys.Run C s [e] t :=
  Run.cons h hC (Run.nil t)

theorem Run.append {C : σ → ε → σ → Prop} {s t u : σ} {es fs : List ε} (h₁ : sys.Run C s es t)
    (h₂ : sys.Run C t fs u) : sys.Run C s (es ++ fs) u := by
  induction h₁ with
  | nil => exact h₂
  | cons h hC _ ih => exact Run.cons h hC (ih h₂)

/-- A run passes through a state after every prefix of its events. -/
theorem Run.split {C : σ → ε → σ → Prop} {s u : σ} {es fs : List ε} (h : sys.Run C s (es ++ fs) u) :
    ∃ t, sys.Run C s es t ∧ sys.Run C t fs u := by
  induction es generalizing s with
  | nil => exact ⟨s, Run.nil s, h⟩
  | cons e es ih =>
    cases h with
    | cons hs hC tail =>
      obtain ⟨t, ht, hu⟩ := ih tail
      exact ⟨t, Run.cons hs hC ht, hu⟩

theorem Run.mono {C D : σ → ε → σ → Prop} (hCD : ∀ s e t, C s e t → D s e t) {s t : σ} {es : List ε}
    (h : sys.Run C s es t) : sys.Run D s es t := by
  induction h with
  | nil s => exact Run.nil s
  | cons hs hC _ ih => exact Run.cons hs (hCD _ _ _ hC) ih

/-- The induction principle: an invariant of the steps under `C` is an invariant of the runs under
`C`. -/
theorem Run.invariant {C : σ → ε → σ → Prop} {P : σ → Prop}
    (hstep : ∀ s e s', P s → C s e s' → sys.step s e = some s' → P s')
    {s t : σ} {es : List ε} (h : sys.Run C s es t) (hs : P s) : P t := by
  induction h with
  | nil => exact hs
  | cons h hC _ ih => exact ih (hstep _ _ _ hs hC h)

/-- A run under a decidable condition is what the replay computes step by step. -/
theorem Run.of_exec {C : σ → ε → σ → Prop} {s t : σ} {es : List ε} (h : sys.exec s es = some t)
    (hC : ∀ s e s', sys.step s e = some s' → C s e s') : sys.Run C s es t := by
  induction es generalizing s with
  | nil =>
    simp only [exec, Option.some.injEq] at h
    exact h ▸ Run.nil s
  | cons e es ih =>
    simp only [exec, Option.bind_eq_some_iff] at h
    obtain ⟨s', hs, ht⟩ := h
    exact Run.cons hs (hC _ _ _ hs) (ih ht)

theorem Run.exec_eq {C : σ → ε → σ → Prop} {s t : σ} {es : List ε} (h : sys.Run C s es t) :
    sys.exec s es = some t := by
  induction h with
  | nil => rfl
  | cons hs _ _ ih => simp [exec, hs, ih]

/-- The check of a run under a decidable condition, for replaying concrete runs. -/
def check (sys : System σ ε) (C : σ → ε → σ → Bool) : σ → List ε → Option σ
  | s, [] => some s
  | s, e :: es =>
    match sys.step s e with
    | none => none
    | some s' => if C s e s' then check sys C s' es else none

theorem Run.of_check {C : σ → ε → σ → Bool} {s t : σ} {es : List ε}
    (h : sys.check C s es = some t) :
    sys.Run (fun s e s' => C s e s' = true) s es t := by
  induction es generalizing s with
  | nil =>
    simp only [check, Option.some.injEq] at h
    exact h ▸ Run.nil s
  | cons e es ih =>
    simp only [check] at h
    split at h
    · cases h
    · rename_i s' hs
      split at h
      · rename_i hC
        exact Run.cons hs hC (ih h)
      · cases h

/-! ### Observers -/

/-- The system with an observer, who notes something at every step and changes nothing. -/
def observe {γ : Type*} (sys : System σ ε) (note : γ → σ → ε → γ) : System (σ × γ) ε where
  step := fun s e => (sys.step s.1 e).map fun s' => (s', note s.2 s.1 e)

theorem observe_step {γ : Type*} {note : γ → σ → ε → γ} {s s' : σ × γ} {e : ε} :
    (sys.observe note).step s e = some s' ↔ sys.step s.1 e = some s'.1 ∧ s'.2 = note s.2 s.1 e := by
  simp only [observe, Option.map_eq_some_iff, Prod.ext_iff]
  constructor
  · rintro ⟨t, ht, rfl, h⟩
    exact ⟨ht, h.symm⟩
  · rintro ⟨ht, h⟩
    exact ⟨s'.1, ht, rfl, h.symm⟩

end System

/-! ### Parties -/

/-- The party at a position, with those before and after it. -/
def partyAt {α : Type*} (parties : List α) (i : Nat) : Option (List α × α × List α) :=
  match parties.drop i with
  | [] => none
  | party :: post => some (parties.take i, party, post)

theorem partyAt_eq_some {α : Type*} {parties pre post : List α} {i : Nat} {party : α}
    (h : partyAt parties i = some (pre, party, post)) : parties = pre ++ party :: post := by
  rw [partyAt] at h
  have hsplit := List.take_append_drop i parties
  split at h
  · cases h
  · rename_i hdrop
    rw [hdrop] at hsplit
    simp only [Option.some.injEq, Prod.mk.injEq] at h
    obtain ⟨rfl, rfl, rfl⟩ := h
    exact hsplit.symm

theorem mem_of_partyAt {α : Type*} {parties pre post : List α} {i : Nat} {party : α}
    (h : partyAt parties i = some (pre, party, post)) : party ∈ parties := by
  rw [partyAt_eq_some h]
  exact List.mem_append_right _ List.mem_cons_self

theorem mem_of_partyAt_others {α : Type*} {parties pre post : List α} {i : Nat} {party other : α}
    (h : partyAt parties i = some (pre, party, post)) (hother : other ∈ pre ++ post) :
    other ∈ parties := by
  rw [partyAt_eq_some h]
  exact ((List.sublist_cons_self party post).append_left pre).subset hother

/-- Of two lists of matching parties, the party at a position of the one matches that of the
other. -/
theorem partyAt_of_forall₂ {α β : Type*} {R : β → α → Prop} {parties : List β} {pre post : List α}
    {party : α} (h : List.Forall₂ R parties (pre ++ party :: post)) :
    ∃ pre' party' post', partyAt parties pre.length = some (pre', party', post') ∧
      List.Forall₂ R pre' pre ∧
      R party' party ∧ List.Forall₂ R post' post := by
  have htake := List.forall₂_take_append parties pre (party :: post) h
  obtain ⟨party', post', hparty, hpost, hdrop⟩ :=
    List.forall₂_cons_right_iff.1 (List.forall₂_drop_append parties pre (party :: post) h)
  refine ⟨_, party', post', ?_, htake, hparty, hpost⟩
  rw [partyAt, hdrop]

/-- Every party meets `P`, and any two of them meet `R`. -/
structure Parties {α : Type*} (P : α → Prop) (R : α → α → Prop) (parties : List α) : Prop where
  each : ∀ a ∈ parties, P a
  pairwise : parties.Pairwise R

namespace Parties

variable {α : Type*} {P P' : α → Prop} {R R' : α → α → Prop} {pre post parties : List α} {a a' : α}

theorem mono (h : Parties P R parties) (hP : ∀ b ∈ parties, P b → P' b)
    (hR : ∀ b c, R b c → R' b c) :
    Parties P' R' parties :=
  ⟨fun b hb => hP b hb (h.each b hb), h.pairwise.imp fun hbc => hR _ _ hbc⟩

theorem map (h : Parties P R parties) (f : α → α) (hP : ∀ b, P b → P' (f b))
    (hR : ∀ b c, R b c → R' (f b) (f c)) :
    Parties P' R' (parties.map f) := by
  refine ⟨fun b hb => ?_, List.pairwise_map.2 (h.pairwise.imp fun hbc => hR _ _ hbc)⟩
  obtain ⟨a, ha, rfl⟩ := List.mem_map.1 hb
  exact hP a (h.each a ha)

theorem mem_of_others {b : α} (hb : b ∈ pre ++ post) : b ∈ pre ++ a :: post := by
  rcases List.mem_append.1 hb with hb | hb
  · exact List.mem_append_left _ hb
  · exact List.mem_append_right _ (List.mem_cons_of_mem _ hb)

/-- What a party has with each of the others. -/
theorem apart (hR : ∀ {b c}, R b c → R c b) (h : Parties P R (pre ++ a :: post)) :
    ∀ b ∈ pre ++ post, R a b :=
  (List.pairwise_cons.1 ((List.pairwise_middle hR).1 h.pairwise)).1

/-- One party moves, and the others keep what they have. -/
theorem replace (hR : ∀ {b c}, R b c → R c b) (hR' : ∀ {b c}, R' b c → R' c b)
    (h : Parties P R (pre ++ a :: post)) (hothers : ∀ b ∈ pre ++ post, P b → P' b)
    (hmono : ∀ b c, R b c → R' b c) (hP' : P' a') (hapart : ∀ b ∈ pre ++ post, R' a' b) :
    Parties P' R' (pre ++ a' :: post) := by
  constructor
  · intro b hb
    rcases List.mem_append.1 hb with hb | hb
    · exact hothers b (List.mem_append_left _ hb) (h.each b (List.mem_append_left _ hb))
    · rcases List.mem_cons.1 hb with rfl | hb
      · exact hP'
      · exact hothers b (List.mem_append_right _ hb)
          (h.each b (List.mem_append_right _ (List.mem_cons_of_mem _ hb)))
  · have htail := (List.pairwise_cons.1 ((List.pairwise_middle hR).1 h.pairwise)).2
    exact (List.pairwise_middle hR').2
      (List.pairwise_cons.2 ⟨hapart, htail.imp fun hbc => hmono _ _ hbc⟩)

end Parties

end Foundations
