import FormRespondentRole.Foundations.Program

/-!
# Protocols of programs

A protocol says what a program may ask in each of its states, and which states the answer leads to;
an answer that leads nowhere is one that the environment does not give.  `Follows P post p g`:
started in the state `g`, the program `p` asks only what `P` allows, and ends in a state with
`post`.

A protocol knows nothing of the environment's own state.  So that a program follows one is proved
once, from its text, and holds in every environment that keeps to the moves.

`Asks allowed p` says less, and of any answers: whatever `p` asks is allowed.  Such a program
follows every protocol at a state in which what is allowed may be asked and moves nothing.
-/

namespace Foundations

structure Protocol (C : Type) (R : C → Type) (γ : Type) where
  asks : γ → C → Prop
  /-- The states that an answer to a call may lead to. -/
  moves : γ → (c : C) → R c → γ → Prop

namespace Program

variable {C : Type} {R : C → Type} {α β γ : Type} {P : Protocol C R γ}

def Follows (P : Protocol C R γ) : Program C R α → (γ → α → Prop) → γ → Prop
  | .pure a, post, g => post g a
  | .call c k, post, g => P.asks g c ∧ ∀ r g', P.moves g c r g' → (k r).Follows P post g'

theorem follows_call {c : C} {k : R c → Program C R α} {post : γ → α → Prop} {g : γ} :
    (Program.call c k).Follows P post g ↔ P.asks g c ∧ ∀ r g', P.moves g c r g' →
      (k r).Follows P post g' := Iff.rfl

theorem Follows.mono {p : Program C R α} {post post' : γ → α → Prop} {g : γ}
    (hpost : ∀ g a, post g a → post' g a) (h : p.Follows P post g) : p.Follows P post' g := by
  induction p generalizing g with
  | pure a => exact hpost g a h
  | call c k ih => exact ⟨h.1, fun r g' hmove => ih r (h.2 r g' hmove)⟩

theorem Follows.bind {p : Program C R α} {f : α → Program C R β} {post : γ → β → Prop} {g : γ}
    (h : p.Follows P (fun g a => (f a).Follows P post g) g) : (p >>= f).Follows P post g := by
  induction p generalizing g with
  | pure a => exact h
  | call c k ih => exact ⟨h.1, fun r g' hmove => ih r (h.2 r g' hmove)⟩

/-! ### Programs that may fail -/

section

variable {ε : Type} {A : C → Type} {P : Protocol C (fun c => Except ε (A c)) γ} {g : γ}

theorem follows_ask_bind {c : C} {f : A c → ExceptT ε (Program C fun c => Except ε (A c)) β}
    {post : γ → Except ε β → Prop} :
    (ask c >>= f).run.Follows P post g ↔ P.asks g c ∧
      (∀ e g', P.moves g c (.error e) g' → post g' (.error e)) ∧
      ∀ a g', P.moves g c (.ok a) g' → (f a).run.Follows P post g' := by
  rw [run_ask_bind, follows_call]
  refine and_congr_right fun _ =>
    ⟨fun h => ⟨fun e => h (.error e), fun a => h (.ok a)⟩, fun h r => ?_⟩
  cases r with
  | error e => exact h.1 e
  | ok a => exact h.2 a

theorem follows_attempt_bind {c : C}
    {f : Except ε (A c) → ExceptT ε (Program C fun c => Except ε (A c)) β}
    {post : γ → Except ε β → Prop} :
    (attempt c >>= f).run.Follows P post g ↔
      P.asks g c ∧ ∀ r g', P.moves g c r g' → (f r).run.Follows P post g' := Iff.rfl

/-- A sequence follows the protocol when its first part leads to where the second does. -/
theorem Follows.except_bind {x : ExceptT ε (Program C fun c => Except ε (A c)) α}
    {f : α → ExceptT ε (Program C fun c => Except ε (A c)) β} {post : γ → Except ε β → Prop}
    (h : x.run.Follows P (fun g r => match r with
      | .ok a => (f a).run.Follows P post g
      | .error e => post g (.error e)) g) : (x >>= f).run.Follows P post g := by
  rw [run_except_bind]
  refine Follows.bind (h.mono fun g r hr => ?_)
  cases r with
  | ok a => exact hr
  | error e => exact hr

theorem Follows.except_map {x : ExceptT ε (Program C fun c => Except ε (A c)) α} {f : α → β}
    {post : γ → Except ε β → Prop} (h : x.run.Follows P (fun g r => post g (r.map f)) g) :
    (f <$> x).run.Follows P post g := by
  refine Follows.bind (h.mono fun g r hr => ?_)
  cases r with
  | ok a => exact hr
  | error e => exact hr

end

/-! ### What a program asks -/

def Asks (allowed : C → Prop) : Program C R α → Prop
  | .pure _ => True
  | .call c k => allowed c ∧ ∀ r, (k r).Asks allowed

section

variable {allowed allowed' : C → Prop}

theorem Asks.mono {p : Program C R α} (hallowed : ∀ c, allowed c → allowed' c)
    (h : p.Asks allowed) : p.Asks allowed' := by
  induction p with
  | pure a => trivial
  | call c k ih => exact ⟨hallowed c h.1, fun r => ih r (h.2 r)⟩

theorem asks_of_forall (h : ∀ c, allowed c) (p : Program C R α) : p.Asks allowed := by
  induction p with
  | pure a => trivial
  | call c k ih => exact ⟨h c, ih⟩

theorem Asks.bind {p : Program C R α} {f : α → Program C R β} (hp : p.Asks allowed)
    (hf : ∀ a, (f a).Asks allowed) :
    (p >>= f).Asks allowed := by
  induction p with
  | pure a => exact hf a
  | call c k ih => exact ⟨hp.1, fun r => ih r (hp.2 r)⟩

theorem Asks.follows {p : Program C R α} {g : γ} (h : p.Asks allowed)
    (hP : ∀ c, allowed c → P.asks g c ∧ ∀ r g', P.moves g c r g' → g' = g) :
    p.Follows P (fun g' _ => g' = g) g := by
  induction p with
  | pure a => rfl
  | call c k ih =>
    obtain ⟨hasks, hmoves⟩ := hP c h.1
    refine ⟨hasks, fun r g' hmove => ?_⟩
    obtain rfl := hmoves r g' hmove
    exact ih r (h.2 r)

variable {ε : Type} {A : C → Type}

theorem asks_ask_bind {c : C} {f : A c → ExceptT ε (Program C fun c => Except ε (A c)) β} :
    (ask c >>= f).run.Asks allowed ↔ allowed c ∧ ∀ a, (f a).run.Asks allowed := by
  rw [run_ask_bind, Asks]
  refine and_congr_right fun _ => ⟨fun h a => h (.ok a), fun h r => ?_⟩
  cases r with
  | ok a => exact h a
  | error e => trivial

theorem asks_attempt_bind {c : C}
    {f : Except ε (A c) → ExceptT ε (Program C fun c => Except ε (A c)) β} :
    (attempt c >>= f).run.Asks allowed ↔ allowed c ∧ ∀ r, (f r).run.Asks allowed := Iff.rfl

theorem Asks.except_bind {x : ExceptT ε (Program C R) α} {f : α → ExceptT ε (Program C R) β}
    (hx : x.run.Asks allowed) (hf : ∀ a, (f a).run.Asks allowed) : (x >>= f).run.Asks allowed := by
  rw [run_except_bind]
  refine hx.bind fun r => ?_
  cases r with
  | ok a => exact hf a
  | error e => trivial

theorem Asks.except_map {x : ExceptT ε (Program C R) α} {f : α → β} (h : x.run.Asks allowed) :
    (f <$> x).run.Asks allowed := by
  refine h.bind fun r => ?_
  cases r <;> trivial

end

end Program

end Foundations
