import Mathlib

/-!
# Programs that call an environment

A `Program C R α` is a tree of calls: `call c k` asks the environment `c` and continues with `k` on
whatever it answers.  The same program is read in three ways.

* Against a handler `serve`, a function of the environment's state, it runs to a result and a final state (`run`),
passing through the states `visits`.
* Against an environment that may answer anything, it has the traces `Trace p tr a`: the calls made with the answers
got, and the result.
* Against a handler whose state others change between the calls, it may keep a contract `Meets rely guar`: whatever
the others do within `rely`, each of its own calls stays within `guar`, and its result satisfies a
postcondition.

The second half of the module is the calculus of contracts; a run without interference is the case
`rely = Eq`.
-/

namespace Foundations

inductive Program (C : Type) (R : C → Type) (α : Type) : Type
  | pure (a : α) : Program C R α
  | call (c : C) (k : R c → Program C R α) : Program C R α

namespace Program

variable {C : Type} {R : C → Type} {α β : Type}

protected def bind : Program C R α → (α → Program C R β) → Program C R β
  | .pure a, f => f a
  | .call c k, f => .call c fun r => (k r).bind f

instance : Monad (Program C R) where
  pure := Program.pure
  bind := Program.bind

/-- One call, with its answer as the result. -/
def perform (c : C) : Program C R (R c) := .call c .pure

@[simp] theorem pure_bind' (a : α) (f : α → Program C R β) :
    (.pure a >>= f : Program C R β) = f a := rfl

@[simp] theorem call_bind (c : C) (k : R c → Program C R α) (f : α → Program C R β) :
    (.call c k >>= f : Program C R β) = .call c fun r => k r >>= f := rfl

@[simp] theorem perform_bind (c : C) (f : R c → Program C R β) :
    (perform c >>= f : Program C R β) = .call c f := rfl

instance : LawfulMonad (Program C R) := by
  refine LawfulMonad.mk' (Program C R) ?_ ?_ ?_
  · intro α p
    induction p with
    | pure a => rfl
    | call c k ih => exact congrArg (Program.call c) (funext ih)
  · intro α β a f
    rfl
  · intro α β γ p f g
    induction p with
    | pure a => rfl
    | call c k ih => exact congrArg (Program.call c) (funext ih)

/-! ### Running against a handler -/

variable {σ : Type} (serve : (c : C) → σ → R c × σ)

/-- The result of a program against a handler, with the state it leaves. -/
def run : Program C R α → σ → α × σ
  | .pure a, s => (a, s)
  | .call c k, s => (k (serve c s).1).run (serve c s).2

/-- The states after the calls of a program, in order. -/
def visits : Program C R α → σ → List σ
  | .pure _, _ => []
  | .call c k, s => (serve c s).2 :: (k (serve c s).1).visits (serve c s).2

@[simp] theorem run_pure (a : α) (s : σ) : run serve (.pure a) s = (a, s) := rfl

@[simp] theorem run_call (c : C) (k : R c → Program C R α) (s : σ) :
    run serve (.call c k) s = run serve (k (serve c s).1) (serve c s).2 := rfl

@[simp] theorem run_bind (p : Program C R α) (f : α → Program C R β) (s : σ) :
    run serve (p >>= f) s = run serve (f (run serve p s).1) (run serve p s).2 := by
  induction p generalizing s with
  | pure a => rfl
  | call c k ih => exact ih _ _

/-! ### Traces against an arbitrary environment -/

/-- A call together with the answer it got. -/
structure Exchange (C : Type) (R : C → Type) where
  call : C
  answer : R call

/-- `Trace p tr a`: making the calls of `tr` and getting its answers, `p` ends with `a`. -/
inductive Trace : Program C R α → List (Exchange C R) → α → Prop
  | pure (a : α) : Trace (.pure a) [] a
  | call {c : C} {k : R c → Program C R α} {tr : List (Exchange C R)} {a : α} (r : R c)
    (tail : Trace (k r) tr a) :
      Trace (.call c k) (⟨c, r⟩ :: tr) a

theorem trace_pure {a b : α} {tr : List (Exchange C R)} :
    Trace (.pure a : Program C R α) tr b ↔ tr = [] ∧ a = b := by
  constructor
  · intro h
    cases h
    exact ⟨rfl, rfl⟩
  · rintro ⟨rfl, rfl⟩
    exact Trace.pure a

theorem trace_call {c : C} {k : R c → Program C R α} {tr : List (Exchange C R)} {a : α} :
    Trace (.call c k) tr a ↔ ∃ r tr', tr = ⟨c, r⟩ :: tr' ∧ Trace (k r) tr' a := by
  constructor
  · intro h
    cases h with
    | call r tail => exact ⟨r, _, rfl, tail⟩
  · rintro ⟨r, tr', rfl, h⟩
    exact Trace.call r h

theorem trace_bind {p : Program C R α} {f : α → Program C R β} {tr : List (Exchange C R)} {b : β} :
    Trace (p >>= f) tr b ↔ ∃ a tr₁ tr₂, tr = tr₁ ++ tr₂ ∧ Trace p tr₁ a ∧ Trace (f a) tr₂ b := by
  induction p generalizing tr with
  | pure a =>
    constructor
    · exact fun h => ⟨a, [], tr, rfl, Trace.pure a, h⟩
    · rintro ⟨a', tr₁, tr₂, rfl, h₁, h₂⟩
      obtain ⟨rfl, rfl⟩ := trace_pure.1 h₁
      exact h₂
  | call c k ih =>
    rw [call_bind, trace_call]
    constructor
    · rintro ⟨r, tr', rfl, h⟩
      obtain ⟨a, tr₁, tr₂, rfl, h₁, h₂⟩ := (ih r).1 h
      exact ⟨a, ⟨c, r⟩ :: tr₁, tr₂, rfl, Trace.call r h₁, h₂⟩
    · rintro ⟨a, tr₁, tr₂, rfl, h₁, h₂⟩
      obtain ⟨r, tr', rfl, h⟩ := trace_call.1 h₁
      exact ⟨r, tr' ++ tr₂, rfl, (ih r).2 ⟨a, tr', tr₂, rfl, h, h₂⟩⟩

/-- The calls of a run, with the answers of the handler. -/
def transcript : Program C R α → σ → List (Exchange C R)
  | .pure _, _ => []
  | .call c k, s => ⟨c, (serve c s).1⟩ :: (k (serve c s).1).transcript (serve c s).2

/-- A run is one of the traces. -/
theorem trace_transcript (p : Program C R α) (s : σ) :
    Trace p (p.transcript serve s) (p.run serve s).1 := by
  induction p generalizing s with
  | pure a => exact Trace.pure a
  | call c k ih => exact Trace.call _ (ih _ _)

theorem transcript_bind (p : Program C R α) (f : α → Program C R β) (s : σ) :
    (p >>= f).transcript serve s =
      p.transcript serve s ++ (f (p.run serve s).1).transcript serve (p.run serve s).2 := by
  induction p generalizing s with
  | pure a => rfl
  | call c k ih => exact congrArg (_ :: ·) (ih _ _)

/-- Every answer of a run is one that the handler gave. -/
theorem answer_of_mem_transcript {p : Program C R α} {s : σ} {x : Exchange C R}
    (h : x ∈ p.transcript serve s) :
    ∃ t, x.answer = (serve x.call t).1 := by
  induction p generalizing s with
  | pure a => exact absurd h List.not_mem_nil
  | call c k ih =>
    rcases List.mem_cons.1 h with rfl | h
    · exact ⟨s, rfl⟩
    · exact ih _ h

/-! ### Contracts under interference -/

/-- Others may move the state by `rely` before each call and before the end.  Each call then moves
it by `guar`, and the result and the last state satisfy `post`. -/
def Meets (rely guar : σ → σ → Prop) : Program C R α → (α → σ → Prop) → σ → Prop
  | .pure a, post, s => ∀ t, rely s t → post a t
  | .call c k, post, s =>
    ∀ t, rely s t → guar t (serve c t).2 ∧ (k (serve c t).1).Meets rely guar post (serve c t).2

variable {serve} {rely guar : σ → σ → Prop}

theorem meets_call {c : C} {k : R c → Program C R α} {post : α → σ → Prop} {s : σ} :
    (Program.call c k).Meets serve rely guar post s ↔
      ∀ t, rely s t → guar t (serve c t).2 ∧
        (k (serve c t).1).Meets serve rely guar post (serve c t).2 := Iff.rfl

theorem Meets.bind (hrefl : ∀ s, rely s s) {p : Program C R α} {f : α → Program C R β}
    {post : β → σ → Prop} {s : σ}
    (h : p.Meets serve rely guar (fun a t => (f a).Meets serve rely guar post t) s) :
    (p >>= f).Meets serve rely guar post s := by
  induction p generalizing s with
  | pure a => exact h s (hrefl s)
  | call c k ih =>
    intro t hst
    obtain ⟨hg, hk⟩ := h t hst
    exact ⟨hg, ih _ hk⟩

theorem Meets.mono {rely' guar' : σ → σ → Prop} {p : Program C R α} {post post' : α → σ → Prop}
    {s : σ} (hrely : ∀ s t, rely' s t → rely s t) (hguar : ∀ s t, guar s t → guar' s t)
    (hpost : ∀ a t, post a t → post' a t) (h : p.Meets serve rely guar post s) :
    p.Meets serve rely' guar' post' s := by
  induction p generalizing s with
  | pure a => exact fun t hst => hpost a t (h t (hrely s t hst))
  | call c k ih =>
    intro t hst
    obtain ⟨hg, hk⟩ := h t (hrely s t hst)
    exact ⟨hguar _ _ hg, ih _ hk⟩

/-- A contract survives what the others do. -/
theorem Meets.stable (htrans : ∀ s t u, rely s t → rely t u → rely s u) {p : Program C R α}
    {post : α → σ → Prop} {s t : σ} (h : p.Meets serve rely guar post s) (hst : rely s t) :
    p.Meets serve rely guar post t := by
  cases p with
  | pure a => exact fun u htu => h u (htrans _ _ _ hst htu)
  | call c k => exact fun u htu => h u (htrans _ _ _ hst htu)

/-- A run without interference ends in the postcondition. -/
theorem Meets.run_post {p : Program C R α} {post : α → σ → Prop} {s : σ}
    (h : p.Meets serve Eq guar post s) : post (p.run serve s).1 (p.run serve s).2 := by
  induction p generalizing s with
  | pure a => exact h s rfl
  | call c k ih => exact ih _ (h s rfl).2

/-- A run without interference moves the state by whatever its calls move it by. -/
theorem Meets.run_rel {T : σ → σ → Prop} (hrefl : ∀ s, T s s)
    (htrans : ∀ s t u, T s t → T t u → T s u) (hguar : ∀ s t, guar s t → T s t) {p : Program C R α}
    {post : α → σ → Prop} {s : σ} (h : p.Meets serve Eq guar post s) : T s (p.run serve s).2 := by
  induction p generalizing s with
  | pure a => exact hrefl s
  | call c k ih => exact htrans _ _ _ (hguar _ _ (h s rfl).1) (ih _ (h s rfl).2)

/-- Every state that a run without interference passes through is one that its calls have moved
to. -/
theorem Meets.visits_rel {T : σ → σ → Prop} (htrans : ∀ s t u, T s t → T t u → T s u)
    (hguar : ∀ s t, guar s t → T s t) {p : Program C R α} {post : α → σ → Prop} {s : σ}
    (h : p.Meets serve Eq guar post s) : ∀ t ∈ p.visits serve s, T s t := by
  induction p generalizing s with
  | pure a => exact fun t ht => absurd ht List.not_mem_nil
  | call c k ih =>
    intro t ht
    have hfirst := hguar _ _ (h s rfl).1
    rcases List.mem_cons.1 ht with rfl | ht
    · exact hfirst
    · exact htrans _ _ _ hfirst (ih _ (h s rfl).2 t ht)

/-- A run without interference passes from state to state within the guarantee, and then on from its
last state. -/
theorem Meets.visits_chain {p : Program C R α} {post : α → σ → Prop} {s : σ} {ts : List σ}
    (h : p.Meets serve Eq guar post s) (hts : List.IsChain guar ((p.run serve s).2 :: ts)) :
    List.IsChain guar (s :: (p.visits serve s ++ ts)) := by
  induction p generalizing s with
  | pure a => exact hts
  | call c k ih => exact List.isChain_cons_cons.2 ⟨(h s rfl).1, ih _ (h s rfl).2 hts⟩

/-! ### Programs that may fail -/

variable {ε : Type} {P : C → Type}

/-- A call whose failure ends the program. -/
def ask (c : C) : ExceptT ε (Program C fun c => Except ε (P c)) (P c) := ExceptT.mk (perform c)

/-- A call whose failure is a value for the program to look at. -/
def attempt (c : C) : ExceptT ε (Program C fun c => Except ε (P c)) (Except ε (P c)) :=
  ExceptT.lift (perform c)

theorem run_ask_bind (c : C) (f : P c → ExceptT ε (Program C fun c => Except ε (P c)) β) :
    (ask c >>= f).run = .call c fun
      | .ok a => (f a).run
      | .error e => .pure (.error e) := by
  refine congrArg (Program.call c) (funext fun r => ?_)
  cases r <;> rfl

theorem run_attempt_bind (c : C)
    (f : Except ε (P c) → ExceptT ε (Program C fun c => Except ε (P c)) β) :
    (attempt c >>= f).run = .call c fun r => (f r).run := rfl

theorem trace_ask_bind {c : C} {f : P c → ExceptT ε (Program C fun c => Except ε (P c)) β}
    {tr : List (Exchange C fun c => Except ε (P c))} {r : Except ε β} :
    Trace (ask c >>= f).run tr r ↔
      (∃ e, tr = [⟨c, .error e⟩] ∧ r = .error e) ∨
        ∃ a tr', tr = ⟨c, .ok a⟩ :: tr' ∧ Trace (f a).run tr' r := by
  rw [run_ask_bind, trace_call]
  constructor
  · rintro ⟨answer, tr', rfl, h⟩
    cases answer with
    | ok a => exact Or.inr ⟨a, tr', rfl, h⟩
    | error e =>
      obtain ⟨rfl, rfl⟩ := trace_pure.1 h
      exact Or.inl ⟨e, rfl, rfl⟩
  · rintro (⟨e, rfl, rfl⟩ | ⟨a, tr', rfl, h⟩)
    · exact ⟨.error e, [], rfl, Trace.pure _⟩
    · exact ⟨.ok a, tr', rfl, h⟩

theorem run_except_bind (x : ExceptT ε (Program C R) α) (f : α → ExceptT ε (Program C R) β) :
    (x >>= f).run = x.run >>= fun
      | .ok a => (f a).run
      | .error e => .pure (.error e) :=
  congrArg (x.run >>= ·) (funext fun r => by cases r <;> rfl)

theorem run_bind_ok {serve : (c : C) → σ → R c × σ} {x : ExceptT ε (Program C R) α}
    {f : α → ExceptT ε (Program C R) β} {a : α} {s s' : σ} (h : run serve x.run s = (.ok a, s')) :
    run serve (x >>= f).run s = run serve (f a).run s' := by
  rw [run_except_bind, run_bind, h]

theorem run_bind_error {serve : (c : C) → σ → R c × σ} {x : ExceptT ε (Program C R) α}
    {f : α → ExceptT ε (Program C R) β} {e : ε} {s s' : σ}
    (h : run serve x.run s = (.error e, s')) :
    run serve (x >>= f).run s = (.error e, s') := by
  rw [run_except_bind, run_bind, h]
  rfl

theorem transcript_bind_ok {serve : (c : C) → σ → R c × σ} {x : ExceptT ε (Program C R) α}
    {f : α → ExceptT ε (Program C R) β} {a : α} {s s' : σ} (h : run serve x.run s = (.ok a, s')) :
    (x >>= f).run.transcript serve s = x.run.transcript serve s ++
      (f a).run.transcript serve s' := by
  rw [run_except_bind, transcript_bind, h]

/-- A sequence fails where its first part fails, or goes on with the second. -/
theorem trace_except_bind {x : ExceptT ε (Program C R) α} {f : α → ExceptT ε (Program C R) β}
    {tr : List (Exchange C R)} {r : Except ε β} :
    Trace (x >>= f).run tr r ↔
      (∃ e, r = .error e ∧ Trace x.run tr (.error e)) ∨
        ∃ a tr₁ tr₂, tr = tr₁ ++ tr₂ ∧ Trace x.run tr₁ (.ok a) ∧ Trace (f a).run tr₂ r := by
  rw [run_except_bind, trace_bind]
  constructor
  · rintro ⟨first, tr₁, tr₂, rfl, h₁, h₂⟩
    cases first with
    | ok a => exact Or.inr ⟨a, tr₁, tr₂, rfl, h₁, h₂⟩
    | error e =>
      obtain ⟨rfl, rfl⟩ := trace_pure.1 h₂
      exact Or.inl ⟨e, rfl, by rwa [List.append_nil]⟩
  · rintro (⟨e, rfl, h⟩ | ⟨a, tr₁, tr₂, rfl, h₁, h₂⟩)
    · exact ⟨.error e, tr, [], (List.append_nil _).symm, h, Trace.pure _⟩
    · exact ⟨.ok a, tr₁, tr₂, rfl, h₁, h₂⟩

end Program

end Foundations
