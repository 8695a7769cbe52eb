import FormRespondentRole.Foundations.Reachability

/-!
# Observers of a run

Some steps of a run give an observer a cue, and at some of these the observer is shown something.  A
deterministic machine that gets only the cues explains what is shown (`Explains`) when it shows the
same, whatever else happens in the run.  Two runs that such a machine explains from one state, with
the same cues, show the same (`Explains.shown_eq`): nothing but the cues has an influence on
it. -/

namespace Foundations

variable {σ ε ι ω κ β : Type*}

/-- What `f` makes of the steps of a run, in their order. -/
def System.notes (sys : System σ ε) (f : σ → ε → Option β) : σ → List ε → List β
  | _, [] => []
  | s, e :: es =>
    (f s e).toList ++
      match sys.step s e with
      | some s' => notes sys f s' es
      | none => []

/-- What a machine shows at these cues. -/
def replies (react : κ → ι → κ × Option ω) : κ → List ι → List ω
  | _, [] => []
  | k, i :: is => (react k i).2.toList ++ replies react (react k i).1 is

/-- The machine, whose states stand for those of the system by `R`, keeps up with the cues of every
step under `C` and shows what the step shows. -/
structure Explains (sys : System σ ε) (C : σ → ε → σ → Prop) (cue : σ → ε → Option ι)
    (shown : σ → ε → Option ω) (react : κ → ι → κ × Option ω) (R : κ → σ → Prop) : Prop where
  unseen : ∀ {k s e s'}, R k s → sys.step s e = some s' → C s e s' → cue s e = none → R k s' ∧
    shown s e = none
  seen : ∀ {k s e s' i}, R k s → sys.step s e = some s' → C s e s' → cue s e = some i →
    R (react k i).1 s' ∧ shown s e = (react k i).2

namespace Explains

variable {sys : System σ ε} {C : σ → ε → σ → Prop} {cue : σ → ε → Option ι} {shown : σ → ε →
  Option ω}
  {react : κ → ι → κ × Option ω} {R : κ → σ → Prop} {k : κ} {s s₁ s₂ t t₁ t₂ : σ}
    {es es₁ es₂ : List ε}

/-- What a run shows is what the machine shows at the cues of the run. -/
theorem notes_shown (h : Explains sys C cue shown react R) (hrun : sys.Run C s es t) (hk : R k s) :
    sys.notes shown s es = replies react k (sys.notes cue s es) := by
  induction hrun generalizing k with
  | nil s => rfl
  | cons hstep hC _ ih =>
    rename_i s s' t e es _
    simp only [System.notes, hstep]
    cases hcue : cue s e with
    | none =>
      obtain ⟨hk', hshown⟩ := h.unseen hk hstep hC hcue
      rw [hshown, ih hk']
      rfl
    | some i =>
      obtain ⟨hk', hshown⟩ := h.seen hk hstep hC hcue
      rw [hshown, ih hk']
      rfl

theorem shown_eq (h : Explains sys C cue shown react R) (hrun₁ : sys.Run C s₁ es₁ t₁)
    (hrun₂ : sys.Run C s₂ es₂ t₂) (hk₁ : R k s₁) (hk₂ : R k s₂)
    (hcues : sys.notes cue s₁ es₁ = sys.notes cue s₂ es₂) :
    sys.notes shown s₁ es₁ = sys.notes shown s₂ es₂ := by
  rw [h.notes_shown hrun₁ hk₁, h.notes_shown hrun₂ hk₂, hcues]

end Explains

end Foundations
