import FormRespondentRole.SyncContract

/-!
# The two syncs keep their contracts

The parts of the two sync programs in the order in which they run, each with what it does to a fixed
link and member. The results are `syncForPlayer_untouched`, `syncForRoleLink_untouched`,
`syncForPlayer_settles` and `syncForRoleLink_settles`.
-/

namespace FormRespondentRole

open Foundations

section

variable {rely guar : World → World → Prop} {K : World → Prop} {libs : Libs} {d : Text}

/-! ### Parts of the per-player sync -/

private theorem vetOptouts_syncs (hrefl : ∀ w, rely w w) (hguar : ∀ w, guar w w)
    (hK : ∀ w t, rely w t → K w → K t) {opt : Text → List Text} (hopt : ∀ w, K w → w.optouts = opt)
    (guilds : List Text) {w : World} (hw : K w) :
    Syncs rely guar (vetOptouts d guilds)
      (fun r t => K t ∧ r.2 = [] ∧ ∀ g, g ∈ r.1 ↔ g ∈ guilds ∧ d ∈ opt g) w := by
  induction guilds generalizing w with
  | nil => exact Syncs.pure fun t ht => ⟨hK w t ht hw, rfl, fun g => by simp⟩
  | cons guild guilds ih =>
    refine Syncs.attempt_bind fun t ht => ⟨hguar t, Syncs.bind hrefl ?_⟩
    have hopt' : t.answer (.fetchGuildOptoutIds guild) = opt guild :=
      congrFun (hopt t (hK w t ht hw)) guild
    refine Syncs.mono ?_ (ih (hK w t ht hw))
    rintro ⟨optedOut, unknown⟩ u ⟨hu, rfl, hmem⟩
    refine Syncs.pure fun v hv => ⟨hK u v hv hu, rfl, fun g => ?_⟩
    rw [hopt']
    split
    · rename_i hd
      rw [List.mem_cons, hmem, List.mem_cons]
      constructor
      · rintro (rfl | ⟨hg, hdg⟩)
        · exact ⟨Or.inl rfl, hd⟩
        · exact ⟨Or.inr hg, hdg⟩
      · rintro ⟨rfl | hg, hdg⟩
        · exact Or.inl rfl
        · exact Or.inr ⟨hg, hdg⟩
    · rename_i hd
      rw [hmem, List.mem_cons]
      constructor
      · exact fun ⟨hg, hdg⟩ => ⟨Or.inr hg, hdg⟩
      · rintro ⟨rfl | hg, hdg⟩
        · exact absurd hdg hd
        · exact ⟨hg, hdg⟩

/-- What `sync_for_player` computes for a link from the responses it reads. -/
private def qualifiesAt (libs : Libs) (d : Text) (optedOut : List Text) (b : BoundLink)
    (w : World) : Bool :=
  decide (b.guildId ∉ optedOut) && (w.answer (.selectResponses b.formId d)).any
    (evaluate libs b.grantOnAnySubmission (conditionsOf b.conditions))

private theorem qualifies_syncs {D : Bool → World → Prop} (hguar : ∀ w, guar w w)
    (hK : ∀ w t, rely w t → K w → K t) (hD : ∀ q w t, rely w t → D q w → D q t)
    {optedOut : List Text} {b : BoundLink}
    (hdecide : ∀ t, K t → D (qualifiesAt libs d optedOut b t) t) {w : World} (hw : K w) :
    Syncs rely guar (qualifies libs d optedOut b) (fun q t => K t ∧ D q t) w := by
  unfold qualifies
  split
  · rename_i hout
    refine Syncs.pure fun t ht => ⟨hK w t ht hw, ?_⟩
    have h := hdecide t (hK w t ht hw)
    rwa [qualifiesAt, decide_eq_false (not_not.2 hout), Bool.false_and] at h
  · rename_i hout
    refine Syncs.ask_bind fun t ht => ⟨hguar t, Syncs.pure fun u hu => ?_⟩
    have h := hdecide t (hK w t ht hw)
    rw [qualifiesAt, decide_eq_true hout, Bool.true_and] at h
    exact ⟨hK t u hu (hK w t ht hw), hD _ t u hu h⟩

private theorem actionFor_key {l : BoundLink} {q e : Bool} {a : Action} (h : a ∈ actionFor l q e) :
    a.link = l := by
  cases q <;> cases e <;> simp_all [actionFor, Action.link]

private theorem filter_actionFor_self (l : BoundLink) (q e : Bool) :
    (actionFor l q e).filter (fun a => a.link.key = l.key) = actionFor l q e :=
  List.filter_eq_self.2 fun a ha => by simp [actionFor_key ha]

private theorem filter_actionFor_ne {l : BoundLink} {k : LinkKey} (h : l.key ≠ k) (q e : Bool) :
    (actionFor l q e).filter (fun a => a.link.key = k) = [] :=
  List.filter_eq_nil_iff.2 fun a ha => by simp [actionFor_key ha, h]

/-- The plan for a link among the selected ones is made from one reading of the member's responses
to its form. -/
private theorem planActions_syncs {D : Bool → World → Prop} (hrefl : ∀ w, rely w w)
    (hguar : ∀ w, guar w w) (hK : ∀ w t, rely w t → K w → K t)
    (hD : ∀ q w t, rely w t → D q w → D q t) {optedOut : List Text} {b : BoundLink}
    (hdecide : ∀ t, K t → D (qualifiesAt libs d optedOut b t) t) (existing : List LinkKey)
    (links : List BoundLink) {w : World} (hw : K w) :
    Syncs rely guar (planActions libs d optedOut [] existing links)
      (fun actions t => K t ∧ ((links.map BoundLink.key).Nodup →
        (b ∈ links → ∃ q, D q t ∧
          actions.filter (fun a => a.link.key = b.key) = actionFor b q
          (decide (b.key ∈ existing))) ∧
        (b.key ∉ links.map BoundLink.key → actions.filter (fun a => a.link.key = b.key) =
          []))) w := by
  induction links generalizing K w with
  | nil => exact Syncs.pure fun t ht =>
    ⟨hK w t ht hw, fun _ => ⟨fun hb => absurd hb List.not_mem_nil, fun _ => rfl⟩⟩
  | cons l links ih =>
    rw [planActions, if_neg List.not_mem_nil]
    by_cases hlb : l = b
    · subst hlb
      refine Syncs.bind hrefl (Syncs.mono ?_ (qualifies_syncs (D := D) hguar hK hD hdecide hw))
      rintro q t ⟨ht, hq⟩
      have hK' : ∀ w t, rely w t → K w ∧ D q w → K t ∧ D q t :=
        fun w t h hw => ⟨hK w t h hw.1, hD q w t h hw.2⟩
      refine Syncs.bind hrefl
        (Syncs.mono ?_ (ih (K := fun u => K u ∧ D q u) hK' (fun u hu => hdecide u hu.1) ⟨ht, hq⟩))
      rintro rest u ⟨⟨hu, hqu⟩, hrest⟩
      refine Syncs.pure fun v hv =>
        ⟨hK u v hv hu, fun hnodup => ⟨fun _ => ⟨q, hD q u v hv hqu, ?_⟩, ?_⟩⟩
      · obtain ⟨hl, hnodup'⟩ := List.nodup_cons.1 hnodup
        rw [List.filter_append, filter_actionFor_self, (hrest hnodup').2 hl, List.append_nil]
      · exact fun h => absurd List.mem_cons_self h
    · refine Syncs.bind hrefl (Syncs.mono ?_
        (qualifies_syncs (D := fun _ _ => True) hguar hK (fun _ _ _ _ h => h)
          (fun _ _ => trivial) hw))
      rintro q t ⟨ht, -⟩
      refine Syncs.bind hrefl (Syncs.mono ?_ (ih hK hdecide ht))
      rintro rest u ⟨hu, hrest⟩
      refine Syncs.pure fun v hv => ⟨hK u v hv hu, fun hnodup => ?_⟩
      obtain ⟨hl, hnodup'⟩ := List.nodup_cons.1 hnodup
      refine ⟨fun hb => ?_, fun hb => ?_⟩
      · have hb' : b ∈ links := (List.mem_cons.1 hb).resolve_left fun h => hlb h.symm
        have hne : l.key ≠ b.key := fun h => hl (h ▸ List.mem_map_of_mem hb')
        obtain ⟨p, hp, hfilter⟩ := (hrest hnodup').1 hb'
        refine ⟨p, hD p u v hv hp, ?_⟩
        rw [List.filter_append, filter_actionFor_ne hne, hfilter, List.nil_append]
      · rw [List.map_cons, List.mem_cons, not_or] at hb
        rw [List.filter_append, filter_actionFor_ne (Ne.symm hb.1), (hrest hnodup').2 hb.2,
          List.nil_append]

/-! ### Performing the actions -/

/-- The future has not been told that its link is gone. -/
private def LiveFuture : ActionFuture → Prop
  | .dropLink _ => False
  | _ => True

theorem weight_pos (f : ActionFuture) : 0 < f.weight := by
  cases f <;> simp [ActionFuture.weight]

theorem totalWeight_append (fs gs : List ActionFuture) :
    totalWeight (fs ++ gs) = totalWeight fs + totalWeight gs := by
  rw [totalWeight, List.map_append, List.sum_append, totalWeight, totalWeight]

theorem totalWeight_cons (f : ActionFuture) (fs : List ActionFuture) :
    totalWeight (f :: fs) = f.weight + totalWeight fs := by
  rw [totalWeight, List.map_cons, List.sum_cons, totalWeight]

/-- The loop rule: what every step of every future keeps holds of the empty list of futures at the
end. -/
private theorem forEachConcurrent_syncs (hrefl : ∀ w, rely w w)
    {J : List ActionFuture → World → Prop} (hJ : ∀ fs w t, rely w t → J fs w → J fs t)
    (hstep : ∀ pre f post w, J (pre ++ f :: post) w → Syncs rely guar (pollAction d f)
      (fun next t => totalWeight next.toList < f.weight ∧ J (pre ++ next.toList ++ post) t) w)
    {limit : Nat} (hlimit : 0 < limit) (schedule : Nat → Nat) {fuel : Nat} {fs : List ActionFuture}
    {w : World} (hfuel : totalWeight fs ≤ fuel) (hw : J fs w) :
    Syncs rely guar (forEachConcurrent limit d schedule fuel fs) (fun _ t => J [] t) w := by
  induction fuel generalizing fs w with
  | zero =>
    cases fs with
    | nil => exact Syncs.pure fun t ht => hJ [] w t ht hw
    | cons f fs =>
      have := weight_pos f
      rw [totalWeight_cons] at hfuel
      omega
  | succ fuel ih =>
    rw [forEachConcurrent]
    split
    · rename_i hdrop
      have hlen := List.drop_eq_nil_iff.1 hdrop
      have hnil : fs = [] := by
        by_contra hne
        have hpos : 0 < min limit fs.length := lt_min hlimit (List.length_pos_of_ne_nil hne)
        have hlt := Nat.mod_lt (schedule fuel) hpos
        omega
      subst hnil
      exact Syncs.pure fun t ht => hJ [] w t ht hw
    · rename_i f waiting hdrop
      have hsplit := List.take_append_drop (schedule fuel % min limit fs.length) fs
      rw [hdrop] at hsplit
      have hweight : totalWeight fs = totalWeight (fs.take (schedule fuel % min limit fs.length)) +
          (f.weight + totalWeight waiting) := by
        rw [← totalWeight_cons, ← totalWeight_append, hsplit]
      refine Syncs.bind hrefl (Syncs.mono ?_ (hstep _ f waiting w (hsplit.symm ▸ hw)))
      rintro next t ⟨hnext, ht⟩
      refine ih ?_ ht
      rw [totalWeight_append, totalWeight_append]
      omega

/-- A step of a future of another link, or for another member, leaves the pair alone. -/
private theorem pollAction_untouched {k : LinkKey} {m : Text}
    (hguar : ∀ w t, Untouched k m w t → guar w t) {P : World → Prop}
    (hrely : ∀ w t, rely w t → P w → P t) (hP : ∀ w t, Untouched k m w t → P w → P t)
    {f : ActionFuture} (hlive : LiveFuture f) (hf : ¬ (f.action.link.key = k ∧ d = m)) {w : World}
    (hw : P w) :
    Syncs rely guar (pollAction d f) (fun next t => totalWeight next.toList < f.weight ∧
      (∀ g ∈ next.toList, LiveFuture g ∧ g.action = f.action) ∧ P t) w := by
  have hcall : ∀ c : SyncCall, c.Benign → ¬ c.Concerns k m → ∀ {n : Option ActionFuture},
      totalWeight n.toList < f.weight → (∀ g ∈ n.toList, LiveFuture g ∧ g.action = f.action) →
      Syncs rely guar (attempt c >>= fun _ => (pure n : SyncM (Option ActionFuture)))
        (fun next t => totalWeight next.toList < f.weight ∧
          (∀ g ∈ next.toList, LiveFuture g ∧ g.action = f.action) ∧ P t) w := by
    intro c hb hc n hweight hnext
    refine Syncs.attempt_bind fun t ht =>
      ⟨hguar _ _ (untouched_effect hb hc t), Syncs.pure fun u hu => ?_⟩
    exact ⟨hweight, hnext, hrely _ u hu (hP t _ (untouched_effect hb hc t) (hrely w t ht hw))⟩
  have hdone : totalWeight (none : Option ActionFuture).toList < f.weight := weight_pos f
  have hstored : ∀ a, totalWeight (some (ActionFuture.store a)).toList <
      (ActionFuture.start a).weight := by
    intro a
    simp [totalWeight, ActionFuture.weight]
  cases f with
  | start a =>
    cases a with
    | add l =>
      exact hcall (.addUser ..) trivial hf (hstored _) (by simp [LiveFuture, ActionFuture.action])
    | remove l =>
      exact hcall (.removeUser ..) trivial hf (hstored _)
        (by simp [LiveFuture, ActionFuture.action])
  | store a =>
    cases a with
    | add l => exact hcall (.insertAssignment ..) trivial hf hdone (by simp)
    | remove l => exact hcall (.deleteAssignment ..) trivial hf hdone (by simp)
  | dropLink a => exact hlive.elim

end

/-! ### A sync of another member or link -/

/-- A per-player sync leaves every pair of another member alone. -/
theorem syncForPlayer_untouched (libs : Libs) (schedule : Nat → Nat) {u d : Text} (hu : u ≠ d)
    (k : LinkKey) (w : World) : Syncs Config (Untouched k d) (syncForPlayer libs schedule u)
    (fun _ _ => True) w := by
  have hperform : ∀ (actions : List Action) (w : World),
      Syncs Config (Untouched k d) (performActions u schedule actions) (fun _ _ => True) w := by
    intro actions w
    refine Syncs.mono (fun _ _ _ => trivial)
      (forEachConcurrent_syncs (J := fun fs _ => ∀ f ∈ fs, LiveFuture f) Config.refl
        (fun _ _ _ _ h => h) ?_ (by decide) schedule le_rfl ?_)
    · intro pre f post t hlive
      refine Syncs.mono ?_ (pollAction_untouched (k := k) (m := d) (P := fun _ => True)
        (fun _ _ h => h)
        (fun _ _ _ _ => trivial) (fun _ _ _ _ => trivial) (hlive f (by simp))
          (fun h => hu h.2) trivial)
      rintro next v ⟨hweight, hnext, -⟩
      refine ⟨hweight, fun g hg => ?_⟩
      simp only [List.mem_append] at hg
      rcases hg with (hg | hg) | hg
      · exact hlive g (by simp [hg])
      · exact (hnext g hg).1
      · exact hlive g (by simp [hg])
    · intro f hf
      obtain ⟨a, -, rfl⟩ := List.mem_map.1 hf
      trivial
  have hread : ∀ t, Untouched k d t (t.effect (.fetchUserGuildIds u)) :=
    fun t => untouched_effect (c := .fetchUserGuildIds u) trivial id t
  refine Syncs.ask_bind fun t₁ h₁ => ⟨hread t₁, Syncs.ask_bind fun t₂ h₂ => ⟨Untouched.refl _,
    Syncs.ask_bind fun t₃ h₃ => ⟨Untouched.refl _, ?_⟩⟩⟩
  dsimp only
  split
  · exact Syncs.pure fun _ _ => trivial
  · refine Syncs.ask_bind fun t₄ h₄ => ⟨Untouched.refl _, ?_⟩
    split
    · exact Syncs.pure fun _ _ => trivial
    · refine Syncs.bind Config.refl
        (Syncs.mono ?_ (vetOptouts_syncs (K := fun w => w.optouts = t₄.optouts)
          Config.refl Untouched.refl (fun _ _ h hw => h.2.trans hw) (fun _ h => h) _ rfl))
      rintro ⟨optedOut, unknown⟩ t₅ ⟨-, rfl, -⟩
      refine Syncs.bind Config.refl
        (Syncs.mono ?_ (planActions_syncs (K := fun _ => True) (D := fun _ _ => True)
          (b := ⟨[], [], [], [], false, .null⟩) Config.refl Untouched.refl (fun _ _ _ _ => trivial)
          (fun _ _ _ _ _ => trivial) (fun _ _ => trivial) _ _ trivial))
      rintro actions t₆ -
      split
      · exact Syncs.pure fun _ _ => trivial
      · refine Syncs.bind Config.refl (Syncs.mono ?_ (hperform actions t₆))
        exact fun _ _ _ => Syncs.pure fun _ _ => trivial

private theorem queryQualifying_syncs {rely guar : World → World → Prop} (hrefl : ∀ w, rely w w)
    (hguar : ∀ w, guar w w) {β : Type} {libs : Libs} {formId : Text} {optoutIds : List Text}
    {grantAny : Bool} {conditions : List Condition} {f : List Text → SyncM β}
    {post : β → World → Prop} {w : World}
    (h : ∀ t, rely w t → ∀ u, rely t u → Syncs rely guar
      (f (collectQualifying libs grantAny conditions .empty
        (t.answer (.selectCandidates formId optoutIds))).toList)
      post u) :
    Syncs rely guar (queryQualifying libs formId optoutIds grantAny conditions none >>= f) post w :=
  Syncs.bind hrefl (Syncs.ask_bind fun t ht => ⟨hguar t, Syncs.pure fun u hu => h t ht u hu⟩)

/-- A bulk sync leaves every pair of another link alone. -/
theorem syncForRoleLink_untouched (libs : Libs) {g r : Text} {k : LinkKey} (hk : (g, r) ≠ k)
    (d : Text) (w : World) :
    Syncs Config (Untouched k d) (syncForRoleLink libs g r) (fun _ _ => True) w := by
  refine Syncs.ask_bind fun t₁ h₁ => ⟨Untouched.refl _, ?_⟩
  split
  · exact Syncs.pure fun _ _ => trivial
  · rename_i link hlink
    split
    · exact Syncs.pure fun _ _ => trivial
    · rename_i formId hform
      dsimp only
      split
      · refine Syncs.attempt_bind fun t ht =>
          ⟨untouched_effect (c := .uploadUsers ..) trivial hk t, ?_⟩
        exact Syncs.ask fun u hu =>
          ⟨untouched_effect (c := .deleteAssignments ..) trivial hk u, fun _ _ => trivial⟩
      · refine Syncs.ask_bind fun t₂ h₂ =>
          ⟨Untouched.refl _, queryQualifying_syncs Config.refl Untouched.refl ?_⟩
        intro t₃ h₃ t₄ h₄
        refine Syncs.ask_bind fun t₅ h₅ => ⟨Untouched.refl _, ?_⟩
        split
        · exact Syncs.pure fun _ _ => trivial
        · refine Syncs.attempt_bind fun t ht =>
            ⟨untouched_effect (c := .uploadUsers ..) trivial hk t, ?_⟩
          exact Syncs.ask fun u hu =>
            ⟨untouched_effect (c := .replaceAssignments ..) trivial hk u, fun _ _ => trivial⟩

/-! ### A sync of the pair itself -/

section

variable {libs : Libs} {l : RoleLink} {d : Text} {owed : World → Prop}

/-- The link is configured as `l`, and the mirror and RoleLogic's list hold these bits at the
pair. -/
private structure Holding (l : RoleLink) (d : Text) (m g : Bool) (w : World) : Prop where
  sound : w.Sound l
  link : l ∈ w.roleLinks
  mirrored : w.mirrored l.key d = m
  granted : w.granted l.key d = g

/-- The pair should hold `q`, or will be looked at again. -/
private def Decided (libs : Libs) (l : RoleLink) (d : Text) (owed : World → Prop) (q : Bool)
    (w : World) : Prop :=
  owed w ∨ w.desired libs l d = q

private theorem Holding.rely {m g : Bool} {w t : World} (h : Rely libs l d owed w t)
    (hw : Holding l d m g w) :
    Holding l d m g t :=
  ⟨h.sound hw.sound, h.config.1 ▸ hw.link, h.mirrored.trans hw.mirrored, h.granted.trans hw.granted⟩

private theorem Decided.rely {q : Bool} {w t : World} (h : Rely libs l d owed w t)
    (hw : Decided libs l d owed q w) : Decided libs l d owed q t := by
  rcases hw with hw | hw
  · exact Or.inl (h.stillOwed hw)
  · rcases h.desired with h' | h'
    · exact Or.inr (h'.trans hw)
    · exact Or.inl h'

private theorem settled_of_holding {q : Bool} {w : World} (h : Holding l d q q w)
    (hq : Decided libs l d owed q w) : Settled libs l d owed w := by
  refine ⟨h.mirrored.trans h.granted.symm, ?_⟩
  rcases hq with ho | hd
  · exact Or.inl ho
  · exact Or.inr (h.mirrored.trans hd.symm)

/-- Steps of this sync keep what has been decided. -/
private theorem Decided.frame (howed : ∀ w w', World.Frame w w' → owed w → owed w') {q : Bool}
    {w t : World} (h : World.Frame w t) (hw : Decided libs l d owed q w) :
    Decided libs l d owed q t := by
  rcases hw with hw | hw
  · exact Or.inl (howed w t h hw)
  · exact Or.inr ((h.desired libs l d).trans hw)

/-- A call that sets the pair's bit in RoleLogic's list to what was decided. -/
private theorem grant_step {q m g : Bool} {c : SyncCall} (hb : c.Benign) {w : World}
    (hm : (w.effect c).mirrored l.key d = w.mirrored l.key d)
    (hg : (w.effect c).granted l.key d = q) (hw : Holding l d m g w)
    (hq : Decided libs l d owed q w) :
    Toward libs l d owed w (w.effect c) ∧ Holding l d m q (w.effect c) := by
  have hframe := SyncCall.effect_frame hb w
  refine ⟨⟨hframe, Or.inl hm, Or.inr ?_⟩,
    ⟨hframe.sound hw.sound, hframe.roleLinks ▸ hw.link, hm.trans hw.mirrored, hg⟩⟩
  rcases hq with ho | hd
  · exact Or.inl ho
  · exact Or.inr (hg.trans hd.symm)

/-- A call that sets the pair's bit in the mirror to what was decided. -/
private theorem mirror_step {q m g : Bool} {c : SyncCall} (hb : c.Benign) {w : World}
    (hm : (w.effect c).mirrored l.key d = q) (hg : (w.effect c).granted l.key d = w.granted l.key d)
    (hw : Holding l d m g w) (hq : Decided libs l d owed q w) :
    Toward libs l d owed w (w.effect c) ∧ Holding l d q g (w.effect c) := by
  have hframe := SyncCall.effect_frame hb w
  refine ⟨⟨hframe, Or.inr ?_, Or.inl hg⟩,
    ⟨hframe.sound hw.sound, hframe.roleLinks ▸ hw.link, hm, hg.trans hw.granted⟩⟩
  rcases hq with ho | hd
  · exact Or.inl ho
  · exact Or.inr (hm.trans hd.symm)

/-! #### Bulk -/

theorem mem_collectQualifying {grantAny : Bool} {conditions : List Condition} {s : SortedSet Text}
    {rows : List (Text × ResponseEvalData)} :
    d ∈ collectQualifying libs grantAny conditions s rows ↔
      d ∈ s ∨ ∃ data, (d, data) ∈ rows ∧ evaluate libs grantAny conditions data = true := by
  induction rows generalizing s with
  | nil => simp [collectQualifying]
  | cons row rows ih =>
    obtain ⟨d', data'⟩ := row
    rw [collectQualifying]
    split
    · rename_i hmem
      rw [ih]
      constructor
      · rintro (hs | ⟨data, hrow, hev⟩)
        · exact Or.inl hs
        · exact Or.inr ⟨data, List.mem_cons_of_mem _ hrow, hev⟩
      · rintro (hs | ⟨data, hrow, hev⟩)
        · exact Or.inl hs
        · rcases List.mem_cons.1 hrow with heq | hrow
          · obtain ⟨rfl, rfl⟩ := Prod.mk.injEq .. ▸ heq
            exact Or.inl hmem
          · exact Or.inr ⟨data, hrow, hev⟩
    · split
      · rename_i hev'
        rw [ih, SortedSet.mem_insert]
        constructor
        · rintro ((rfl | hs) | ⟨data, hrow, hev⟩)
          · exact Or.inr ⟨data', List.mem_cons_self, hev'⟩
          · exact Or.inl hs
          · exact Or.inr ⟨data, List.mem_cons_of_mem _ hrow, hev⟩
        · rintro (hs | ⟨data, hrow, hev⟩)
          · exact Or.inl (Or.inr hs)
          · rcases List.mem_cons.1 hrow with heq | hrow
            · exact Or.inl (Or.inl (Prod.mk.inj heq).1)
            · exact Or.inr ⟨data, hrow, hev⟩
      · rename_i hev'
        rw [ih]
        constructor
        · rintro (hs | ⟨data, hrow, hev⟩)
          · exact Or.inl hs
          · exact Or.inr ⟨data, List.mem_cons_of_mem _ hrow, hev⟩
        · rintro (hs | ⟨data, hrow, hev⟩)
          · exact Or.inl hs
          · rcases List.mem_cons.1 hrow with heq | hrow
            · exact absurd (Prod.mk.inj heq).2 fun h => hev' (h ▸ hev)
            · exact Or.inr ⟨data, hrow, hev⟩

private theorem desired_iff {w : World} :
    w.desired libs l d = true ↔ d ∉ w.optouts l.guildId ∧ ∃ row ∈ w.formResponses,
      (l.formId = some row.formId ∧ row.discordId = d) ∧
        evaluate libs l.grantOnAnySubmission (conditionsOf l.conditions) row.data = true := by
  simp [World.desired]

/-- The bulk query decides membership as `desired` does. -/
private theorem bulk_decides {formId : Text} (hform : l.formId = some formId) {w : World}
    (hw : w.Sound l) {opt : List Text} (hopt : opt = w.optouts l.guildId) :
    w.desired libs l d =
      decide (d ∈ collectQualifying libs l.grantOnAnySubmission (conditionsOf l.conditions) .empty
        (w.answer (.selectCandidates formId opt))) := by
  rw [Bool.eq_iff_iff, decide_eq_true_iff, mem_collectQualifying, desired_iff, hopt, hform]
  simp only [World.answer, List.mem_map, List.mem_filter, decide_eq_true_eq, Option.some.injEq,
    SortedSet.mem_empty,
    false_or, Prod.mk.injEq]
  constructor
  · rintro ⟨hout, row, hrow, ⟨rfl, rfl⟩, hev⟩
    exact ⟨_, ⟨row, ⟨hrow, rfl, hw.responses_member row hrow, hout⟩, rfl, rfl⟩, hev⟩
  · rintro ⟨_, ⟨row, ⟨hrow, rfl, -, hout⟩, rfl, rfl⟩, hev⟩
    exact ⟨hout, row, hrow, ⟨rfl, rfl⟩, hev⟩

private theorem mem_selectAssigned {w : World} :
    d ∈ w.answer (.selectAssigned l.guildId l.roleId) ↔ w.mirrored l.key d = true := by
  rw [World.mirrored, has, decide_eq_true_iff]
  simp only [World.answer, List.mem_map, List.mem_filter, decide_eq_true_eq, Assignment.key,
    Prod.mk.injEq]
  constructor
  · rintro ⟨⟨g, r, u⟩, ⟨hmem, rfl, rfl⟩, rfl⟩
    exact hmem
  · exact fun h => ⟨⟨l.guildId, l.roleId, d⟩, ⟨h, rfl, rfl⟩, rfl⟩

private theorem syncConfigured_settles (howed : ∀ w w', World.Frame w w' → owed w → owed w')
    {formId : Text} (hform : l.formId = some formId) {e : Bool} {w : World}
    (hw : Holding l d e e w) :
    Syncs (Rely libs l d owed) (Toward libs l d owed)
      (syncConfigured libs l.guildId l.roleId l.apiToken formId l.grantOnAnySubmission
        (conditionsOf l.conditions))
      (fun _ t => Settled libs l d owed t) w := by
  refine Syncs.ask_bind fun t₁ h₁ => ⟨(Untouched.refl _).toward,
    queryQualifying_syncs Rely.refl (fun t => (Untouched.refl t).toward) ?_⟩
  intro t₂ h₂ t₃ h₃
  have hopt : t₁.answer (.fetchGuildOptoutIds l.guildId) = t₂.optouts l.guildId :=
    (congrFun h₂.config.2 _).symm
  have hold₂ := (hw.rely h₁).rely h₂
  -- the members that the query collects at `t₂` are decided from then on
  have hq₂ : Decided libs l d owed _ t₂ := Or.inr (bulk_decides hform hold₂.sound hopt)
  generalize collectQualifying libs l.grantOnAnySubmission (conditionsOf l.conditions) .empty _ =
    ids at hq₂ ⊢
  refine Syncs.ask_bind fun t₄ h₄ => ⟨(Untouched.refl _).toward, ?_⟩
  have hold₄ := (hold₂.rely h₃).rely h₄
  have hq₄ := (hq₂.rely h₃).rely h₄
  split
  · rename_i heq
    refine Syncs.pure fun t₅ h₅ => settled_of_holding ?_ (hq₄.rely h₅)
    have hmem : t₄.mirrored l.key d = decide (d ∈ ids) := by
      rw [Bool.eq_iff_iff, decide_eq_true_iff, ← mem_selectAssigned, SortedSet.mem_def, ← heq,
        List.mem_insertionSort]
    have he : e = decide (d ∈ ids) := hold₄.mirrored.symm.trans hmem
    exact he ▸ hold₄.rely h₅
  · refine Syncs.attempt_bind fun t₅ h₅ => ?_
    have hgrant := grant_step (c := .uploadUsers l.guildId l.roleId ids.toList l.apiToken) trivial
      rfl
      ((has_replaceRows_self ..).trans
        (decide_eq_decide.2 (List.mem_dedup.trans SortedSet.mem_def.symm)))
      (hold₄.rely h₅) (hq₄.rely h₅)
    refine ⟨hgrant.1, Syncs.ask fun t₆ h₆ => ?_⟩
    have hq₆ := ((hq₄.rely h₅).frame howed hgrant.1.frame).rely h₆
    have hmirror := mirror_step (c := .replaceAssignments l.guildId l.roleId ids.toList) trivial
      ((has_replaceRows_self ..).trans (decide_eq_decide.2 SortedSet.mem_def.symm)) rfl
        (hgrant.2.rely h₆) hq₆
    refine ⟨hmirror.1, fun t₇ h₇ => settled_of_holding (hmirror.2.rely h₇) ?_⟩
    exact (hq₆.frame howed hmirror.1.frame).rely h₇

private theorem desired_unconfigured (hgrant : l.grantOnAnySubmission = false)
    (hcond : conditionsOf l.conditions = []) (w : World) : w.desired libs l d = false := by
  rw [Bool.eq_false_iff, Ne, desired_iff]
  rintro ⟨-, row, -, -, hev⟩
  rw [hgrant, hcond, evaluate_unconfigured] at hev
  cases hev

/-- A bulk sync of the link settles every pair of the link. -/
theorem syncForRoleLink_settles (howed : ∀ w w', World.Frame w w' → owed w → owed w')
    {formId : Text} (hform : l.formId = some formId) {w : World} (hsound : w.Sound l)
    (hl : l ∈ w.roleLinks) (hagree : w.mirrored l.key d = w.granted l.key d) :
    Syncs (Rely libs l d owed) (Toward libs l d owed) (syncForRoleLink libs l.guildId l.roleId)
      (fun _ t => Settled libs l d owed t) w := by
  have hw : Holding l d (w.mirrored l.key d) (w.mirrored l.key d) w :=
    ⟨hsound, hl, rfl, hagree.symm⟩
  refine Syncs.ask_bind fun t₁ h₁ => ⟨(Untouched.refl _).toward, ?_⟩
  have hold₁ := hw.rely h₁
  have hfind : t₁.answer (.selectLink l.guildId l.roleId) = some l :=
    World.find_link hold₁.sound.links_nodup hold₁.link
  rw [hfind]
  dsimp only
  rw [hform]
  dsimp only
  split
  · rename_i hun
    rw [Bool.and_eq_true, Bool.not_eq_true', List.isEmpty_iff] at hun
    have hq : ∀ t, Decided libs l d owed false t :=
      fun t => Or.inr (desired_unconfigured hun.1 hun.2 t)
    refine Syncs.attempt_bind fun t₂ h₂ => ?_
    have hgrant := grant_step (c := .uploadUsers l.guildId l.roleId [] l.apiToken) trivial rfl
      (has_replaceRows_self ..) (hold₁.rely h₂) (hq t₂)
    refine ⟨hgrant.1, Syncs.ask fun t₃ h₃ => ?_⟩
    have hmirror := mirror_step (c := .deleteAssignments l.guildId l.roleId) trivial
      (has_replaceRows_self ..) rfl (hgrant.2.rely h₃) (hq t₃)
    exact ⟨hmirror.1, fun t₄ h₄ => settled_of_holding (hmirror.2.rely h₄) (hq t₄)⟩
  · exact syncConfigured_settles howed hform hold₁

/-! #### Per player -/

/-- Where the futures of the pair's link stand, with the bits in mirror and list and the bit to
reach. -/
private inductive FutureStage : Bool → Bool → Bool → List ActionFuture → Prop
  | done (q : Bool) : FutureStage q q q []
  | startAdd (b : BoundLink) : FutureStage true false false [.start (.add b)]
  | startRemove (b : BoundLink) : FutureStage false true true [.start (.remove b)]
  | storeAdd (b : BoundLink) : FutureStage true false true [.store (.add b)]
  | storeRemove (b : BoundLink) : FutureStage false true false [.store (.remove b)]

private theorem stage_actionFor (b : BoundLink) (q e : Bool) :
    FutureStage q e e ((actionFor b q e).map ActionFuture.start) := by
  cases q <;> cases e
  · exact FutureStage.done false
  · exact FutureStage.startRemove b
  · exact FutureStage.startAdd b
  · exact FutureStage.done true

private theorem stage_length {q m g : Bool} {fs : List ActionFuture} (h : FutureStage q m g fs) :
    fs.length ≤ 1 := by
  cases h <;> simp

private theorem stage_mem_unique {q m g : Bool} {xs ys : List ActionFuture} {f : ActionFuture}
    (h : FutureStage q m g (xs ++ f :: ys)) : xs = [] ∧ ys = [] := by
  have hlen := stage_length h
  rw [List.length_append, List.length_cons] at hlen
  exact ⟨List.length_eq_zero_iff.1 (by omega), List.length_eq_zero_iff.1 (by omega)⟩

/-- The invariant of the concurrent actions, for the pair. -/
private def StageHeld (libs : Libs) (l : RoleLink) (d : Text) (owed : World → Prop) (q : Bool)
    (fs : List ActionFuture) (w : World) : Prop :=
  Decided libs l d owed q w ∧ ∃ m g, FutureStage q m g fs ∧ Holding l d m g w

private theorem StageHeld.rely {q : Bool} {fs : List ActionFuture} {w t : World}
    (h : Rely libs l d owed w t) (hw : StageHeld libs l d owed q fs w) :
    StageHeld libs l d owed q fs t := by
  obtain ⟨hq, m, g, hstage, hold⟩ := hw
  exact ⟨hq.rely h, m, g, hstage, hold.rely h⟩

private theorem pollAction_pending (howed : ∀ w w', World.Frame w w' → owed w → owed w') {q : Bool}
    {f : ActionFuture} (hkey : f.action.link.key = l.key) {w : World}
    (hw : StageHeld libs l d owed q [f] w) :
    Syncs (Rely libs l d owed) (Toward libs l d owed) (pollAction d f)
      (fun next t => totalWeight next.toList < f.weight ∧
        (∀ g ∈ next.toList, LiveFuture g ∧ g.action = f.action) ∧
        StageHeld libs l d owed q next.toList t) w := by
  obtain ⟨hq, m, g, hstage, hold⟩ := hw
  have hweight : ∀ a, totalWeight (some (ActionFuture.store a)).toList <
      (ActionFuture.start a).weight := by
    intro a
    simp [totalWeight, ActionFuture.weight]
  have hdone : totalWeight (none : Option ActionFuture).toList < f.weight := weight_pos f
  cases hstage with
  | startAdd b =>
    refine Syncs.attempt_bind fun t ht => ?_
    have hstep := grant_step (c := .addUser b.guildId b.roleId d b.apiToken) trivial rfl
      (hkey ▸ has_insertRow_self ..) (hold.rely ht) (hq.rely ht)
    refine ⟨hstep.1, Syncs.pure fun u hu =>
      ⟨hweight _, by simp [LiveFuture, ActionFuture.action], ?_⟩⟩
    exact ⟨((hq.rely ht).frame howed hstep.1.frame).rely hu, _, _, FutureStage.storeAdd b,
      hstep.2.rely hu⟩
  | startRemove b =>
    refine Syncs.attempt_bind fun t ht => ?_
    have hstep := grant_step (c := .removeUser b.guildId b.roleId d b.apiToken) trivial rfl
      (hkey ▸ has_removeRow_self ..) (hold.rely ht) (hq.rely ht)
    refine ⟨hstep.1, Syncs.pure fun u hu =>
      ⟨hweight _, by simp [LiveFuture, ActionFuture.action], ?_⟩⟩
    exact ⟨((hq.rely ht).frame howed hstep.1.frame).rely hu, _, _, FutureStage.storeRemove b,
      hstep.2.rely hu⟩
  | storeAdd b =>
    refine Syncs.attempt_bind fun t ht => ?_
    have hstep := mirror_step (c := .insertAssignment b.guildId b.roleId d) trivial
      (hkey ▸ has_insertRow_self ..) rfl (hold.rely ht) (hq.rely ht)
    refine ⟨hstep.1, Syncs.pure fun u hu => ⟨hdone, by simp, ?_⟩⟩
    exact ⟨((hq.rely ht).frame howed hstep.1.frame).rely hu, _, _, FutureStage.done true,
      hstep.2.rely hu⟩
  | storeRemove b =>
    refine Syncs.attempt_bind fun t ht => ?_
    have hstep := mirror_step (c := .deleteAssignment b.guildId b.roleId d) trivial
      (hkey ▸ has_removeRow_self ..) rfl (hold.rely ht) (hq.rely ht)
    refine ⟨hstep.1, Syncs.pure fun u hu => ⟨hdone, by simp, ?_⟩⟩
    exact ⟨((hq.rely ht).frame howed hstep.1.frame).rely hu, _, _, FutureStage.done false,
      hstep.2.rely hu⟩

/-- The futures of the pair's link. -/
private def ofLink (k : LinkKey) (fs : List ActionFuture) : List ActionFuture :=
  fs.filter fun f => f.action.link.key = k

private theorem ofLink_append (k : LinkKey) (fs gs : List ActionFuture) :
    ofLink k (fs ++ gs) = ofLink k fs ++ ofLink k gs := List.filter_append fs gs

private theorem ofLink_self {k : LinkKey} {fs : List ActionFuture}
    (h : ∀ f ∈ fs, f.action.link.key = k) :
    ofLink k fs = fs := List.filter_eq_self.2 fun f hf => decide_eq_true (h f hf)

private theorem ofLink_ne {k : LinkKey} {fs : List ActionFuture}
    (h : ∀ f ∈ fs, f.action.link.key ≠ k) :
    ofLink k fs = [] := List.filter_eq_nil_iff.2 fun f hf => by simpa using h f hf

private theorem performActions_settles (howed : ∀ w w', World.Frame w w' → owed w → owed w')
    (schedule : Nat → Nat) {actions : List Action} {q : Bool} {w : World}
    (hw : StageHeld libs l d owed q (ofLink l.key (actions.map ActionFuture.start)) w) :
    Syncs (Rely libs l d owed) (Toward libs l d owed) (performActions d schedule actions)
      (fun _ t => Settled libs l d owed t) w := by
  refine Syncs.mono ?_ (forEachConcurrent_syncs
    (J := fun fs t => (∀ f ∈ fs, LiveFuture f) ∧ StageHeld libs l d owed q (ofLink l.key fs) t)
    Rely.refl (fun fs t u h hJ => ⟨hJ.1, hJ.2.rely h⟩) ?_ (by decide) schedule le_rfl ⟨?_, hw⟩)
  · rintro - t ⟨-, hq, m, g, hstage, hold⟩
    cases hstage with
    | done => exact settled_of_holding hold hq
  · rintro pre f post t ⟨hlive, hpending⟩
    have hlive' : ∀ {n : Option ActionFuture},
      (∀ g ∈ n.toList, LiveFuture g ∧ g.action = f.action) →
        ∀ g ∈ pre ++ n.toList ++ post, LiveFuture g := by
      intro n hn g hg
      simp only [List.mem_append] at hg
      rcases hg with (hg | hg) | hg
      · exact hlive g (by simp [hg])
      · exact (hn g hg).1
      · exact hlive g (by simp [hg])
    rw [ofLink_append, ← List.singleton_append, ofLink_append] at hpending
    by_cases hkey : f.action.link.key = l.key
    · -- the pair's own future: it is the only one of its link
      have hself : ofLink l.key [f] = [f] := ofLink_self (by simpa using hkey)
      rw [hself] at hpending
      obtain ⟨hpre, hpost⟩ : ofLink l.key pre = [] ∧ ofLink l.key post = [] :=
        stage_mem_unique hpending.2.choose_spec.choose_spec.1
      rw [hpre, hpost] at hpending
      refine Syncs.mono ?_ (pollAction_pending howed hkey hpending)
      rintro next u ⟨hweight, hnext, hu⟩
      refine ⟨hweight, hlive' hnext, ?_⟩
      have hself : ofLink l.key next.toList = next.toList :=
        ofLink_self fun g hg => (hnext g hg).2 ▸ hkey
      rw [ofLink_append, ofLink_append, hpre, hpost, hself, List.nil_append, List.append_nil]
      exact hu
    · have hnil : ofLink l.key [f] = [] := ofLink_ne (by simpa using hkey)
      rw [hnil, List.nil_append] at hpending
      refine Syncs.mono ?_ (pollAction_untouched (k := l.key) (m := d) (fun _ _ h => h.toward)
        (fun _ _ h => StageHeld.rely h) (fun _ _ h => StageHeld.rely (h.rely howed))
          (hlive f (by simp))
        (fun h => hkey h.1) hpending)
      rintro next u ⟨hweight, hnext, hu⟩
      refine ⟨hweight, hlive' hnext, ?_⟩
      have hne : ofLink l.key next.toList = [] := ofLink_ne fun g hg => (hnext g hg).2 ▸ hkey
      rw [ofLink_append, ofLink_append, hne, List.append_nil]
      exact hu
  · intro f hf
    obtain ⟨a, -, rfl⟩ := List.mem_map.1 hf
    trivial

private theorem mem_selectResponses {w : World} {formId : Text} {data : ResponseEvalData} :
    data ∈ w.answer (.selectResponses formId d) ↔
      ∃ row ∈ w.formResponses, (row.formId = formId ∧ row.discordId = d) ∧ row.data = data := by
  simp only [World.answer, List.mem_map, List.mem_filter, decide_eq_true_eq, and_assoc]

/-- The per-player sync decides membership as `desired` does. -/
private theorem qualifiesAt_eq {formId : Text} (hform : l.formId = some formId)
    {optedOut : List Text} {w : World} (hout : l.guildId ∈ optedOut ↔ d ∈ w.optouts l.guildId) :
    qualifiesAt libs d optedOut (l.toBound formId) w = w.desired libs l d := by
  rw [Bool.eq_iff_iff, desired_iff, qualifiesAt, Bool.and_eq_true, decide_eq_true_iff,
    List.any_eq_true]
  refine and_congr (not_congr hout) ?_
  constructor
  · rintro ⟨data, hdata, hev⟩
    obtain ⟨row, hrow, ⟨hid, hd⟩, rfl⟩ := mem_selectResponses.1 hdata
    exact ⟨row, hrow, ⟨hform.trans (congrArg some hid.symm), hd⟩, hev⟩
  · rintro ⟨row, hrow, ⟨hid, hd⟩, hev⟩
    have hid' : row.formId = formId := Option.some.inj (hid.symm.trans hform)
    exact ⟨_, mem_selectResponses.2 ⟨row, hrow, ⟨hid', hd⟩, rfl⟩, hev⟩

private theorem finishActions_settles (howed : ∀ w w', World.Frame w w' → owed w → owed w')
    (schedule : Nat → Nat) {actions : List Action} {q : Bool} {w : World}
    (hw : StageHeld libs l d owed q (ofLink l.key (actions.map ActionFuture.start)) w) :
    Syncs (Rely libs l d owed) (Toward libs l d owed)
      (if actions.isEmpty then finish (deferredError [])
       else do
        performActions d schedule actions
        finish (deferredError []))
      (fun _ t => Settled libs l d owed t) w := by
  split
  · rename_i hnil
    rw [List.isEmpty_iff] at hnil
    subst hnil
    obtain ⟨hq, m, g, hstage, hold⟩ := hw
    cases hstage with
    | done => exact Syncs.pure fun t ht => settled_of_holding (hold.rely ht) (hq.rely ht)
  · refine Syncs.bind Rely.refl (Syncs.mono ?_ (performActions_settles howed schedule hw))
    exact fun _ t ht => Syncs.pure fun u hu => Settled.rely hu ht

private theorem ofLink_start (k : LinkKey) (actions : List Action) :
    ofLink k (actions.map ActionFuture.start) =
      (actions.filter fun a => a.link.key = k).map ActionFuture.start := by
  rw [ofLink, List.filter_map]
  rfl

private theorem syncLinks_settles (howed : ∀ w w', World.Frame w w' → owed w → owed w')
    (schedule : Nat → Nat) {formId : Text} (hform : l.formId = some formId)
    {existing : List LinkKey} {links : List BoundLink} (hnodup : (links.map BoundLink.key).Nodup)
    (hb : l.toBound formId ∈ links) {w : World}
    (hw : Holding l d (decide (l.key ∈ existing)) (decide (l.key ∈ existing)) w) :
    Syncs (Rely libs l d owed) (Toward libs l d owed) (syncLinks libs schedule d existing links)
      (fun _ t => Settled libs l d owed t) w := by
  have hguar : ∀ w, Toward libs l d owed w w := fun w => (Untouched.refl w).toward
  let K : World → Prop := fun t =>
    t.optouts = w.optouts ∧ Holding l d (decide (l.key ∈ existing)) (decide (l.key ∈ existing)) t
  have hK : ∀ t u, Rely libs l d owed t u → K t → K u :=
    fun t u h ht => ⟨h.config.2.trans ht.1, ht.2.rely h⟩
  refine Syncs.bind Rely.refl (Syncs.mono ?_
    (vetOptouts_syncs (K := K) Rely.refl hguar hK (fun _ h => h.1) _ ⟨rfl, hw⟩))
  rintro ⟨optedOut, unknown⟩ t₁ ⟨hK₁, rfl, hmem⟩
  have hout : l.guildId ∈ optedOut ↔ d ∈ w.optouts l.guildId := by
    refine (hmem _).trans (and_iff_right ?_)
    exact SortedSet.mem_def.1 (SortedSet.mem_ofList.2 (List.mem_map_of_mem hb))
  refine Syncs.bind Rely.refl
    (Syncs.mono ?_ (planActions_syncs (K := K) (D := Decided libs l d owed)
      (b := l.toBound formId) Rely.refl hguar hK (fun _ _ _ h hq => hq.rely h) ?_ existing links hK₁))
  · rintro actions t₂ ⟨hK₂, hplan⟩
    obtain ⟨q, hq, hactions⟩ := (hplan hnodup).1 hb
    refine finishActions_settles (q := q) howed schedule ⟨hq, _, _, ?_, hK₂.2⟩
    rw [ofLink_start]
    exact hactions ▸ stage_actionFor _ _ _
  · rintro t ⟨hopt, hold⟩
    exact Or.inr (qualifiesAt_eq hform (hopt ▸ hout)).symm

/-- When the member's guilds do not include the link's, no action concerns the pair. -/
private theorem syncLinks_settled (howed : ∀ w w', World.Frame w w' → owed w → owed w')
    (schedule : Nat → Nat) {existing : List LinkKey} {links : List BoundLink}
    (hnodup : (links.map BoundLink.key).Nodup) (hb : l.key ∉ links.map BoundLink.key) {w : World}
    (hw : Holding l d false false w) (hq : Decided libs l d owed false w) :
    Syncs (Rely libs l d owed) (Toward libs l d owed) (syncLinks libs schedule d existing links)
      (fun _ t => Settled libs l d owed t) w := by
  have hguar : ∀ w, Toward libs l d owed w w := fun w => (Untouched.refl w).toward
  let K : World → Prop := fun t =>
    t.optouts = w.optouts ∧ Holding l d false false t ∧ Decided libs l d owed false t
  have hK : ∀ t u, Rely libs l d owed t u → K t → K u :=
    fun t u h ht => ⟨h.config.2.trans ht.1, ht.2.1.rely h, ht.2.2.rely h⟩
  refine Syncs.bind Rely.refl (Syncs.mono ?_
    (vetOptouts_syncs (K := K) Rely.refl hguar hK (fun _ h => h.1) _ ⟨rfl, hw, hq⟩))
  rintro ⟨optedOut, unknown⟩ t₁ ⟨hK₁, rfl, -⟩
  refine Syncs.bind Rely.refl (Syncs.mono ?_ (planActions_syncs (K := K) (D := fun _ _ => True)
    (b := l.toBound []) Rely.refl hguar hK (fun _ _ _ _ h => h)
      (fun _ _ => trivial) existing links hK₁))
  rintro actions t₂ ⟨hK₂, hplan⟩
  refine finishActions_settles (q := false) howed schedule ⟨hK₂.2.2, _, _, ?_, hK₂.2.1⟩
  rw [ofLink_start]
  exact (hplan hnodup).2 hb ▸ FutureStage.done false

/-- The selected links: each once, and the link itself when its guild is among the candidates. -/
private theorem selectBoundLinks_nodup {w : World} (hw : w.Sound l) (guilds : List Text) :
    ((w.answer (.selectBoundLinks guilds)).map BoundLink.key).Nodup := by
  have hsub : ∀ links : List RoleLink, (((links.filter fun l => l.guildId ∈ guilds).filterMap
      fun l => l.formId.map l.toBound).map BoundLink.key).Sublist (links.map RoleLink.key) := by
    intro links
    induction links with
    | nil => exact List.Sublist.slnil
    | cons a links ih =>
      rw [List.filter_cons]
      split
      · rw [List.filterMap_cons]
        cases hform : a.formId with
        | none => exact ih.cons _
        | some formId => exact ih.cons_cons a.key
      · exact ih.cons _
  exact (hsub w.roleLinks).nodup hw.links_nodup

private theorem mem_selectBoundLinks {formId : Text} (hform : l.formId = some formId) {w : World}
    (hl : l ∈ w.roleLinks) {guilds : List Text} (hg : l.guildId ∈ guilds) :
    l.toBound formId ∈ w.answer (.selectBoundLinks guilds) := by
  simp only [World.answer, List.mem_filterMap, List.mem_filter, decide_eq_true_eq]
  exact ⟨l, ⟨hl, hg⟩, by rw [hform]; rfl⟩

private theorem key_notMem_selectBoundLinks {w : World} {guilds : List Text}
    (hg : l.guildId ∉ guilds) :
    l.key ∉ (w.answer (.selectBoundLinks guilds)).map BoundLink.key := by
  simp only [World.answer, List.mem_map, List.mem_filterMap, List.mem_filter, decide_eq_true_eq]
  rintro ⟨b, ⟨a, ⟨-, ha⟩, hab⟩, hkey⟩
  obtain ⟨formId, -, rfl⟩ := Option.map_eq_some_iff.1 hab
  exact hg ((Prod.mk.inj hkey).1 ▸ ha)

private theorem mem_selectAssignedLinks {w : World} :
    decide (l.key ∈ w.answer (.selectAssignedLinks d)) = w.mirrored l.key d := by
  rw [World.mirrored, has, decide_eq_decide]
  simp only [World.answer, List.mem_map, List.mem_filter, decide_eq_true_eq]
  constructor
  · rintro ⟨⟨g, r, u⟩, ⟨hmem, rfl⟩, hkey⟩
    exact hkey ▸ hmem
  · exact fun h => ⟨_, ⟨h, rfl⟩, rfl⟩

/-- A member without responses in the link's guild is not desired there. -/
private theorem desired_of_guild {w : World} (hw : w.Sound l)
    (hg : l.guildId ∉ w.answer (.selectRespondentGuilds d)) : w.desired libs l d = false := by
  rw [Bool.eq_false_iff, Ne, desired_iff]
  rintro ⟨-, row, hrow, ⟨hform, hd⟩, -⟩
  refine hg ?_
  simp only [World.answer, List.mem_dedup, List.mem_map, List.mem_filter, decide_eq_true_eq]
  exact ⟨row, ⟨hrow, hd⟩, hw.responses_guild row hrow hform⟩

/-- A per-player sync of the member settles every pair of the member. -/
theorem syncForPlayer_settles (howed : ∀ w w', World.Frame w w' → owed w → owed w')
    (schedule : Nat → Nat) {formId : Text} (hform : l.formId = some formId) {w : World}
    (hsound : w.Sound l) (hl : l ∈ w.roleLinks) (hagree : w.mirrored l.key d = w.granted l.key d) :
    Syncs (Rely libs l d owed) (Toward libs l d owed) (syncForPlayer libs schedule d)
      (fun _ t => Settled libs l d owed t) w := by
  have hw : Holding l d (w.mirrored l.key d) (w.mirrored l.key d) w :=
    ⟨hsound, hl, rfl, hagree.symm⟩
  have hguar : ∀ w, Toward libs l d owed w w := fun w => (Untouched.refl w).toward
  refine Syncs.ask_bind fun t₁ h₁ => ?_
  have hfetch : Untouched l.key d t₁ (t₁.effect (.fetchUserGuildIds d)) :=
    untouched_effect (c := .fetchUserGuildIds d) trivial id t₁
  refine ⟨hfetch.toward, Syncs.ask_bind fun t₂ h₂ =>
    ⟨hguar _, Syncs.ask_bind fun t₃ h₃ => ⟨hguar _, ?_⟩⟩⟩
  have hfetch' : Rely libs l d owed t₁ (t₁.effect (.fetchUserGuildIds d)) := hfetch.rely howed
  have hold₂ := ((hw.rely h₁).rely hfetch').rely h₂
  have hold₃ := hold₂.rely h₃
  have hexisting : w.mirrored l.key d = decide (l.key ∈ t₃.answer (.selectAssignedLinks d)) :=
    hold₃.mirrored.symm.trans mem_selectAssignedLinks.symm
  rw [hexisting] at hold₂ hold₃
  generalize hcand : ((SortedSet.ofList (t₁.answer (.fetchUserGuildIds d))).extend
    (t₂.answer (.selectRespondentGuilds d))).extend
      ((t₃.answer (.selectAssignedLinks d)).map Prod.fst) = candidates
  -- a guild that is not a candidate: no response there, and no assignment
  have hnone : l.guildId ∉ candidates →
      decide (l.key ∈ t₃.answer (.selectAssignedLinks d)) = false ∧
          Decided libs l d owed false t₃ := by
    intro h
    rw [← hcand, SortedSet.mem_extend, SortedSet.mem_extend, not_or, not_or] at h
    have hd : Decided libs l d owed false t₂ := Or.inr (desired_of_guild hold₂.sound h.1.2)
    exact ⟨decide_eq_false fun hmem => h.2 (List.mem_map_of_mem (f := Prod.fst) hmem), hd.rely h₃⟩
  dsimp only
  split
  · rename_i hempty
    obtain ⟨he, hq⟩ := hnone (SortedSet.isEmpty_iff.1 hempty _)
    exact Syncs.pure fun t ht => settled_of_holding ((he ▸ hold₃).rely ht) (hq.rely ht)
  · refine Syncs.ask_bind fun t₄ h₄ => ⟨hguar _, ?_⟩
    have hold₄ := hold₃.rely h₄
    have hnodup := selectBoundLinks_nodup hold₄.sound candidates.toList
    by_cases hg : l.guildId ∈ candidates
    · have hmem := mem_selectBoundLinks hform hold₄.link (SortedSet.mem_def.1 hg)
      have hne : (t₄.answer (.selectBoundLinks candidates.toList)).isEmpty = false :=
        List.isEmpty_eq_false_iff.2 (List.ne_nil_of_mem hmem)
      rw [hne]
      exact syncLinks_settles howed schedule hform hnodup hmem hold₄
    · obtain ⟨he, hq⟩ := hnone hg
      rw [he] at hold₄
      split
      · exact Syncs.pure fun t ht => settled_of_holding (hold₄.rely ht) ((hq.rely h₄).rely ht)
      · exact syncLinks_settled howed schedule hnodup (key_notMem_selectBoundLinks hg) hold₄
          (hq.rely h₄)

end

end FormRespondentRole
