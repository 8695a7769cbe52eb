import FormRespondentRole.SyncWorld

/-!
# What a sync does to one link and one member

For a fixed link `l` and member `d`, a sync either touches the pair or it does not.  One that does
not leaves the mirror and RoleLogic's list as they are at the pair (`Untouched`).  One that does
only ever moves the pair towards the set that the link should hold (`Toward`), and when it ends
mirror and list agree and hold what they should (`Settled`).  Both are proved with others acting
between its calls: `Rely` allows them anything that keeps the configuration and the pair, and new
responses as long as a sync of the pair is then `owed`.
-/

namespace FormRespondentRole

open Foundations

namespace World

/-- What the syncs rely on at a link: the keys of links are unique, and responses to its form carry
its guild. -/
structure Sound (w : World) (l : RoleLink) : Prop where
  links_nodup : (w.roleLinks.map RoleLink.key).Nodup
  responses_guild : ∀ row ∈ w.formResponses, l.formId = some row.formId → row.guildId = l.guildId
  responses_member : ∀ row ∈ w.formResponses, row.discordId ≠ []

/-- The link is bound to a form of its guild. -/
def Binds (w : World) (l : RoleLink) : Prop :=
  ∃ f ∈ w.forms, l.formId = some f.id.text ∧ f.guildId = l.guildId

/-- What the tables keep by their constraints and by how rows are written: every response carries
its form's guild. Links may be unbound. -/
structure Consistent (w : World) : Prop where
  links_nodup : (w.roleLinks.map RoleLink.key).Nodup
  responses_form : ∀ row ∈ w.formResponses, ∀ f ∈ w.forms, f.id.text = row.formId →
    row.guildId = f.guildId
  responses_member : ∀ row ∈ w.formResponses, row.discordId ≠ []

theorem Consistent.sound {w : World} {l : RoleLink} (hw : w.Consistent) (hl : w.Binds l) :
    w.Sound l where
  links_nodup := hw.links_nodup
  responses_guild := by
    intro row hrow hform
    obtain ⟨f, hf, hbound, hguild⟩ := hl
    have hid : f.id.text = row.formId := Option.some.inj (hbound.symm.trans hform)
    exact (hw.responses_form row hrow f hf hid).trans hguild
  responses_member := hw.responses_member

/-- The part of the world that no sync changes. -/
structure Frame (w w' : World) : Prop where
  forms : w'.forms = w.forms
  roleLinks : w'.roleLinks = w.roleLinks
  optouts : w'.optouts = w.optouts
  formResponses : w'.formResponses = w.formResponses
  queued : w'.queued = w.queued
  notEnqueued : w'.notEnqueued = w.notEnqueued

theorem Frame.refl (w : World) : Frame w w := ⟨rfl, rfl, rfl, rfl, rfl, rfl⟩

theorem Frame.trans {w t u : World} (h₁ : Frame w t) (h₂ : Frame t u) : Frame w u :=
  ⟨h₂.forms.trans h₁.forms, h₂.roleLinks.trans h₁.roleLinks, h₂.optouts.trans h₁.optouts,
    h₂.formResponses.trans h₁.formResponses,
    h₂.queued.trans h₁.queued, h₂.notEnqueued.trans h₁.notEnqueued⟩

theorem Frame.sound {w w' : World} {l : RoleLink} (h : Frame w w') (hw : w.Sound l) :
    w'.Sound l where
  links_nodup := h.roleLinks ▸ hw.links_nodup
  responses_guild := by
    rw [h.formResponses]
    exact hw.responses_guild
  responses_member := by
    rw [h.formResponses]
    exact hw.responses_member

theorem Frame.consistent {w w' : World} (h : Frame w w') (hw : w.Consistent) : w'.Consistent where
  links_nodup := h.roleLinks ▸ hw.links_nodup
  responses_form := by
    rw [h.formResponses, h.forms]
    exact hw.responses_form
  responses_member := by
    rw [h.formResponses]
    exact hw.responses_member

theorem Frame.binds {w w' : World} {l : RoleLink} (h : Frame w w') (hl : w.Binds l) :
    w'.Binds l := by
  rw [Binds, h.forms]
  exact hl

theorem Frame.desired {w w' : World} (h : Frame w w') (libs : Libs) (l : RoleLink) (d : Text) :
    w'.desired libs l d = w.desired libs l d := by
  unfold World.desired
  rw [h.optouts, h.formResponses]

/-- A link is what the lookup by its key finds. -/
theorem find_link {w : World} (hnodup : (w.roleLinks.map RoleLink.key).Nodup) {l : RoleLink}
    (hl : l ∈ w.roleLinks) :
    w.roleLinks.find? (fun l' => l'.key = l.key) = some l := by
  generalize w.roleLinks = links at hnodup hl ⊢
  induction links with
  | nil => exact absurd hl List.not_mem_nil
  | cons a links ih =>
    obtain ⟨ha, hnodup'⟩ := List.nodup_cons.1 (List.map_cons .. ▸ hnodup)
    rcases List.mem_cons.1 hl with rfl | hl'
    · exact List.find?_cons_of_pos (by simp)
    · have hne : a.key ≠ l.key := fun h => ha (h ▸ List.mem_map_of_mem hl')
      rw [List.find?_cons_of_neg (by simpa using hne)]
      exact ih hnodup' hl'

end World

namespace SyncCall

/-- The calls that a sync makes when nothing fails. -/
def Benign : SyncCall → Prop
  | deleteRoleLink .. | enqueueConfigSyncUnlessQueued .. => False
  | _ => True

/-- The calls that may change the mirror or RoleLogic's list at a link and member. -/
def Concerns (k : LinkKey) (d : Text) : SyncCall → Prop
  | insertAssignment g r u | deleteAssignment g r u | addUser g r u _ | removeUser g r u _ =>
  (g, r) = k ∧ u = d
  | deleteAssignments g r | replaceAssignments g r _ | uploadUsers g r _ _ | deleteRoleLink g r =>
    (g, r) = k
  | _ => False

theorem effect_frame {c : SyncCall} (hc : c.Benign) (w : World) : World.Frame w (w.effect c) := by
  cases c <;> first | exact ⟨rfl, rfl, rfl, rfl, rfl, rfl⟩ | exact hc.elim

end SyncCall

section

variable (libs : Libs) (l : RoleLink) (d : Text)

/-- A step that leaves the pair alone. -/
structure Untouched (k : LinkKey) (d : Text) (w w' : World) : Prop where
  frame : World.Frame w w'
  mirrored : w'.mirrored k d = w.mirrored k d
  granted : w'.granted k d = w.granted k d

theorem Untouched.refl {k : LinkKey} {d : Text} (w : World) : Untouched k d w w :=
  ⟨World.Frame.refl w, rfl, rfl⟩

theorem Untouched.trans {k : LinkKey} {d : Text} {w t u : World} (h₁ : Untouched k d w t)
    (h₂ : Untouched k d t u) :
    Untouched k d w u :=
  ⟨h₁.frame.trans h₂.frame, h₂.mirrored.trans h₁.mirrored, h₂.granted.trans h₁.granted⟩

variable {l d} in
theorem untouched_effect {c : SyncCall} {k : LinkKey} (hb : c.Benign) (hc : ¬ c.Concerns k d)
    (w : World) :
    Untouched k d w (w.effect c) := by
  refine ⟨SyncCall.effect_frame hb w, ?_, ?_⟩
  · cases c with
    | insertAssignment g r u => exact has_insertRow_ne hc
    | deleteAssignment g r u => exact has_removeRow_ne hc
    | deleteAssignments g r => exact has_replaceRows_ne hc
    | replaceAssignments g r ids => exact has_replaceRows_ne hc
    | deleteRoleLink g r => exact hb.elim
    | enqueueConfigSyncUnlessQueued g r n => exact hb.elim
    | _ => rfl
  · cases c with
    | addUser g r u tok => exact has_insertRow_ne hc
    | removeUser g r u tok => exact has_removeRow_ne hc
    | uploadUsers g r ids tok => exact has_replaceRows_ne hc
    | deleteRoleLink g r => exact hb.elim
    | enqueueConfigSyncUnlessQueued g r n => exact hb.elim
    | _ => rfl

/-- The configuration is kept. -/
def Config (w w' : World) : Prop := w'.roleLinks = w.roleLinks ∧ w'.optouts = w.optouts

theorem Config.refl (w : World) : Config w w := ⟨rfl, rfl⟩

theorem Config.trans {w t u : World} (h₁ : Config w t) (h₂ : Config t u) : Config w u :=
  ⟨h₂.1.trans h₁.1, h₂.2.trans h₁.2⟩

variable (owed : World → Prop)

/-- What the others may do while a sync touches the pair: `owed` says that a later sync of the pair
is certain. -/
structure Rely (w w' : World) : Prop where
  config : Config w w'
  mirrored : w'.mirrored l.key d = w.mirrored l.key d
  granted : w'.granted l.key d = w.granted l.key d
  sound : w.Sound l → w'.Sound l
  stillOwed : owed w → owed w'
  desired : w'.desired libs l d = w.desired libs l d ∨ owed w'

/-- A step that moves the pair, if at all, to where it should be. -/
structure Toward (w w' : World) : Prop where
  frame : World.Frame w w'
  mirrored : w'.mirrored l.key d = w.mirrored l.key d ∨ owed w ∨
    w'.mirrored l.key d = w.desired libs l d
  granted : w'.granted l.key d = w.granted l.key d ∨ owed w ∨
    w'.granted l.key d = w.desired libs l d

/-- Mirror and list agree at the pair, and hold what they should unless a later sync is owed. -/
def Settled (w : World) : Prop :=
  w.mirrored l.key d = w.granted l.key d ∧ (owed w ∨ w.mirrored l.key d = w.desired libs l d)

variable {libs l d owed}

theorem Rely.refl (w : World) : Rely libs l d owed w w :=
  ⟨Config.refl w, rfl, rfl, id, id, Or.inl rfl⟩

theorem Rely.trans {w t u : World} (h₁ : Rely libs l d owed w t) (h₂ : Rely libs l d owed t u) :
    Rely libs l d owed w u where
  config := ⟨h₂.config.1.trans h₁.config.1, h₂.config.2.trans h₁.config.2⟩
  mirrored := h₂.mirrored.trans h₁.mirrored
  granted := h₂.granted.trans h₁.granted
  sound := fun h => h₂.sound (h₁.sound h)
  stillOwed := fun h => h₂.stillOwed (h₁.stillOwed h)
  desired := by
    rcases h₂.desired with h | h
    · rcases h₁.desired with h' | h'
      · exact Or.inl (h.trans h')
      · exact Or.inr (h₂.stillOwed h')
    · exact Or.inr h

theorem Untouched.toward {w w' : World} (h : Untouched l.key d w w') : Toward libs l d owed w w' :=
  ⟨h.frame, Or.inl h.mirrored, Or.inl h.granted⟩

theorem Untouched.rely (howed : ∀ w w', World.Frame w w' → owed w → owed w') {w w' : World}
    (h : Untouched l.key d w w') : Rely libs l d owed w w' :=
  ⟨⟨h.frame.roleLinks, h.frame.optouts⟩, h.mirrored, h.granted, h.frame.sound, howed w w' h.frame,
    Or.inl (h.frame.desired libs l d)⟩

theorem Settled.rely {w t : World} (h : Rely libs l d owed w t) (hw : Settled libs l d owed w) :
    Settled libs l d owed t := by
  refine ⟨h.mirrored.trans (hw.1.trans h.granted.symm), ?_⟩
  rcases hw.2 with ho | hd
  · exact Or.inl (h.stillOwed ho)
  · rcases h.desired with h' | h'
    · exact Or.inr (h.mirrored.trans (hd.trans h'.symm))
    · exact Or.inl h'

end

end FormRespondentRole
