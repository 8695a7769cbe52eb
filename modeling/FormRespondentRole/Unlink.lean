import FormRespondentRole.SyncWorld

/-!
# Unlinking a member

`remove_all_assignments` revokes the roles of a member one by one, logs the calls that fail, and
then deletes all the member's rows.  So the mirror keeps what could not be revoked just when nothing
failed (`unlink_keeps_unrevoked_iff`).
-/

namespace FormRespondentRole

open Foundations

inductive UnlinkCall
  /-- The assignments of a member, each with the token of its link. -/
  | selectAssignments (discordId : Text)
  | removeUser (guildId roleId userId token : Text)
  | deleteRoleLink (guildId roleId : Text)
  | deleteAssignments (discordId : Text)

abbrev UnlinkCall.Answer : UnlinkCall → Type
  | selectAssignments _ => List (LinkKey × Text)
  | removeUser _ _ _ _ => Bool
  | deleteRoleLink _ _ | deleteAssignments _ => Unit

abbrev UnlinkM := ExceptT AppError (Program UnlinkCall fun c => Except AppError c.Answer)

/-- The calls to RoleLogic, one for each assignment. -/
def removeEach (discordId : Text) : List (LinkKey × Text) → UnlinkM Unit
  | [] => pure ()
  | (k, apiToken) :: rest => do
    match ← Program.attempt (UnlinkCall.removeUser k.1 k.2 discordId apiToken) with
    | .ok _ => removeEach discordId rest
    | .error .roleLinkNotFound => do
      let _ ← Program.attempt (UnlinkCall.deleteRoleLink k.1 k.2)
      removeEach discordId rest
    | .error _ => removeEach discordId rest

def removeAllAssignments (discordId : Text) : UnlinkM Unit := do
  let assignments ← Program.ask (UnlinkCall.selectAssignments discordId)
  removeEach discordId assignments
  Program.ask (UnlinkCall.deleteAssignments discordId)

/-! ### Serving the calls -/

/-- The assignments of a member that have a link, with its token. -/
def World.memberAssignments (w : World) (discordId : Text) : List (LinkKey × Text) :=
  (w.roleAssignments.filter fun a => a.discordId = discordId).flatMap fun a =>
    (w.roleLinks.filter fun l => l.key = a.key).map fun l => (a.key, l.apiToken)

/-- RoleLogic answers a removal by `outcome`, and the database statements succeed. -/
def serveUnlink (outcome : LinkKey → Except AppError Bool) (c : UnlinkCall) (w : World) :
    Except AppError c.Answer × World :=
  match c with
  | .selectAssignments discordId => (.ok (w.memberAssignments discordId), w)
  | .removeUser g r u _ =>
    (outcome (g, r), match outcome (g, r) with
      | .ok _ => { w with roleLogic := removeRow ⟨g, r, u⟩ w.roleLogic }
      | .error _ => w)
  | .deleteRoleLink g r => (.ok (), w.effect (.deleteRoleLink g r))
  | .deleteAssignments discordId =>
    (.ok (), { w with roleAssignments := w.roleAssignments.filter fun a =>
      a.discordId ≠ discordId })

/-- The world after a member is unlinked. -/
def unlink (outcome : LinkKey → Except AppError Bool) (discordId : Text) (w : World) :
    Except AppError Unit × World :=
  Program.run (serveUnlink outcome) (removeAllAssignments discordId).run w

/-- A removal was requested for the link. -/
def World.Revokes (w : World) (discordId : Text) (k : LinkKey) : Prop :=
  ∃ token, (k, token) ∈ w.memberAssignments discordId

/-- After the run, whatever it returned: a removal that failed, other than for a link that is gone,
has left the row; one that succeeded has not; and where RoleLogic still lists the member, the mirror
does. -/
structure KeepsUnrevoked (outcome : LinkKey → Except AppError Bool) (discordId : Text)
    (w after : World) : Prop where
  failed : ∀ k e, w.Revokes discordId k → outcome k = .error e → e ≠ .roleLinkNotFound →
    after.mirrored k discordId = true
  revoked : ∀ k b, w.Revokes discordId k → outcome k = .ok b → after.mirrored k discordId = false
  covered : ∀ k, w.Revokes discordId k → outcome k ≠ .error .roleLinkNotFound →
    after.granted k discordId = true →
    after.mirrored k discordId = true

section

variable {outcome : LinkKey → Except AppError Bool} {discordId : Text} {w : World}

/-- What one removal leads to. -/
def removed (outcome : LinkKey → Except AppError Bool) (discordId : Text) (k : LinkKey)
    (w : World) : World :=
  match outcome k with
  | .ok _ => { w with roleLogic := removeRow ⟨k.1, k.2, discordId⟩ w.roleLogic }
  | .error .roleLinkNotFound => w.effect (.deleteRoleLink k.1 k.2)
  | .error _ => w

private theorem run_removeEach_cons (k : LinkKey) (apiToken : Text) (rest : List (LinkKey × Text))
    (w : World) :
    Program.run (serveUnlink outcome) (removeEach discordId ((k, apiToken) :: rest)).run w =
      Program.run (serveUnlink outcome) (removeEach discordId rest).run
      (removed outcome discordId k w) := by
  rw [removeEach, Program.run_attempt_bind, Program.run_call, serveUnlink, removed]
  cases outcome k with
  | ok b => rfl
  | error e => cases e <;> rfl

private theorem granted_removed {k k' : LinkKey}
    (h : (removed outcome discordId k w).granted k' discordId = true) :
    w.granted k' discordId = true := by
  rw [removed] at h
  split at h
  · rw [World.granted, has_removeRow, Bool.and_eq_true] at h
    exact h.1
  · exact h
  · exact h

/-- The calls to RoleLogic list nobody anew, and delist the member wherever the removal succeeds. -/
theorem run_removeEach (outcome : LinkKey → Except AppError Bool)
    (assignments : List (LinkKey × Text)) (w : World) :
    ∃ after, Program.run (serveUnlink outcome) (removeEach discordId assignments).run w =
      (.ok (), after) ∧
      (∀ k, after.granted k discordId = true → w.granted k discordId = true) ∧
      ∀ k token b, (k, token) ∈ assignments → outcome k = .ok b →
        after.granted k discordId = false := by
  induction assignments generalizing w with
  | nil => exact ⟨w, rfl, fun _ h => h, fun _ _ _ hmem => absurd hmem List.not_mem_nil⟩
  | cons first rest ih =>
    obtain ⟨k, apiToken⟩ := first
    obtain ⟨after, hrun, hgranted, hrevoked⟩ := ih (removed outcome discordId k w)
    refine ⟨after, (run_removeEach_cons k apiToken rest w).trans hrun, fun k' h =>
      granted_removed (hgranted k' h), ?_⟩
    intro k' token b hmem hok
    rcases List.mem_cons.1 hmem with heq | hmem
    · obtain ⟨rfl, rfl⟩ := Prod.mk.inj heq
      by_contra hlisted
      have hremoved := hgranted k' (Bool.of_not_eq_false hlisted)
      rw [removed, hok] at hremoved
      have hnot := has_removeRow_self w.roleLogic k'.1 k'.2 discordId
      cases hnot.symm.trans hremoved
    · exact hrevoked k' token b hmem hok

/-- The run returns normally, and the mirror has no row of the member. -/
theorem unlink_spec (outcome : LinkKey → Except AppError Bool) (discordId : Text) (w : World) :
    (unlink outcome discordId w).1 = .ok () ∧
      (∀ k, (unlink outcome discordId w).2.mirrored k discordId = false) ∧
      ∀ k b, w.Revokes discordId k → outcome k = .ok b →
        (unlink outcome discordId w).2.granted k discordId = false := by
  obtain ⟨after, hrun, -, hrevoked⟩ := run_removeEach outcome (w.memberAssignments discordId) w
  have hunlink : unlink outcome discordId w =
      (.ok (), { after with roleAssignments := after.roleAssignments.filter fun a =>
        a.discordId ≠ discordId }) := by
    rw [unlink, removeAllAssignments, Program.run_ask_bind, Program.run_call, serveUnlink]
    dsimp only
    rw [Program.run_except_bind, Program.run_bind, hrun]
    rfl
  rw [hunlink]
  refine ⟨rfl, fun k => ?_, fun k b hk hok => ?_⟩
  · refine decide_eq_false fun hmem => ?_
    exact of_decide_eq_true (List.mem_filter.1 hmem).2 rfl
  · obtain ⟨token, hmem⟩ := hk
    exact hrevoked k token b hmem hok

end

/-- What could not be revoked stays in the mirror just when every removal succeeds or finds its link
gone. -/
theorem unlink_keeps_unrevoked_iff (outcome : LinkKey → Except AppError Bool) (discordId : Text)
    (w : World) :
    KeepsUnrevoked outcome discordId w (unlink outcome discordId w).2 ↔
      ∀ k e, w.Revokes discordId k → outcome k = .error e → e = .roleLinkNotFound := by
  obtain ⟨-, hmirrored, hgranted⟩ := unlink_spec outcome discordId w
  constructor
  · intro hkeeps k e hk he
    by_contra hne
    have hkept := hkeeps.failed k e hk he hne
    rw [hmirrored k] at hkept
    cases hkept
  · intro hall
    refine ⟨fun k e hk he hne => absurd (hall k e hk he) hne, fun k b _ _ => hmirrored k,
      fun k hk hne hlisted => ?_⟩
    cases houtcome : outcome k with
    | ok b =>
      rw [hgranted k b hk houtcome] at hlisted
      cases hlisted
    | error e => exact absurd (houtcome.trans (congrArg _ (hall k e hk houtcome))) hne

/-- One assignment, on RoleLogic and in the mirror. -/
def assignedWorld : World where
  forms := []
  roleLinks := [{ guildId := "g".toList, roleId := "r".toList, apiToken := "t".toList }]
  formResponses := []
  roleAssignments := [⟨"g".toList, "r".toList, "m".toList⟩]
  roleLogic := [⟨"g".toList, "r".toList, "m".toList⟩]
  optouts _ := []
  userGuilds _ _ := []

/-- RoleLogic is down, and the row is dropped. -/
theorem not_unlink_keeps_unrevoked :
    ¬∀ (outcome : LinkKey → Except AppError Bool) (discordId : Text) (w : World),
      KeepsUnrevoked outcome discordId w (unlink outcome discordId w).2 := by
  intro h
  have hkept := (h (fun _ => .error (.roleLogic [])) "m".toList assignedWorld).failed
    ("g".toList, "r".toList) _
    ⟨"t".toList, by decide⟩ rfl AppError.noConfusion
  exact absurd hkept (by decide)

end FormRespondentRole
