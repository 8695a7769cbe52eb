import FormRespondentRole.Sync

/-!
# The world of the sync engine

`World` is what the syncs read and write: the tables, RoleLogic's lists and the gateway.  `serve`
answers every call with success and applies it as one step, so a program run against it is a sync in
which nothing fails; several programs run against it, one call at a time, are syncs that interleave.

`Syncs rely guar x post w` is the contract of a sync program `x` in this world: started in `w`, with
the others moving the world by `rely` between its calls, each call of `x` moves it by `guar`, and
`x` succeeds with `post`.
-/

namespace FormRespondentRole

open Foundations

/-- The sync jobs of the queue. -/
inductive SyncJob
  | playerSync (discordId : Text)
  | configSync (guildId roleId : Text)
deriving DecidableEq

structure World where
  forms : List Form
  roleLinks : List RoleLink
  formResponses : List FormResponse
  roleAssignments : List Assignment
  /-- RoleLogic's user lists. -/
  roleLogic : List Assignment
  /-- The opt-outs of each guild. -/
  optouts : Text → List Text
  /-- The guilds of a member, as the gateway answers its n-th request. -/
  userGuilds : Nat → Text → List Text
  gatewayRequests : Nat := 0
  /-- The sync jobs waiting to be claimed. -/
  queued : List SyncJob := []
  /-- Members whose responses a handler has changed without having enqueued their job yet. -/
  notEnqueued : List Text := []

/-! ### Lists of assignments -/

def has (rows : List Assignment) (k : LinkKey) (discordId : Text) : Bool :=
  decide (⟨k.1, k.2, discordId⟩ ∈ rows)

def insertRow (a : Assignment) (rows : List Assignment) : List Assignment :=
  if a ∈ rows then rows else a :: rows

def removeRow (a : Assignment) (rows : List Assignment) : List Assignment := rows.filter (· ≠ a)

def replaceRows (k : LinkKey) (discordIds : List Text) (rows : List Assignment) : List Assignment :=
  discordIds.map (fun d => ⟨k.1, k.2, d⟩) ++ rows.filter (·.key ≠ k)

private theorem has_insertRow (rows : List Assignment) (g r u d : Text) (k : LinkKey) :
    has (insertRow ⟨g, r, u⟩ rows) k d = (has rows k d || decide ((g, r) = k ∧ u = d)) := by
  obtain ⟨g', r'⟩ := k
  unfold has insertRow
  rw [Bool.eq_iff_iff]
  split
  · rename_i h
    simp only [decide_eq_true_eq, Bool.or_eq_true, Prod.mk.injEq, iff_self_or]
    rintro ⟨⟨rfl, rfl⟩, rfl⟩
    exact h
  · simp only [List.mem_cons, Assignment.mk.injEq, decide_eq_true_eq, Bool.or_eq_true,
      Prod.mk.injEq]
    constructor
    · rintro (⟨rfl, rfl, rfl⟩ | h)
      · exact Or.inr ⟨⟨rfl, rfl⟩, rfl⟩
      · exact Or.inl h
    · rintro (h | ⟨⟨rfl, rfl⟩, rfl⟩)
      · exact Or.inr h
      · exact Or.inl ⟨rfl, rfl, rfl⟩

theorem has_removeRow (rows : List Assignment) (g r u d : Text) (k : LinkKey) :
    has (removeRow ⟨g, r, u⟩ rows) k d = (has rows k d && !decide ((g, r) = k ∧ u = d)) := by
  obtain ⟨g', r'⟩ := k
  unfold has removeRow
  rw [Bool.eq_iff_iff]
  simp only [List.mem_filter, ne_eq, Assignment.mk.injEq, decide_eq_true_eq, Bool.and_eq_true,
    Bool.not_eq_true',
    decide_eq_false_iff_not, Prod.mk.injEq, and_assoc, eq_comm (a := g), eq_comm (a := r),
      eq_comm (a := u),
    decide_not]

private theorem has_replaceRows (rows : List Assignment) (ids : List Text) (k' k : LinkKey)
    (d : Text) :
    has (replaceRows k' ids rows) k d = if k' = k then decide (d ∈ ids) else has rows k d := by
  obtain ⟨g, r⟩ := k
  obtain ⟨g', r'⟩ := k'
  unfold has replaceRows Assignment.key
  split
  · rename_i h
    obtain ⟨rfl, rfl⟩ := Prod.mk.injEq .. ▸ h
    simp
  · rename_i h
    rw [decide_eq_decide, List.mem_append, List.mem_map, List.mem_filter]
    constructor
    · rintro (⟨d', -, hd'⟩ | ⟨hmem, -⟩)
      · simp only [Assignment.mk.injEq] at hd'
        exact absurd (Prod.ext hd'.1 hd'.2.1) h
      · exact hmem
    · intro hmem
      exact Or.inr ⟨hmem, decide_eq_true fun hk => h hk.symm⟩

theorem has_insertRow_ne {rows : List Assignment} {g r u d : Text} {k : LinkKey}
    (h : ¬ ((g, r) = k ∧ u = d)) :
    has (insertRow ⟨g, r, u⟩ rows) k d = has rows k d := by
  rw [has_insertRow, decide_eq_false h, Bool.or_false]

theorem has_removeRow_ne {rows : List Assignment} {g r u d : Text} {k : LinkKey}
    (h : ¬ ((g, r) = k ∧ u = d)) :
    has (removeRow ⟨g, r, u⟩ rows) k d = has rows k d := by
  rw [has_removeRow, decide_eq_false h, Bool.not_false, Bool.and_true]

theorem has_replaceRows_ne {rows : List Assignment} {ids : List Text} {k' k : LinkKey} {d : Text}
    (h : ¬ k' = k) :
    has (replaceRows k' ids rows) k d = has rows k d := by
  rw [has_replaceRows, if_neg h]

theorem has_insertRow_self (rows : List Assignment) (g r d : Text) :
    has (insertRow ⟨g, r, d⟩ rows) (g, r) d = true := by
  rw [has_insertRow, decide_eq_true ⟨rfl, rfl⟩, Bool.or_true]

theorem has_removeRow_self (rows : List Assignment) (g r d : Text) :
    has (removeRow ⟨g, r, d⟩ rows) (g, r) d = false := by
  rw [has_removeRow, decide_eq_true ⟨rfl, rfl⟩, Bool.not_true, Bool.and_false]

theorem has_replaceRows_self (rows : List Assignment) (ids : List Text) (k : LinkKey) (d : Text) :
    has (replaceRows k ids rows) k d = decide (d ∈ ids) := by
  rw [has_replaceRows, if_pos rfl]

/-! ### Serving the calls -/

/-- The data of a response that evaluation reads. -/
def FormResponse.data (row : FormResponse) : ResponseEvalData := ⟨row.answers, row.totalScore⟩

def RoleLink.toBound (l : RoleLink) (formId : Text) : BoundLink :=
  ⟨l.guildId, l.roleId, l.apiToken, formId, l.grantOnAnySubmission, l.conditions⟩

namespace World

def answer (w : World) : (c : SyncCall) → c.Answer
  | .fetchUserGuildIds discordId => w.userGuilds w.gatewayRequests discordId
  | .fetchGuildOptoutIds guildId => w.optouts guildId
  | .selectRespondentGuilds discordId =>
    ((w.formResponses.filter fun row => row.discordId = discordId).map (·.guildId)).dedup
  | .selectAssignedLinks discordId =>
    (w.roleAssignments.filter fun a => a.discordId = discordId).map (·.key)
  | .selectBoundLinks guildIds =>
    (w.roleLinks.filter fun l => l.guildId ∈ guildIds).filterMap fun l => l.formId.map l.toBound
  | .selectResponses formId discordId =>
    (w.formResponses.filter fun row => row.formId = formId ∧ row.discordId = discordId).map (·.data)
  | .selectLink guildId roleId => w.roleLinks.find? fun l => l.key = (guildId, roleId)
  | .selectCandidates formId optoutIds =>
    (w.formResponses.filter fun row =>
      row.formId = formId ∧ row.discordId ≠ [] ∧ row.discordId ∉ optoutIds).map fun row =>
        (row.discordId, row.data)
  | .selectAssigned guildId roleId =>
    (w.roleAssignments.filter fun a => a.key = (guildId, roleId)).map (·.discordId)
  | .insertAssignment .. | .deleteAssignment .. | .deleteAssignments .. | .replaceAssignments ..
  | .deleteRoleLink .. | .enqueueConfigSyncUnlessQueued .. => ()
  | .addUser guildId roleId userId _ => !has w.roleLogic (guildId, roleId) userId
  | .removeUser guildId roleId userId _ => has w.roleLogic (guildId, roleId) userId
  | .uploadUsers _ _ userIds _ => userIds.dedup.length

def effect (w : World) : SyncCall → World
  | .fetchUserGuildIds _ => { w with gatewayRequests := w.gatewayRequests + 1 }
  | .insertAssignment g r d => { w with roleAssignments := insertRow ⟨g, r, d⟩ w.roleAssignments }
  | .deleteAssignment g r d => { w with roleAssignments := removeRow ⟨g, r, d⟩ w.roleAssignments }
  | .deleteAssignments g r => { w with roleAssignments := replaceRows (g, r) [] w.roleAssignments }
  | .replaceAssignments g r ids =>
    { w with roleAssignments := replaceRows (g, r) ids w.roleAssignments }
  | .deleteRoleLink g r =>
    { w with
      roleLinks := w.roleLinks.filter (·.key ≠ (g, r))
      roleAssignments := replaceRows (g, r) [] w.roleAssignments }
  | .enqueueConfigSyncUnlessQueued g r _ =>
    if .configSync g r ∈ w.queued then w else { w with queued := w.queued ++ [.configSync g r] }
  | .addUser g r u _ => { w with roleLogic := insertRow ⟨g, r, u⟩ w.roleLogic }
  | .removeUser g r u _ => { w with roleLogic := removeRow ⟨g, r, u⟩ w.roleLogic }
  | .uploadUsers g r ids _ => { w with roleLogic := replaceRows (g, r) ids.dedup w.roleLogic }
  | _ => w

/-- The member is in the link's local mirror. -/
def mirrored (w : World) (k : LinkKey) (discordId : Text) : Bool :=
  has w.roleAssignments k discordId

/-- The member is in RoleLogic's list for the link. -/
def granted (w : World) (k : LinkKey) (discordId : Text) : Bool := has w.roleLogic k discordId

/-- The member is in the set the link should hold: some response to its form qualifies, and no
opt-out. -/
def desired (libs : Libs) (w : World) (l : RoleLink) (discordId : Text) : Bool :=
  decide (discordId ∉ w.optouts l.guildId) &&
    w.formResponses.any fun row => decide (l.formId = some row.formId ∧
      row.discordId = discordId) &&
      evaluate libs l.grantOnAnySubmission (conditionsOf l.conditions) row.data

end World

def serve (c : SyncCall) (w : World) : Except AppError c.Answer × World :=
  (.ok (w.answer c), w.effect c)

/-! ### Contracts of sync programs -/

section

variable {α β : Type} (rely guar : World → World → Prop)

def Syncs (x : SyncM α) (post : α → World → Prop) (w : World) : Prop :=
  x.run.Meets serve rely guar (fun r t => ∃ a, r = .ok a ∧ post a t) w

variable {rely guar}

theorem Syncs.pure {a : α} {post : α → World → Prop} {w : World} (h : ∀ t, rely w t → post a t) :
    Syncs rely guar (pure a : SyncM α) post w :=
  fun t ht => ⟨a, rfl, h t ht⟩

theorem Syncs.bind (hrefl : ∀ w, rely w w) {x : SyncM α} {f : α → SyncM β} {post : β → World → Prop}
    {w : World} (h : Syncs rely guar x (fun a t => Syncs rely guar (f a) post t) w) :
    Syncs rely guar (x >>= f) post w := by
  refine Program.Meets.bind hrefl (Program.Meets.mono (fun _ _ hr => hr) (fun _ _ hg => hg) ?_ h)
  rintro r t ⟨a, rfl, ha⟩
  exact ha

theorem Syncs.ask_bind {c : SyncCall} {f : c.Answer → SyncM β} {post : β → World → Prop} {w : World}
    (h : ∀ t, rely w t → guar t (t.effect c) ∧ Syncs rely guar (f (t.answer c)) post (t.effect c)) :
    Syncs rely guar (ask c >>= f) post w := by
  intro t ht
  exact h t ht

theorem Syncs.attempt_bind {c : SyncCall} {f : Except AppError c.Answer → SyncM β}
    {post : β → World → Prop} {w : World}
    (h : ∀ t, rely w t → guar t (t.effect c) ∧
      Syncs rely guar (f (.ok (t.answer c))) post (t.effect c)) :
    Syncs rely guar (attempt c >>= f) post w := by
  intro t ht
  exact h t ht

theorem Syncs.ask {c : SyncCall} {post : c.Answer → World → Prop} {w : World}
    (h : ∀ t, rely w t → guar t (t.effect c) ∧ ∀ u, rely (t.effect c) u → post (t.answer c) u) :
    Syncs rely guar (FormRespondentRole.ask c) post w := by
  intro t ht
  exact ⟨(h t ht).1, fun u hu => ⟨_, rfl, (h t ht).2 u hu⟩⟩

theorem Syncs.mono {x : SyncM α} {post post' : α → World → Prop} {w : World}
    (hpost : ∀ a t, post a t → post' a t) (h : Syncs rely guar x post w) :
    Syncs rely guar x post' w :=
  Program.Meets.mono (fun _ _ hr => hr) (fun _ _ hg => hg)
    (fun _ _ ⟨a, hr, ha⟩ => ⟨a, hr, hpost a _ ha⟩) h

end

end FormRespondentRole
