import FormRespondentRole.SyncAgreement

/-!
# What a bulk sync makes of RoleLogic's answers

`sync_for_role_link` when the opt-out lookup and the uploads answer as they like and every database
statement succeeds.  The mirror of the link becomes the list that RoleLogic accepted, goes with the
link when the link is gone, and otherwise stays; the mirrors of the other links stay after every
call (`bulk_sync_mirrors`).
-/

namespace FormRespondentRole

open Foundations

/-! ### The qualifying list -/

/-- The mirror of a link. -/
def World.assigned (w : World) (k : LinkKey) : List Text :=
  (w.roleAssignments.filter (·.key = k)).map (·.discordId)

/-- `ids` is the sorted list of the members with a qualifying response to the form, less the
opt-outs. -/
structure QualifyingList (libs : Libs) (w : World) (l : RoleLink) (formId : Text)
    (optouts ids : List Text) : Prop where
  sorted : ids.Pairwise (· < ·)
  mem : ∀ d, d ∈ ids ↔ (d ≠ [] ∧ d ∉ optouts) ∧ ∃ row ∈ w.formResponses,
    (row.formId = formId ∧ row.discordId = d) ∧
    evaluate libs l.grantOnAnySubmission (conditionsOf l.conditions) row.data = true

section

variable {libs : Libs} {w : World} {l : RoleLink} {formId : Text} {optouts ids ids' : List Text}

theorem QualifyingList.nodup (h : QualifyingList libs w l formId optouts ids) : ids.Nodup :=
  h.sorted.imp fun hlt => ne_of_lt hlt

/-- There is only one such list. -/
theorem QualifyingList.unique (h : QualifyingList libs w l formId optouts ids)
    (h' : QualifyingList libs w l formId optouts ids') : ids = ids' := by
  have hperm : ids.Perm ids' := (List.perm_ext_iff_of_nodup h.nodup h'.nodup).2 fun d =>
    (h.mem d).trans (h'.mem d).symm
  exact hperm.eq_of_pairwise (fun _ _ _ _ hab hba => absurd hba (lt_asymm hab)) h.sorted h'.sorted

/-- It is what the bulk query computes. -/
theorem qualifyingList_collect (libs : Libs) (w : World) (l : RoleLink) (formId : Text)
    (optouts : List Text) :
    QualifyingList libs w l formId optouts
    (collectQualifying libs l.grantOnAnySubmission (conditionsOf l.conditions)
      .empty (w.answer (.selectCandidates formId optouts))).toList where
  sorted := SortedSet.sorted _
  mem d := by
    rw [← SortedSet.mem_def, mem_collectQualifying]
    simp only [World.answer, List.mem_map, List.mem_filter, decide_eq_true_eq, SortedSet.mem_empty,
      false_or,
      Prod.mk.injEq]
    constructor
    · rintro ⟨_, ⟨row, ⟨hrow, hform, hne, hout⟩, rfl, rfl⟩, hev⟩
      exact ⟨⟨hne, hout⟩, row, hrow, ⟨hform, rfl⟩, hev⟩
    · rintro ⟨⟨hne, hout⟩, row, hrow, ⟨hform, rfl⟩, hev⟩
      exact ⟨row.data, ⟨row, ⟨hrow, hform, hne, hout⟩, rfl, rfl⟩, hev⟩

/-- Nobody qualifies for an unconfigured link. -/
theorem qualifyingList_unconfigured (hgrant : l.grantOnAnySubmission = false)
    (hcond : conditionsOf l.conditions = []) :
    QualifyingList libs w l formId optouts [] where
  sorted := List.Pairwise.nil
  mem d := by
    rw [hgrant, hcond]
    simp [evaluate_unconfigured]

end

/-! ### Rows of other links -/

/-- The assignments of the other links. -/
def World.others (w : World) (k : LinkKey) : List Assignment := w.roleAssignments.filter (·.key ≠ k)

theorem members_replaceRows (k : LinkKey) (ids : List Text) (rows : List Assignment) :
    ((replaceRows k ids rows).filter (·.key = k)).map (·.discordId) = ids := by
  have hnew : (ids.map fun d => (⟨k.1, k.2, d⟩ : Assignment)).filter (·.key = k) = ids.map fun d =>
    ⟨k.1, k.2, d⟩ := by
    refine List.filter_eq_self.2 fun a ha => ?_
    obtain ⟨d, -, rfl⟩ := List.mem_map.1 ha
    exact decide_eq_true rfl
  have hold : (rows.filter (·.key ≠ k)).filter (·.key = k) = [] := by
    refine List.filter_eq_nil_iff.2 fun a ha => ?_
    simpa using (List.mem_filter.1 ha).2
  rw [replaceRows, List.filter_append, hnew, hold, List.append_nil, List.map_map]
  exact List.map_id ids

private theorem assigned_of_replaceRows {w w' : World} {k : LinkKey} {ids : List Text}
    (h : w'.roleAssignments = replaceRows k ids w.roleAssignments) : w'.assigned k = ids := by
  rw [World.assigned, h, members_replaceRows]

private theorem others_of_replaceRows {w w' : World} {k : LinkKey} {ids : List Text}
    (h : w'.roleAssignments = replaceRows k ids w.roleAssignments) : w'.others k = w.others k := by
  have hnew : (ids.map fun d => (⟨k.1, k.2, d⟩ : Assignment)).filter (·.key ≠ k) = [] := by
    refine List.filter_eq_nil_iff.2 fun a ha => ?_
    obtain ⟨d, -, rfl⟩ := List.mem_map.1 ha
    simp [Assignment.key]
  rw [World.others, h, replaceRows, List.filter_append, hnew, List.nil_append, List.filter_filter,
    World.others]
  simp only [Bool.and_self]

/-! ### Serving the calls -/

/-- The world, with the uploads made so far and the answer to each. -/
structure Uploading where
  world : World
  uploads : List (List Text × Except AppError Nat) := []

/-- RoleLogic's list changes when the upload is accepted. -/
def Uploading.upload (s : Uploading) (guildId roleId : Text) (userIds : List Text) (token : Text)
    (answer : Except AppError Nat) : Uploading where
  world := match answer with
    | .ok _ => s.world.effect (.uploadUsers guildId roleId userIds token)
    | .error _ => s.world
  uploads := s.uploads ++ [(userIds, answer)]

/-- The gateway answers `lookup`, RoleLogic answers the n-th upload with `outcome n`, and the
database statements succeed. -/
def serveUploads (lookup : Except AppError (List Text)) (outcome : Nat → Except AppError Nat)
    (c : SyncCall) (s : Uploading) : Except AppError c.Answer × Uploading :=
  match c with
  | .fetchGuildOptoutIds _ => (lookup, s)
  | .uploadUsers guildId roleId userIds token =>
    (outcome s.uploads.length, s.upload guildId roleId userIds token (outcome s.uploads.length))
  | c => (.ok (s.world.answer c), { s with world := s.world.effect c })

private theorem Uploading.upload_roleAssignments (s : Uploading) (g r : Text) (ids : List Text)
    (token : Text) (answer : Except AppError Nat) :
    (s.upload g r ids token answer).world.roleAssignments = s.world.roleAssignments ∧
      (s.upload g r ids token answer).world.roleLinks = s.world.roleLinks ∧
      (s.upload g r ids token answer).world.formResponses = s.world.formResponses := by
  cases answer <;> exact ⟨rfl, rfl, rfl⟩

section

variable {lookup : Except AppError (List Text)} {outcome : Nat → Except AppError Nat} {k : LinkKey}
  {α β : Type}

/-- A part of a bulk sync of the link `k`: after every call the other links have their assignments,
and at the end `post` holds of the result and the state. -/
def Uploads (lookup : Except AppError (List Text)) (outcome : Nat → Except AppError Nat)
    (k : LinkKey) (x : SyncM α) (post : Except AppError α → Uploading → Prop)
    (s : Uploading) : Prop :=
  x.run.Meets (serveUploads lookup outcome) Eq
    (fun s t => t.world.others k = s.world.others k) post s

theorem Uploads.pure {a : α} {post : Except AppError α → Uploading → Prop} {s : Uploading}
    (h : post (.ok a) s) :
    Uploads lookup outcome k (pure a : SyncM α) post s := by
  rintro t rfl
  exact h

theorem Uploads.throw {e : AppError} {post : Except AppError α → Uploading → Prop} {s : Uploading}
    (h : post (.error e) s) : Uploads lookup outcome k (throw e : SyncM α) post s := by
  rintro t rfl
  exact h

theorem Uploads.mono {x : SyncM α} {post post' : Except AppError α → Uploading → Prop}
    {s : Uploading} (hpost : ∀ r t, post r t → post' r t) (h : Uploads lookup outcome k x post s) :
    Uploads lookup outcome k x post' s :=
  Program.Meets.mono (fun _ _ h => h) (fun _ _ h => h) hpost h

/-- A database statement, which succeeds. -/
theorem Uploads.statement_bind {c : SyncCall} {f : c.Answer → SyncM β}
    {post : Except AppError β → Uploading → Prop} {s : Uploading}
    (hserve : serveUploads lookup outcome c s =
      (.ok (s.world.answer c), { s with world := s.world.effect c }))
    (hothers : (s.world.effect c).others k = s.world.others k)
    (h : Uploads lookup outcome k (f (s.world.answer c)) post
      { s with world := s.world.effect c }) :
    Uploads lookup outcome k (ask c >>= f) post s := by
  unfold Uploads
  rw [Program.run_ask_bind, Program.meets_call]
  rintro t rfl
  rw [hserve]
  exact ⟨hothers, h⟩

theorem Uploads.statement {c : SyncCall} {post : Except AppError c.Answer → Uploading → Prop}
    {s : Uploading}
    (hserve : serveUploads lookup outcome c s =
      (.ok (s.world.answer c), { s with world := s.world.effect c }))
    (hothers : (s.world.effect c).others k = s.world.others k)
    (h : post (.ok (s.world.answer c)) { s with world := s.world.effect c }) :
    Uploads lookup outcome k (ask c) post s := by
  rintro t rfl
  rw [hserve]
  refine ⟨hothers, ?_⟩
  rintro t rfl
  exact h

private theorem Uploads.query_bind {libs : Libs} {formId : Text} {optouts : List Text}
    {grantAny : Bool} {conditions : List Condition} {f : List Text → SyncM β}
    {post : Except AppError β → Uploading → Prop} {s : Uploading}
    (h : Uploads lookup outcome k (f (collectQualifying libs grantAny conditions .empty
      (s.world.answer (.selectCandidates formId optouts))).toList) post s) :
    Uploads lookup outcome k (queryQualifying libs formId optouts grantAny conditions none >>= f)
      post s := by
  rintro t rfl
  exact ⟨rfl, h⟩

private theorem Uploads.query_capped_bind {libs : Libs} {formId : Text} {optouts : List Text}
    {grantAny : Bool} {conditions : List Condition} {limit : Nat} {f : List Text → SyncM β}
    {post : Except AppError β → Uploading → Prop} {s : Uploading}
    (h : Uploads lookup outcome k (f ((collectQualifying libs grantAny conditions .empty
      (s.world.answer (.selectCandidates formId optouts))).toList.take limit)) post s) :
    Uploads lookup outcome k (queryQualifying libs formId optouts grantAny conditions
      (some limit) >>= f) post s := by
  rintro t rfl
  exact ⟨rfl, h⟩

private theorem Uploads.lookup_bind {g : Text} {f : List Text → SyncM β}
    {post : Except AppError β → Uploading → Prop} {s : Uploading}
    (herror : ∀ e, lookup = .error e → post (.error e) s)
    (hok : ∀ optouts, lookup = .ok optouts → Uploads lookup outcome k (f optouts) post s) :
    Uploads lookup outcome k (ask (.fetchGuildOptoutIds g) >>= f) post s := by
  unfold Uploads
  rw [Program.run_ask_bind, Program.meets_call]
  rintro t rfl
  refine ⟨rfl, ?_⟩
  rw [serveUploads]
  cases lookup with
  | ok optouts => exact hok optouts rfl
  | error e =>
    rintro t rfl
    exact herror e rfl

private theorem Uploads.upload_bind {g r : Text} {ids : List Text} {token : Text}
    {f : Except AppError Nat → SyncM β} {post : Except AppError β → Uploading → Prop}
    {s : Uploading}
    (h : Uploads lookup outcome k (f (outcome s.uploads.length)) post
      (s.upload g r ids token (outcome s.uploads.length))) :
    Uploads lookup outcome k (attempt (.uploadUsers g r ids token) >>= f) post s := by
  rintro t rfl
  refine ⟨?_, h⟩
  show World.others _ k = _
  rw [World.others, World.others]
  exact congrArg _ (s.upload_roleAssignments ..).1

/-! ### One answer -/

/-- What a sync of the link `k` leaves of an upload of `ids` with this answer. -/
structure Mirrors (k : LinkKey) (w : World) (ids : List Text) (answer : Except AppError Nat)
    (result : Except AppError Unit) (t : World) : Prop where
  accepted : ∀ n, answer = .ok n → result = .ok () ∧
    t.roleAssignments = replaceRows k ids w.roleAssignments
  gone : answer = .error .roleLinkNotFound → result = .ok () ∧
    t.roleLinks = w.roleLinks.filter (·.key ≠ k) ∧
    t.roleAssignments = replaceRows k [] w.roleAssignments
  refused : ∀ e, answer = .error e → e ≠ .roleLinkNotFound → t.roleAssignments = w.roleAssignments
  failed : ∀ e, result = .error e → t.roleAssignments = w.roleAssignments
  held : answer = .error .removalHeld → .configSync k.1 k.2 ∈ t.queued

/-- Every one of the upload sites goes on so once its upload is answered. -/
private theorem upload_mirrors (ids : List Text) (w : World) {token : Text}
    {f : Except AppError Nat → SyncM Unit} {s : Uploading} {answer : Except AppError Nat}
    (hanswer : outcome s.uploads.length = answer) (hw : s.world.roleAssignments = w.roleAssignments)
    (hl : s.world.roleLinks = w.roleLinks)
    (haccepted : ∀ n t, Uploads lookup outcome k (f (.ok n)) (fun r t' => r = .ok () ∧
      t'.uploads = t.uploads ∧
      t'.world.roleAssignments = replaceRows k ids t.world.roleAssignments) t)
    (hgone : f (.error .roleLinkNotFound) = deleteOrphanRoleLink k.1 k.2)
    (hdisabled : f (.error .roleLinkDisabled) = pure ())
    (hheld : f (.error .removalHeld) = recheckHeld k.1 k.2)
    (hother : ∀ e, answer = .error e → e ≠ .roleLinkNotFound → e ≠ .roleLinkDisabled →
      e ≠ .removalHeld →
      f (.error e) = throw e) :
    Uploads lookup outcome k (attempt (.uploadUsers k.1 k.2 ids token) >>= f)
      (fun r t => t.uploads = s.uploads ++ [(ids, answer)] ∧
        Mirrors k w ids answer r t.world) s := by
  refine Uploads.upload_bind ?_
  rw [hanswer]
  obtain ⟨hrows, hlinks, -⟩ := s.upload_roleAssignments k.1 k.2 ids token answer
  replace hw := hrows.trans hw
  replace hl := hlinks.trans hl
  cases answer with
  | ok n =>
    refine Uploads.mono ?_ (haccepted n _)
    -- the mirror is set to what was uploaded
    rintro r t ⟨rfl, huploads, hrows⟩
    exact ⟨huploads, fun _ _ => ⟨rfl, hw ▸ hrows⟩, nofun, nofun, nofun, nofun⟩
  | error e =>
    by_cases hgone' : e = .roleLinkNotFound
    · subst hgone'
      rw [hgone]
      rintro t rfl
      -- the link is gone, and its rows with it
      have hdropped : (s.world.effect (.deleteRoleLink k.1 k.2)).roleAssignments =
          replaceRows k [] w.roleAssignments :=
        congrArg (replaceRows k []) hw
      refine ⟨others_of_replaceRows rfl, ?_⟩
      rintro t rfl
      exact ⟨rfl, nofun, fun _ => ⟨rfl, congrArg (List.filter _) hl, hdropped⟩,
        fun e he hne => absurd (Except.error.inj he).symm hne, nofun, nofun⟩
    by_cases hdisabled' : e = .roleLinkDisabled
    · subst hdisabled'
      rw [hdisabled]
      exact Uploads.pure ⟨rfl, nofun, nofun, fun _ _ _ => hw, nofun, nofun⟩
    by_cases hheld' : e = .removalHeld
    · subst hheld'
      rw [hheld]
      rintro t rfl
      -- the sync is tried again later, and the mirror stays
      have hqueued : (s.world.effect
        (.enqueueConfigSyncUnlessQueued k.1 k.2 heldRecheckSecs)).roleAssignments =
          s.world.roleAssignments ∧
          .configSync k.1 k.2 ∈
              (s.world.effect (.enqueueConfigSyncUnlessQueued k.1 k.2 heldRecheckSecs)).queued := by
        rw [World.effect]
        split
        · rename_i hmem
          exact ⟨rfl, hmem⟩
        · exact ⟨rfl, List.mem_append_right _ (List.mem_singleton_self _)⟩
      refine ⟨congrArg (List.filter _) hqueued.1, ?_⟩
      rintro t rfl
      exact ⟨rfl, nofun, nofun, fun _ _ _ => hqueued.1.trans hw, nofun, fun _ => hqueued.2⟩
    · rw [hother e rfl hgone' hdisabled' hheld']
      exact Uploads.throw ⟨rfl, nofun, fun h => absurd (Except.error.inj h) hgone', fun _ _ _ => hw,
        fun _ _ => hw,
        fun h => absurd (Except.error.inj h) hheld'⟩

/-! ### The whole run -/

variable {libs : Libs} {l : RoleLink} {formId : Text} {w : World}

/-- How a run ends that uploads: with one upload of the qualifying list, or, when that list was over
the limit `n`, with a second one of its first `n` members; what is left of the last answer is as in
`Mirrors`. -/
structure Ends (libs : Libs) (lookup : Except AppError (List Text))
    (outcome : Nat → Except AppError Nat) (l : RoleLink) (formId : Text) (w : World)
    (result : Except AppError Unit) (s : Uploading) (ids last : List Text)
    (answer : Except AppError Nat) : Prop where
  qualifying : ∃ optouts, (∀ o, lookup = .ok o → o = optouts) ∧
    QualifyingList libs w l formId optouts ids
  uploads : s.uploads = [(ids, outcome 0)] ∧ last = ids ∧ answer = outcome 0 ∨
    ∃ n, outcome 0 = .error (.userLimitReached n) ∧
      s.uploads = [(ids, outcome 0), (ids.take n, outcome 1)] ∧
      last = ids.take n ∧ answer = outcome 1
  mirrors : Mirrors l.key w last answer result s.world

private theorem drainLink_uploads (hgrant : l.grantOnAnySubmission = false)
    (hcond : conditionsOf l.conditions = []) :
    Uploads lookup outcome l.key (drainLink l.guildId l.roleId l.apiToken)
      (fun r t => Ends libs lookup outcome l formId w r t [] [] (outcome 0)) ⟨w, []⟩ := by
  refine Uploads.mono ?_ (upload_mirrors [] w rfl rfl rfl (fun _ _ =>
    Uploads.statement rfl (others_of_replaceRows rfl) ⟨rfl, rfl, rfl⟩) rfl rfl rfl ?_)
  · rintro r t ⟨huploads, hmirrors⟩
    refine ⟨?_, Or.inl ⟨huploads, rfl, rfl⟩, hmirrors⟩
    cases lookup with
    | ok optouts => exact ⟨optouts, fun _ h => (Except.ok.inj h).symm,
      qualifyingList_unconfigured hgrant hcond⟩
    | error e => exact ⟨[], nofun, qualifyingList_unconfigured hgrant hcond⟩
  · intro e _ hgone hdisabled hheld
    split <;> simp_all

private theorem uploadCapped_uploads {optouts ids : List Text} {limit : Nat} {u : Uploading}
    (hsame : u.world.roleAssignments = w.roleAssignments ∧ u.world.roleLinks = w.roleLinks ∧
      u.world.formResponses = w.formResponses)
    (hids : QualifyingList libs w l formId optouts ids)
    (hlookup : ∀ o, lookup = .ok o → o = optouts) (huploads : u.uploads = [(ids, outcome 0)])
    (hlimit : outcome 0 = .error (.userLimitReached limit)) :
    Uploads lookup outcome l.key
    (uploadCapped libs l.guildId l.roleId l.apiToken formId optouts l.grantOnAnySubmission
      (conditionsOf l.conditions) limit)
      (fun r t => Ends libs lookup outcome l formId w r t ids (ids.take limit) (outcome 1)) u := by
  have hcapped : (collectQualifying libs l.grantOnAnySubmission (conditionsOf l.conditions) .empty
      (u.world.answer (.selectCandidates formId optouts))).toList = ids := by
    refine (qualifyingList_collect libs u.world l formId optouts).unique ⟨hids.sorted, fun d => ?_⟩
    rw [hsame.2.2]
    exact hids.mem d
  have hlast : u.uploads.length = 1 := by rw [huploads, List.length_singleton]
  refine Uploads.query_capped_bind ?_
  rw [hcapped]
  refine Uploads.mono ?_
      (upload_mirrors (ids.take limit) w (congrArg outcome hlast) hsame.1 hsame.2.1 (fun _ _ =>
        Uploads.statement rfl (others_of_replaceRows rfl) ⟨rfl, rfl, rfl⟩) rfl rfl rfl ?_)
  · rintro r t ⟨hmade, hmirrors⟩
    have hmade' : t.uploads = [(ids, outcome 0), (ids.take limit, outcome 1)] :=
      hmade.trans (congrArg (· ++ [(ids.take limit, outcome 1)]) huploads)
    exact ⟨⟨optouts, hlookup, hids⟩, Or.inr ⟨limit, hlimit, hmade', rfl, rfl⟩, hmirrors⟩
  · intro e _ hgone hdisabled hheld
    split <;> simp_all

/-- A configured run makes no upload when the lookup fails or when the mirror holds the list
already. -/
private theorem syncConfigured_uploads :
    Uploads lookup outcome l.key
    (syncConfigured libs l.guildId l.roleId l.apiToken formId l.grantOnAnySubmission
      (conditionsOf l.conditions)) (fun r t =>
        (t.uploads = [] ∧ t.world = w ∧
          ((∃ e, r = .error e) ∨ r = .ok () ∧ ∃ optouts ids, lookup = .ok optouts ∧
            QualifyingList libs w l formId optouts ids ∧ (w.assigned l.key).Perm ids)) ∨
        ∃ ids last answer, Ends libs lookup outcome l formId w r t ids last answer) ⟨w, []⟩ := by
  refine Uploads.lookup_bind (fun e _ => Or.inl ⟨rfl, rfl, Or.inl ⟨e, rfl⟩⟩) fun optouts hlookup =>
    ?_
  have hlookup' : ∀ o, lookup = .ok o → o = optouts :=
    fun o ho => Except.ok.inj (ho.symm.trans hlookup)
  have hids := qualifyingList_collect libs w l formId optouts
  refine Uploads.query_bind ?_
  generalize (collectQualifying libs l.grantOnAnySubmission (conditionsOf l.conditions) .empty
    (w.answer (.selectCandidates formId optouts))).toList = ids at hids ⊢
  refine Uploads.statement_bind rfl rfl ?_
  split
  · rename_i hsame
    refine Uploads.pure (Or.inl ⟨rfl, rfl, Or.inr ⟨rfl, optouts, ids, hlookup, hids, ?_⟩⟩)
    rw [← hsame]
    exact (List.perm_insertionSort _ _).symm
  · by_cases hlimit : ∃ n, outcome 0 = .error (.userLimitReached n)
    · obtain ⟨n, hlimit⟩ := hlimit
      have hsame := Uploading.upload_roleAssignments ⟨w, []⟩ l.guildId l.roleId ids l.apiToken
        (outcome 0)
      have hcapped : Uploads lookup outcome l.key _ _ _ :=
        uploadCapped_uploads hsame hids hlookup' rfl hlimit
      refine Uploads.upload_bind
        (Uploads.mono (fun r t h => Or.inr ⟨ids, ids.take n, outcome 1, h⟩) ?_)
      simp only [List.length_nil]
      rw [hlimit] at hcapped ⊢
      exact hcapped
    · refine Uploads.mono ?_ (upload_mirrors ids w rfl rfl rfl (fun _ _ =>
        Uploads.statement rfl (others_of_replaceRows rfl) ⟨rfl, rfl, rfl⟩) rfl rfl rfl ?_)
      · rintro r t ⟨hmade, hmirrors⟩
        exact Or.inr ⟨ids, ids, outcome 0, ⟨optouts, hlookup', hids⟩, Or.inl ⟨hmade, rfl, rfl⟩,
          hmirrors⟩
      · intro e he hgone hdisabled hheld
        split <;> simp_all

private theorem syncForRoleLink_uploads (hkeys : (w.roleLinks.map RoleLink.key).Nodup)
    (hl : l ∈ w.roleLinks) (hform : l.formId = some formId) :
    Uploads lookup outcome l.key (syncForRoleLink libs l.guildId l.roleId) (fun r t =>
        (t.uploads = [] ∧ t.world = w ∧
          ((∃ e, r = .error e) ∨ r = .ok () ∧ ∃ optouts ids, lookup = .ok optouts ∧
            QualifyingList libs w l formId optouts ids ∧ (w.assigned l.key).Perm ids)) ∨
        ∃ ids last answer, Ends libs lookup outcome l formId w r t ids last answer) ⟨w, []⟩ := by
  refine Uploads.statement_bind rfl rfl ?_
  have hfind : w.answer (.selectLink l.guildId l.roleId) = some l := World.find_link hkeys hl
  rw [hfind]
  dsimp only
  rw [hform]
  dsimp only
  split
  · rename_i hun
    rw [Bool.and_eq_true, Bool.not_eq_true', List.isEmpty_iff] at hun
    exact Uploads.mono (fun r t h => Or.inr ⟨[], [], outcome 0, h⟩) (drainLink_uploads hun.1 hun.2)
  · exact syncConfigured_uploads

end

/-- How the mirror of the link `l` follows the uploads of a bulk sync that started in `w` and ended
in `s`. -/
structure MirrorsUploads (libs : Libs) (lookup : Except AppError (List Text))
    (outcome : Nat → Except AppError Nat) (l : RoleLink) (formId : Text) (w : World)
    (result : Except AppError Unit) (s : Uploading) : Prop where
  /-- What is uploaded is the qualifying list, and after a rejection for the limit `n` its first `n`
  members. -/
  uploads : s.uploads = [] ∨ ∃ optouts ids, (∀ o, lookup = .ok o → o = optouts) ∧
    QualifyingList libs w l formId optouts ids ∧ (s.uploads = [(ids, outcome 0)] ∨
      ∃ n, outcome 0 = .error (.userLimitReached n) ∧
        s.uploads = [(ids, outcome 0), (ids.take n, outcome 1)])
  accepted : ∀ ids n, (ids, .ok n) ∈ s.uploads → s.world.assigned l.key = ids ∧ ids.Nodup
  gone : ∀ ids, (ids, .error .roleLinkNotFound) ∈ s.uploads →
    result = .ok () ∧ (∀ l' ∈ s.world.roleLinks, l'.key ≠ l.key) ∧ s.world.assigned l.key = []
  /-- Any other last answer. -/
  refused : ∀ ids e, s.uploads.getLast? = some (ids, .error e) → e ≠ .roleLinkNotFound →
    s.world.assigned l.key = w.assigned l.key
  held : ∀ ids, (ids, .error .removalHeld) ∈ s.uploads →
    .configSync l.guildId l.roleId ∈ s.world.queued
  failed : ∀ e, result = .error e → s.world.assigned l.key = w.assigned l.key
  skipped : result = .ok () → s.uploads = [] → ∃ optouts ids, lookup = .ok optouts ∧
    QualifyingList libs w l formId optouts ids ∧ (w.assigned l.key).Perm ids ∧
      s.world.assigned l.key = w.assigned l.key

section

variable {libs : Libs} {lookup : Except AppError (List Text)} {outcome : Nat → Except AppError Nat}
  {l : RoleLink}
  {formId : Text} {w : World} {result : Except AppError Unit} {s : Uploading}

private theorem assigned_congr {w w' : World} {k : LinkKey}
    (h : w'.roleAssignments = w.roleAssignments) :
    w'.assigned k = w.assigned k := by
  rw [World.assigned, World.assigned, h]

/-- An upload with another answer than the first one over the limit is the last. -/
private theorem Ends.last {ids last : List Text} {answer : Except AppError Nat}
    (h : Ends libs lookup outcome l formId w result s ids last answer) :
    s.uploads.getLast? = some (last, answer) ∧
      ∀ u ∈ s.uploads, u = (last, answer) ∨ ∃ n, u.2 = .error (.userLimitReached n) := by
  rcases h.uploads with ⟨huploads, rfl, rfl⟩ | ⟨n, hlimit, huploads, rfl, rfl⟩
  · rw [huploads]
    exact ⟨rfl, fun u hu => Or.inl (List.mem_singleton.1 hu)⟩
  · rw [huploads]
    refine ⟨rfl, fun u hu => ?_⟩
    rcases List.mem_cons.1 hu with rfl | hu
    · exact Or.inr ⟨n, hlimit⟩
    · exact Or.inl (List.mem_singleton.1 hu)

private theorem Ends.nodup {ids last : List Text} {answer : Except AppError Nat}
    (h : Ends libs lookup outcome l formId w result s ids last answer) : last.Nodup := by
  obtain ⟨optouts, -, hids⟩ := h.qualifying
  rcases h.uploads with ⟨-, rfl, -⟩ | ⟨n, -, -, rfl, -⟩
  · exact hids.nodup
  · exact (List.take_sublist n ids).nodup hids.nodup

private theorem Ends.mirrorsUploads {ids last : List Text} {answer : Except AppError Nat}
    (h : Ends libs lookup outcome l formId w result s ids last answer) :
    MirrorsUploads libs lookup outcome l formId w result s := by
  have hmem : ∀ ids' answer', (ids', answer') ∈ s.uploads →
    (∀ n, answer' ≠ .error (.userLimitReached n)) →
      ids' = last ∧ answer' = answer := by
    intro ids' answer' hu hlimit
    rcases h.last.2 _ hu with heq | ⟨n, hn⟩
    · exact Prod.mk.inj heq
    · exact absurd hn (hlimit n)
  refine ⟨?_, ?_, ?_, ?_, ?_, ?_, ?_⟩
  · obtain ⟨optouts, hlookup, hids⟩ := h.qualifying
    refine Or.inr ⟨optouts, ids, hlookup, hids, ?_⟩
    rcases h.uploads with ⟨huploads, -, -⟩ | ⟨n, hlimit, huploads, -, -⟩
    · exact Or.inl huploads
    · exact Or.inr ⟨n, hlimit, huploads⟩
  · intro ids' n hu
    obtain ⟨rfl, hanswer⟩ := hmem _ _ hu (by simp)
    exact ⟨assigned_of_replaceRows (h.mirrors.accepted n hanswer.symm).2, h.nodup⟩
  · intro ids' hu
    obtain ⟨rfl, hanswer⟩ := hmem _ _ hu (by simp)
    obtain ⟨hresult, hlinks, hrows⟩ := h.mirrors.gone hanswer.symm
    refine ⟨hresult, fun l' hl' => ?_, assigned_of_replaceRows hrows⟩
    rw [hlinks] at hl'
    simpa using (List.mem_filter.1 hl').2
  · intro ids' e hlast hne
    obtain ⟨-, hanswer⟩ := Prod.mk.inj (Option.some.inj (h.last.1.symm.trans hlast))
    exact assigned_congr (h.mirrors.refused e hanswer hne)
  · intro ids' hu
    obtain ⟨rfl, hanswer⟩ := hmem _ _ hu (by simp)
    exact h.mirrors.held hanswer.symm
  · exact fun e he => assigned_congr (h.mirrors.failed e he)
  · intro _ hnone
    have hlast := h.last.1
    rw [hnone] at hlast
    cases hlast

end

/-- Whatever the opt-out lookup and the uploads of a bulk sync answer, the mirror of its link
follows the uploads, and after each of its calls the other links have the assignments they had. -/
theorem bulk_sync_mirrors (libs : Libs) (lookup : Except AppError (List Text))
    (outcome : Nat → Except AppError Nat) {w : World} (hkeys : (w.roleLinks.map RoleLink.key).Nodup)
    {l : RoleLink} (hl : l ∈ w.roleLinks) {formId : Text} (hform : l.formId = some formId) :
    let sync := (syncForRoleLink libs l.guildId l.roleId).run
    let serve := serveUploads lookup outcome
    MirrorsUploads libs lookup outcome l formId w (sync.run serve ⟨w, []⟩).1
      (sync.run serve ⟨w, []⟩).2 ∧
      ∀ t ∈ sync.visits serve ⟨w, []⟩, t.world.others l.key = w.others l.key := by
  have h : Uploads lookup outcome l.key (syncForRoleLink libs l.guildId l.roleId) _ ⟨w, []⟩ :=
    syncForRoleLink_uploads hkeys hl hform
  constructor
  · rcases h.run_post with ⟨hnone, hworld, hresult⟩ | ⟨ids, last, answer, hends⟩
    · refine ⟨Or.inl hnone, ?_, ?_, ?_, ?_, ?_, ?_⟩
      · exact fun _ _ hu => absurd (hnone ▸ hu) List.not_mem_nil
      · exact fun _ hu => absurd (hnone ▸ hu) List.not_mem_nil
      · exact fun _ _ _ _ => congrArg (World.assigned · l.key) hworld
      · exact fun _ hu => absurd (hnone ▸ hu) List.not_mem_nil
      · exact fun _ _ => congrArg (World.assigned · l.key) hworld
      · intro hok _
        rcases hresult with ⟨e, he⟩ | ⟨-, optouts, ids, hlookup, hids, hperm⟩
        · rw [hok] at he
          cases he
        · exact ⟨optouts, ids, hlookup, hids, hperm, congrArg (World.assigned · l.key) hworld⟩
    · exact hends.mirrorsUploads
  · exact Program.Meets.visits_rel (T := fun s t : Uploading =>
      t.world.others l.key = s.world.others l.key)
      (fun _ _ _ h₁ h₂ => h₂.trans h₁) (fun _ _ h => h) h

/-! ### A link over its limit -/

/-- Two members have responded. -/
def fullSurvey : World :=
  { surveyWorld with formResponses := [surveyResponse "bob".toList, surveyResponse "ann".toList] }

/-- RoleLogic takes one member for the link. -/
def takeOne : Nat → Except AppError Nat
  | 0 => .error (.userLimitReached 1)
  | _ => .ok 1

theorem bulk_sync_mirrors_fullSurvey :
    ((syncForRoleLink surveyLibs "guild".toList "role".toList).run.run
      (serveUploads (.ok []) takeOne)
      ⟨fullSurvey, []⟩).2.world.assigned surveyLink.key = ["ann".toList] := by
  have h := (bulk_sync_mirrors surveyLibs (.ok []) takeOne (w := fullSurvey)
    (List.nodup_singleton _)
    (List.mem_singleton_self surveyLink) rfl).1
  refine (h.accepted ["ann".toList] 1 ?_).1
  have huploads : ((syncForRoleLink surveyLibs "guild".toList "role".toList).run.run
    (serveUploads (.ok []) takeOne)
      ⟨fullSurvey, []⟩).2.uploads =
      [(["ann".toList, "bob".toList], .error (.userLimitReached 1)), (["ann".toList], .ok 1)] := by
    decide +kernel
  exact huploads ▸ List.mem_cons_of_mem _ (List.mem_singleton_self _)

end FormRespondentRole
