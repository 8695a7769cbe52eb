import FormRespondentRole.SyncFailure

/-!
# Guilds whose opt-outs are unknown

`sync_for_player` when some opt-out lookups fail and every other call succeeds.  Its actions are
those of the run in which no lookup fails, without the guilds that could not be looked up, and these
make it end with an error (`guilds_isolated`).
-/

namespace FormRespondentRole

open Foundations Program

/-- Every call succeeds, but for the opt-out lookups of some guilds. -/
def serveLookups (failing : Text → Option AppError) (c : SyncCall) (w : World) :
    Except AppError c.Answer × World :=
  match c with
  | .fetchGuildOptoutIds guildId =>
    match failing guildId with
    | some e => (.error e, w)
    | none => serve (.fetchGuildOptoutIds guildId) w
  | c => serve c w

/-- The guild in which a call changes something. -/
def SyncCall.changesIn : SyncCall → Option Text
  | .insertAssignment g _ _ | .deleteAssignment g _ _ | .deleteAssignments g _
  | .replaceAssignments g _ _ | .deleteRoleLink g _ | .enqueueConfigSyncUnlessQueued g _ _
  | .addUser g _ _ _ | .removeUser g _ _ _ | .uploadUsers g _ _ _ => some g
  | .fetchUserGuildIds _ | .fetchGuildOptoutIds _ | .selectRespondentGuilds _
  | .selectAssignedLinks _ | .selectBoundLinks _ | .selectResponses _ _ | .selectLink _ _
  | .selectCandidates _ _ | .selectAssigned _ _ => none

/-- The calls of a run that change something, in order. -/
def changesOf (tr : List SyncExchange) : List SyncCall :=
  (tr.map (·.call)).filter (·.changesIn.isSome)

/-- The guilds that a member may have a link in. -/
def World.candidateGuilds (w : World) (discordId : Text) : SortedSet Text :=
  ((SortedSet.ofList (w.userGuilds w.gatewayRequests discordId)).extend
    (w.answer (.selectRespondentGuilds discordId))).extend
    ((w.answer (.selectAssignedLinks discordId)).map Prod.fst)

/-- The links that a sync of a member looks at. -/
def World.boundLinks (w : World) (discordId : Text) : List BoundLink :=
  w.answer (.selectBoundLinks (w.candidateGuilds discordId).toList)

/-- The member has a response that makes them eligible for the link. -/
def World.eligible (libs : Libs) (w : World) (discordId : Text) (l : BoundLink) : Bool :=
  (w.answer (.selectResponses l.formId discordId)).any
    (evaluate libs l.grantOnAnySubmission (conditionsOf l.conditions))

/-- The actions that a member's links ask for. -/
def World.plan (libs : Libs) (w : World) (discordId : Text) (existing : List LinkKey)
    (links : List BoundLink) :
    List Action :=
  links.flatMap fun l =>
    actionFor l (!decide (discordId ∈ w.optouts l.guildId) && w.eligible libs discordId l)
    (l.key ∈ existing)

/-- The calls that a future still makes when they all succeed. -/
def ActionFuture.owes (discordId : Text) : ActionFuture → List SyncCall
  | .start (.add l) =>
    [.addUser l.guildId l.roleId discordId l.apiToken,
      .insertAssignment l.guildId l.roleId discordId]
  | .start (.remove l) =>
    [.removeUser l.guildId l.roleId discordId l.apiToken,
      .deleteAssignment l.guildId l.roleId discordId]
  | .store (.add l) => [.insertAssignment l.guildId l.roleId discordId]
  | .store (.remove l) => [.deleteAssignment l.guildId l.roleId discordId]
  | .dropLink a => [.deleteRoleLink a.link.guildId a.link.roleId]

section

variable (libs : Libs) (failing : Text → Option AppError) (schedule : Nat → Nat) (discordId : Text)
  (w : World)

def lookupsResult : Except AppError Unit :=
  (run (serveLookups failing) (syncForPlayer libs schedule discordId).run w).1

def lookupsTrace : List SyncExchange :=
  (syncForPlayer libs schedule discordId).run.transcript (serveLookups failing) w

end

/-- The guilds that are not `failing` get what they get when no lookup fails, which is what the
member's links there ask for, the others nothing, and the run ends with an error just when there are
others.  Nobody is added where the lookup lists them. -/
structure GuildsIsolated (libs : Libs) (failing : Text → Option AppError)
    (schedule schedule' : Nat → Nat) (discordId : Text) (w : World) : Prop where
  performed : (changesOf (lookupsTrace libs failing schedule discordId w)).Perm
    ((changesOf (lookupsTrace libs (fun _ => none) schedule' discordId w)).filter fun c =>
      c.changesIn.all fun g => (failing g).isNone)
  planned : (changesOf (lookupsTrace libs failing schedule discordId w)).Perm
    (((w.plan libs discordId (w.answer (.selectAssignedLinks discordId))
        (w.boundLinks discordId)).filter fun a =>
      (failing a.link.guildId).isNone).flatMap fun a => (ActionFuture.start a).owes discordId)
  skipped : ∀ c ∈ changesOf (lookupsTrace libs failing schedule discordId w), ∀ g,
    c.changesIn = some g → failing g = none
  optouts : ∀ g r u t, .addUser g r u t ∈
    changesOf (lookupsTrace libs failing schedule discordId w) →
    discordId ∉ w.optouts g
  reported : (∃ e, lookupsResult libs failing schedule discordId w = .error e) ↔
    ∃ l ∈ w.boundLinks discordId, (failing l.guildId).isSome

/-! ### The decisions -/

section

variable {libs : Libs} {failing : Text → Option AppError} {discordId : Text} {w : World}

private theorem serveLookups_known {guildId : Text} (h : failing guildId = none) :
    serveLookups failing (.fetchGuildOptoutIds guildId) w = (.ok (w.optouts guildId), w) := by
  rw [serveLookups, h]
  rfl

private theorem serveLookups_unknown {guildId : Text} {e : AppError}
    (h : failing guildId = some e) :
    serveLookups failing (.fetchGuildOptoutIds guildId) w = (.error e, w) := by
  rw [serveLookups, h]

/-- Where the member is known to have opted out, and where nothing is known. -/
theorem run_vetOptouts (guilds : List Text) :
    run (serveLookups failing) (vetOptouts discordId guilds).run w =
      (.ok (guilds.filter (fun g => (failing g).isNone && decide (discordId ∈ w.optouts g)),
        guilds.filter fun g => (failing g).isSome), w) := by
  induction guilds with
  | nil => rfl
  | cons guildId guilds ih =>
    rw [vetOptouts, run_attempt_bind, run_call]
    cases hfailing : failing guildId with
    | some e =>
      rw [serveLookups_unknown hfailing]
      refine (run_bind_ok ih).trans ?_
      rw [List.filter_cons_of_neg (by rw [hfailing]; exact Bool.false_ne_true),
        List.filter_cons_of_pos (by rw [hfailing]; rfl)]
      rfl
    | none =>
      rw [serveLookups_known hfailing]
      refine (run_bind_ok ih).trans ?_
      rw [List.filter_cons, List.filter_cons_of_neg (by rw [hfailing]; exact Bool.false_ne_true),
        hfailing]
      simp only [Option.isNone_none, Bool.true_and, decide_eq_true_eq]
      rfl

private theorem run_qualifies (optedOut : List Text) (l : BoundLink) :
    run (serveLookups failing) (qualifies libs discordId optedOut l).run w =
      (.ok (!decide (l.guildId ∈ optedOut) && w.eligible libs discordId l), w) := by
  rw [qualifies]
  by_cases h : l.guildId ∈ optedOut
  · rw [if_pos h, decide_eq_true h]
    rfl
  · rw [if_neg h, decide_eq_false h]
    rfl

private theorem run_planActions (optedOut optoutUnknown : List Text) (existing : List LinkKey)
    (links : List BoundLink) :
    run (serveLookups failing)
    (planActions libs discordId optedOut optoutUnknown existing links).run w =
      (.ok (links.flatMap fun l => if l.guildId ∈ optoutUnknown then []
        else actionFor l (!decide (l.guildId ∈ optedOut) && w.eligible libs discordId l)
        (l.key ∈ existing)), w) := by
  induction links with
  | nil => rfl
  | cons l links ih =>
    rw [planActions, List.flatMap_cons]
    by_cases h : l.guildId ∈ optoutUnknown
    · rw [if_pos h, if_pos h]
      exact ih
    · rw [if_neg h, if_neg h]
      exact (run_bind_ok (run_qualifies optedOut l)).trans (run_bind_ok ih)

/-! ### The calls -/

variable {tr : List SyncExchange}

/-- A step of a future makes the next of its calls. -/
theorem trace_pollAction_ok {f : ActionFuture} {r : Except AppError (Option ActionFuture)}
    (h : Trace (pollAction discordId f).run tr r) (hok : ∀ x ∈ tr, ∃ a, x.answer = .ok a) :
    ∃ next, r = .ok next ∧ totalWeight next.toList < f.weight ∧
      f.owes discordId = tr.map (·.call) ++ next.toList.flatMap (ActionFuture.owes discordId) := by
  cases f with
  | start a =>
    cases a with
    | add l =>
      rw [pollAction, run_attempt_bind, trace_call] at h
      obtain ⟨answer, tr', rfl, h⟩ := h
      obtain ⟨a, rfl⟩ : ∃ a : Bool, answer = .ok a := hok _ List.mem_cons_self
      obtain ⟨rfl, rfl⟩ := trace_pure.1 h
      exact ⟨_, rfl, Nat.lt_succ_self 1, rfl⟩
    | remove l =>
      rw [pollAction, run_attempt_bind, trace_call] at h
      obtain ⟨answer, tr', rfl, h⟩ := h
      obtain ⟨a, rfl⟩ : ∃ a : Bool, answer = .ok a := hok _ List.mem_cons_self
      obtain ⟨rfl, rfl⟩ := trace_pure.1 h
      exact ⟨_, rfl, Nat.lt_succ_self 1, rfl⟩
  | store a =>
    cases a with
    | add l =>
      rw [pollAction, run_attempt_bind, trace_call] at h
      obtain ⟨answer, tr', rfl, h⟩ := h
      obtain ⟨rfl, rfl⟩ := trace_pure.1 h
      exact ⟨none, rfl, Nat.one_pos, rfl⟩
    | remove l =>
      rw [pollAction, run_attempt_bind, trace_call] at h
      obtain ⟨answer, tr', rfl, h⟩ := h
      obtain ⟨rfl, rfl⟩ := trace_pure.1 h
      exact ⟨none, rfl, Nat.one_pos, rfl⟩
  | dropLink a =>
    rw [pollAction, run_attempt_bind, trace_call] at h
    obtain ⟨answer, tr', rfl, h⟩ := h
    obtain ⟨rfl, rfl⟩ := trace_pure.1 h
    exact ⟨none, rfl, Nat.one_pos, rfl⟩

/-- The futures make all their calls, each once, in an order that the schedule decides. -/
theorem trace_forEachConcurrent_ok {limit fuel : Nat} {schedule : Nat → Nat}
    {futures : List ActionFuture} {r : Except AppError Unit} (hlimit : 0 < limit)
    (h : Trace (forEachConcurrent limit discordId schedule fuel futures).run tr r)
    (hfuel : totalWeight futures ≤ fuel) (hok : ∀ x ∈ tr, ∃ a, x.answer = .ok a) :
    (tr.map (·.call)).Perm (futures.flatMap (ActionFuture.owes discordId)) := by
  induction fuel generalizing futures tr r with
  | zero =>
    obtain ⟨rfl, rfl⟩ := trace_pure.1 h
    cases futures with
    | nil => exact List.Perm.nil
    | cons f fs =>
      have hpos := weight_pos f
      rw [totalWeight_cons] at hfuel
      omega
  | succ fuel ih =>
    rw [forEachConcurrent] at h
    split at h
    · rename_i hdrop
      obtain ⟨rfl, rfl⟩ := trace_pure.1 h
      have hlen := List.drop_eq_nil_iff.1 hdrop
      cases futures with
      | nil => exact List.Perm.nil
      | cons f fs =>
        have hpos : 0 < min limit (f :: fs).length := lt_min hlimit (Nat.succ_pos _)
        have hlt := Nat.mod_lt (schedule fuel) hpos
        omega
    · rename_i f waiting hdrop
      have hsplit := List.take_append_drop (schedule fuel % min limit futures.length) futures
      rw [hdrop] at hsplit
      generalize futures.take (schedule fuel % min limit futures.length) = first at h hsplit
      subst hsplit
      rcases trace_except_bind.1 h with ⟨e, -, hpoll⟩ | ⟨next, tr₁, tr₂, rfl, hpoll, hrest⟩
      · obtain ⟨⟨next, hr⟩, -⟩ := trace_pollAction hpoll
        cases hr
      · obtain ⟨hok₁, hok₂⟩ := List.forall_mem_append.1 hok
        obtain ⟨next', hnext, hweight, howes⟩ := trace_pollAction_ok hpoll hok₁
        cases hnext
        rw [totalWeight_append, totalWeight_cons] at hfuel
        have hperm := ih hrest (by rw [totalWeight_append, totalWeight_append]; omega) hok₂
        rw [List.flatMap_append, List.flatMap_append, List.append_assoc] at hperm
        rw [List.map_append, List.flatMap_append, List.flatMap_cons, howes, List.append_assoc]
        exact (hperm.append_left _).trans (List.perm_append_comm_assoc _ _ _)

private theorem changesOf_append (tr tr' : List SyncExchange) :
    changesOf (tr ++ tr') = changesOf tr ++ changesOf tr' := by
  rw [changesOf, List.map_append, List.filter_append, changesOf, changesOf]

private theorem changesOf_vetOptouts {guilds : List Text}
    {r : Except AppError (List Text × List Text)}
    (h : Trace (vetOptouts discordId guilds).run tr r) : changesOf tr = [] := by
  induction guilds generalizing tr r with
  | nil =>
    obtain ⟨rfl, rfl⟩ := trace_pure.1 h
    rfl
  | cons guildId guilds ih =>
    rw [vetOptouts, run_attempt_bind, trace_call] at h
    obtain ⟨looked, tr', rfl, h⟩ := h
    rcases trace_except_bind.1 h with ⟨e, -, h⟩ | ⟨⟨optedOut, optoutUnknown⟩, tr₁, tr₂, rfl, h₁, h₂⟩
    · have hrest := ih h
      exact hrest
    · have htail : tr₂ = [] := by
        cases looked <;> exact (trace_pure.1 h₂).1
      have hrest := ih h₁
      rw [htail, List.append_nil]
      exact hrest

private theorem changesOf_qualifies {optedOut : List Text} {l : BoundLink}
    {r : Except AppError Bool} (h : Trace (qualifies libs discordId optedOut l).run tr r) :
    changesOf tr = [] := by
  rw [qualifies] at h
  split at h
  · obtain ⟨rfl, -⟩ := trace_pure.1 h
    rfl
  · rcases trace_ask_bind.1 h with ⟨e, rfl, -⟩ | ⟨rows, tr', rfl, hrest⟩
    · rfl
    · obtain ⟨rfl, -⟩ := trace_pure.1 hrest
      rfl

private theorem changesOf_planActions {optedOut optoutUnknown : List Text} {existing : List LinkKey}
    {links : List BoundLink} {r : Except AppError (List Action)}
    (h : Trace (planActions libs discordId optedOut optoutUnknown existing links).run tr r) :
    changesOf tr = [] := by
  induction links generalizing tr r with
  | nil =>
    obtain ⟨rfl, -⟩ := trace_pure.1 h
    rfl
  | cons l links ih =>
    rw [planActions] at h
    split at h
    · exact ih h
    · rcases trace_except_bind.1 h with ⟨e, -, h⟩ | ⟨q, tr₁, tr₂, rfl, h₁, h₂⟩
      · exact changesOf_qualifies h
      · rw [changesOf_append, changesOf_qualifies h₁, List.nil_append]
        rcases trace_except_bind.1 h₂ with ⟨e, -, h⟩ | ⟨actions, tr₃, tr₄, rfl, h₃, h₄⟩
        · exact ih h
        · obtain ⟨rfl, -⟩ := trace_pure.1 h₄
          rw [List.append_nil]
          exact ih h₃

/-- Only a lookup fails. -/
theorem ok_of_served {x : SyncExchange} (h : x.answer = (serveLookups failing x.call w).1)
    (hx : lookupFailed x = false) :
    ∃ a, x.answer = .ok a := by
  obtain ⟨c, answer⟩ := x
  cases c with
  | fetchGuildOptoutIds guildId =>
    cases answer with
    | ok a => exact ⟨a, rfl⟩
    | error e => cases hx
  | _ => exact ⟨_, h⟩

private theorem changesOf_performActions (schedule : Nat → Nat) (actions : List Action) :
    (changesOf ((performActions discordId schedule actions).run.transcript
      (serveLookups failing) w)).Perm
      (actions.flatMap fun a => (ActionFuture.start a).owes discordId) := by
  have htrace := trace_transcript (serveLookups failing)
    (performActions discordId schedule actions).run w
  have hlookups := (trace_forEachConcurrent htrace).2
  have hperm := trace_forEachConcurrent_ok (by decide) htrace le_rfl fun x hx => by
    obtain ⟨t, ht⟩ := answer_of_mem_transcript _ hx
    exact ok_of_served ht (Bool.eq_false_iff.2 (List.any_eq_false.1 hlookups x hx))
  rw [List.flatMap_map] at hperm
  have howes : (actions.flatMap fun a => (ActionFuture.start a).owes discordId).filter
    (·.changesIn.isSome) =
      actions.flatMap fun a => (ActionFuture.start a).owes discordId := by
    refine List.filter_eq_self.2 fun c hc => ?_
    obtain ⟨a, -, hc⟩ := List.mem_flatMap.1 hc
    cases a <;> rcases List.mem_pair.1 hc with rfl | rfl <;> rfl
  rw [← howes]
  exact hperm.filter _

/-! ### The run -/

theorem mem_actionFor {l : BoundLink} {q assigned : Bool} {a : Action}
    (h : a ∈ actionFor l q assigned) :
    a.link = l ∧ (a = .add l → q = true) := by
  cases q <;> cases assigned
  · cases h
  · obtain rfl := List.mem_singleton.1 h
    exact ⟨rfl, fun h => by cases h⟩
  · obtain rfl := List.mem_singleton.1 h
    exact ⟨rfl, fun _ => rfl⟩
  · cases h

/-- The decisions of a run are those of the plan, where something is known. -/
theorem plan_known (existing : List LinkKey) (links : List BoundLink) :
    (links.flatMap fun l =>
      if l.guildId ∈ (SortedSet.ofList (links.map (·.guildId))).toList.filter
        (fun g => (failing g).isSome) then []
      else actionFor l
        (!decide (l.guildId ∈ (SortedSet.ofList (links.map (·.guildId))).toList.filter
          (fun g => (failing g).isNone && decide (discordId ∈ w.optouts g))) && w.eligible libs
            discordId l)
        (l.key ∈ existing)) =
      (w.plan libs discordId existing links).filter fun a => (failing a.link.guildId).isNone := by
  rw [World.plan, List.filter_flatMap]
  refine List.flatMap_congr fun l hl => ?_
  have hguild : l.guildId ∈ (SortedSet.ofList (links.map (·.guildId))).toList :=
    SortedSet.mem_ofList.2 (List.mem_map_of_mem hl)
  cases hfailing : failing l.guildId with
  | some e =>
    rw [if_pos (List.mem_filter.2 ⟨hguild, by rw [hfailing]; rfl⟩)]
    refine (List.filter_eq_nil_iff.2 fun a ha => ?_).symm
    rw [(mem_actionFor ha).1, hfailing]
    exact Bool.false_ne_true
  | none =>
    rw [if_neg fun h => by rw [List.mem_filter, hfailing] at h; exact Bool.false_ne_true h.2]
    have hiff : l.guildId ∈ (SortedSet.ofList (links.map (·.guildId))).toList.filter
        (fun g => (failing g).isNone && decide (discordId ∈ w.optouts g)) ↔
            discordId ∈ w.optouts l.guildId := by
      rw [List.mem_filter, hfailing, Option.isNone_none, Bool.true_and, decide_eq_true_eq]
      exact and_iff_right hguild
    rw [decide_eq_decide.2 hiff]
    refine (List.filter_eq_self.2 fun a ha => ?_).symm
    rw [(mem_actionFor ha).1, hfailing]
    rfl

private theorem syncLinks_spec (schedule : Nat → Nat) (existing : List LinkKey)
    (links : List BoundLink) :
    (changesOf ((syncLinks libs schedule discordId existing links).run.transcript
      (serveLookups failing) w)).Perm
      (((w.plan libs discordId existing links).filter fun a =>
        (failing a.link.guildId).isNone).flatMap fun a =>
        (ActionFuture.start a).owes discordId) ∧
    ((∃ e, (run (serveLookups failing) (syncLinks libs schedule discordId existing links).run w).1 =
      .error e) ↔
      ∃ l ∈ links, (failing l.guildId).isSome) := by
  have hvet := @run_vetOptouts failing discordId w (SortedSet.ofList (links.map (·.guildId))).toList
  have hplan := @run_planActions libs failing discordId w
    ((SortedSet.ofList (links.map (·.guildId))).toList.filter fun g =>
      (failing g).isNone && decide (discordId ∈ w.optouts g))
    ((SortedSet.ofList (links.map (·.guildId))).toList.filter fun g =>
      (failing g).isSome) existing links
  rw [plan_known] at hplan
  -- an error is put off for each guild that could not be vetted
  have hunknown : deferredError ((SortedSet.ofList (links.map (·.guildId))).toList.filter fun g =>
    (failing g).isSome) = none ↔
      ¬∃ l ∈ links, (failing l.guildId).isSome := by
    rw [deferredError]
    split
    · rename_i hempty
      refine iff_of_true rfl fun hsome => ?_
      obtain ⟨l, hl, hfailing⟩ := hsome
      have hguild : l.guildId ∈ (SortedSet.ofList (links.map (·.guildId))).toList :=
        SortedSet.mem_ofList.2 (List.mem_map_of_mem hl)
      exact List.filter_eq_nil_iff.1 (List.isEmpty_iff.1 hempty) _ hguild hfailing
    · rename_i hne
      refine iff_of_false (fun h => by cases h) fun hnone =>
        hne (List.isEmpty_iff.2 (List.filter_eq_nil_iff.2 ?_))
      rintro g hg hfailing
      obtain ⟨l, hl, rfl⟩ := List.mem_map.1 (SortedSet.mem_ofList.1 hg)
      exact hnone ⟨l, hl, hfailing⟩
  rw [syncLinks, transcript_bind_ok hvet, run_bind_ok hvet]
  dsimp only
  rw [transcript_bind_ok hplan, run_bind_ok hplan, changesOf_append, changesOf_append,
    changesOf_vetOptouts (trace_transcript (serveLookups failing) _ w),
    changesOf_planActions (trace_transcript (serveLookups failing) _ w), List.nil_append,
      List.nil_append]
  generalize deferredError _ = deferred at hunknown ⊢
  generalize (w.plan libs discordId existing links).filter _ = actions
  -- it comes back once all changes are made
  have hend : ∀ t, (∃ e, (run (serveLookups failing) (finish deferred).run t).1 = .error e) ↔
      ∃ l ∈ links, (failing l.guildId).isSome := by
    intro t
    cases deferred with
    | none => exact iff_of_false (fun h => by cases h.choose_spec) (hunknown.1 rfl)
    | some e => exact iff_of_true ⟨e, rfl⟩ (not_not.1 fun h => by cases hunknown.2 h)
  have hquiet : ∀ t, (finish deferred).run.transcript (serveLookups failing) t = [] := fun t =>
    (trace_finish (trace_transcript (serveLookups failing) _ t)).1
  cases actions with
  | nil =>
    refine ⟨?_, hend w⟩
    rw [List.isEmpty_nil, if_pos rfl, hquiet]
    exact List.Perm.nil
  | cons a actions =>
    have hdone := (trace_forEachConcurrent (trace_transcript (serveLookups failing)
      (performActions discordId schedule (a :: actions)).run w)).1
    have hperform : run (serveLookups failing)
      (performActions discordId schedule (a :: actions)).run w =
        (.ok (), (run (serveLookups failing)
            (performActions discordId schedule (a :: actions)).run w).2) :=
      Prod.ext hdone rfl
    rw [List.isEmpty_cons, if_neg Bool.false_ne_true, transcript_bind_ok hperform,
      run_bind_ok hperform, hquiet,
      List.append_nil]
    exact ⟨changesOf_performActions schedule (a :: actions), hend _⟩

private theorem changesOf_ask_bind {c : SyncCall} {f : c.Answer → SyncM Unit} {a : c.Answer}
    {w' : World} (hc : c.changesIn = none)
    (h : run (serveLookups failing) (ask c).run w = (.ok a, w')) :
    changesOf ((ask c >>= f).run.transcript (serveLookups failing) w) =
      changesOf ((f a).run.transcript (serveLookups failing) w') := by
  have hread : changesOf ((ask c).run.transcript (serveLookups failing) w) = [] :=
    List.filter_eq_nil_iff.2 (List.forall_mem_singleton.2 (by rw [hc]; exact Bool.false_ne_true))
  rw [transcript_bind_ok h, changesOf_append, hread, List.nil_append]

/-- The changes that a run makes are those that the plan asks for where the opt-outs are known. -/
theorem lookups_spec (schedule : Nat → Nat) :
    (changesOf (lookupsTrace libs failing schedule discordId w)).Perm
      (((w.plan libs discordId (w.answer (.selectAssignedLinks discordId))
        (w.boundLinks discordId)).filter fun a =>
        (failing a.link.guildId).isNone).flatMap fun a => (ActionFuture.start a).owes discordId) ∧
    ((∃ e, lookupsResult libs failing schedule discordId w = .error e) ↔
      ∃ l ∈ w.boundLinks discordId, (failing l.guildId).isSome) := by
  let w₁ := w.effect (.fetchUserGuildIds discordId)
  have hguilds : run (serveLookups failing) (ask (.fetchUserGuildIds discordId)).run w =
      (.ok (w.userGuilds w.gatewayRequests discordId), w₁) := rfl
  have hrespondent : run (serveLookups failing) (ask (.selectRespondentGuilds discordId)).run w₁ =
      (.ok (w.answer (.selectRespondentGuilds discordId)), w₁) := rfl
  have hexisting : run (serveLookups failing) (ask (.selectAssignedLinks discordId)).run w₁ =
      (.ok (w.answer (.selectAssignedLinks discordId)), w₁) := rfl
  have hbound : run (serveLookups failing)
    (ask (.selectBoundLinks (w.candidateGuilds discordId).toList)).run w₁ =
      (.ok (w.boundLinks discordId), w₁) := rfl
  rw [lookupsTrace, lookupsResult, syncForPlayer, changesOf_ask_bind rfl hguilds,
    run_bind_ok hguilds,
    changesOf_ask_bind rfl hrespondent, run_bind_ok hrespondent, changesOf_ask_bind rfl hexisting,
      run_bind_ok hexisting]
  dsimp only
  rw [← World.candidateGuilds]
  by_cases hempty : (w.candidateGuilds discordId).isEmpty = true
  · have hlinks : w.boundLinks discordId = [] := by
      have hnone : w.roleLinks.filter (fun l => l.guildId ∈ (w.candidateGuilds discordId).toList) =
          [] :=
        List.filter_eq_nil_iff.2 fun l _ hl => by
          have hmem : l.guildId ∈ (w.candidateGuilds discordId).toList := of_decide_eq_true hl
          exact SortedSet.isEmpty_iff.1 hempty l.guildId hmem
      rw [World.boundLinks, World.answer, hnone]
      rfl
    rw [if_pos hempty, hlinks]
    exact ⟨List.Perm.nil, iff_of_false (fun h => by cases h.choose_spec) fun h =>
      List.not_mem_nil h.choose_spec.1⟩
  rw [if_neg hempty, changesOf_ask_bind rfl hbound, run_bind_ok hbound]
  by_cases hnone : (w.boundLinks discordId).isEmpty = true
  · rw [if_pos hnone, List.isEmpty_iff.1 hnone]
    exact ⟨List.Perm.nil, iff_of_false (fun h => by cases h.choose_spec) fun h =>
      List.not_mem_nil h.choose_spec.1⟩
  · rw [if_neg hnone]
    exact syncLinks_spec schedule _ _

/-- What the actions outside some guilds owe is what the actions owe outside these guilds. -/
theorem owes_known (plan : List Action) :
    (plan.flatMap fun a => (ActionFuture.start a).owes discordId).filter
        (fun c => c.changesIn.all fun g => (failing g).isNone) =
      (plan.filter fun a => (failing a.link.guildId).isNone).flatMap fun a =>
        (ActionFuture.start a).owes discordId := by
  have hguild : ∀ a : Action, ∀ c ∈ (ActionFuture.start a).owes discordId,
      c.changesIn = some a.link.guildId := by
    intro a c hc
    cases a <;> rcases List.mem_pair.1 hc with rfl | rfl <;> rfl
  induction plan with
  | nil => rfl
  | cons a plan ih =>
    rw [List.flatMap_cons, List.filter_append, ih]
    cases hfailing : failing a.link.guildId with
    | some e =>
      rw [List.filter_cons_of_neg (by rw [hfailing]; exact Bool.false_ne_true),
        List.filter_eq_nil_iff.2, List.nil_append]
      intro c hc
      rw [hguild a c hc, Option.all_some, hfailing]
      exact Bool.false_ne_true
    | none =>
      rw [List.filter_cons_of_pos (by rw [hfailing]; rfl), List.filter_eq_self.2, List.flatMap_cons]
      intro c hc
      rw [hguild a c hc, Option.all_some, hfailing]
      rfl

end

/-- A lookup that fails affects its own guild only. -/
theorem guilds_isolated (libs : Libs) (failing : Text → Option AppError)
    (schedule schedule' : Nat → Nat) (discordId : Text) (w : World) :
    GuildsIsolated libs failing schedule schedule' discordId w := by
  obtain ⟨hperm, hreported⟩ := @lookups_spec libs failing discordId w schedule
  obtain ⟨hperm', -⟩ := @lookups_spec libs (fun _ => none) discordId w schedule'
  have hall : (w.plan libs discordId (w.answer (.selectAssignedLinks discordId))
    (w.boundLinks discordId)).filter
      (fun _ => Option.isNone (none : Option AppError)) =
      w.plan libs discordId (w.answer (.selectAssignedLinks discordId)) (w.boundLinks discordId) :=
    List.filter_eq_self.2 fun _ _ => rfl
  rw [hall] at hperm'
  have hperformed : (changesOf (lookupsTrace libs failing schedule discordId w)).Perm
      ((changesOf (lookupsTrace libs (fun _ => none) schedule' discordId w)).filter fun c =>
        c.changesIn.all fun g => (failing g).isNone) := by
    refine hperm.trans (List.Perm.symm ?_)
    rw [← owes_known]
    exact hperm'.filter _
  refine ⟨hperformed, hperm, fun c hc g hg => ?_, fun g r u t hadd => ?_, hreported⟩
  · have hknown := (List.mem_filter.1 (hperformed.mem_iff.1 hc)).2
    rw [hg, Option.all_some] at hknown
    exact Option.isNone_iff_eq_none.1 hknown
  · obtain ⟨a, ha, howes⟩ := List.mem_flatMap.1 (hperm.mem_iff.1 hadd)
    obtain ⟨l, -, haction⟩ := List.mem_flatMap.1 (List.mem_filter.1 ha).1
    obtain ⟨hlink, hqualifies⟩ := mem_actionFor haction
    cases a with
    | remove l' => rcases List.mem_pair.1 howes with h | h <;> cases h
    | add l' =>
      obtain rfl : l' = l := hlink
      have hnot := (Bool.and_eq_true_iff.1 (hqualifies rfl)).1
      rcases List.mem_pair.1 howes with h | h
      · cases h
        simpa using hnot
      · cases h

end FormRespondentRole
