import FormRespondentRole.JobWorker
import FormRespondentRole.SyncAgreement

/-!
# Failures of the per-player sync

What `sync_for_player` reports of the calls that failed.  Its trace is a list of exchanges with the
gateway, the database and RoleLogic, each of which may fail in any way.  The actions log their
failures and return, and only the opt-out lookups reach the result: a failed action is reported when
some lookup failed as well, and lost otherwise (`action_failure_reported`).
-/

namespace FormRespondentRole

open Foundations

abbrev SyncExchange := Program.Exchange SyncCall fun c => Except AppError c.Answer

/-- The answers of RoleLogic that an action takes for final. -/
def tolerated : AppError → Bool
  | .roleLinkNotFound | .roleLinkDisabled | .userLimitReached _ => true
  | _ => false

/-- An action failed: RoleLogic answered with an error that is not final, or the mirror was not
written. -/
def actionFailed : SyncExchange → Bool
  | ⟨.addUser .., .error e⟩ | ⟨.removeUser .., .error e⟩ => !tolerated e
  | ⟨.insertAssignment .., .error _⟩ | ⟨.deleteAssignment .., .error _⟩ => true
  | _ => false

def lookupFailed : SyncExchange → Bool
  | ⟨.fetchGuildOptoutIds _, .error _⟩ => true
  | _ => false

/-- How the worker writes back a `player_sync` job whose sync ended with this result. -/
def playerSettlement (job : Job) (r : Except AppError Unit) : Settlement :=
  settlement job (r.mapError JobError.ofAppError)

private theorem playerSettlement_eq_complete {job : Job} {r : Except AppError Unit} :
    playerSettlement job r = .complete ↔ r = .ok () := by
  rw [playerSettlement, settlement_eq_complete]
  match r with
  | .ok () => exact ⟨fun _ => rfl, fun _ => rfl⟩
  | .error e => exact ⟨nofun, nofun⟩

/-! ### Traces of the parts -/

open Program

section

variable {discordId : Text} {tr : List SyncExchange}

private theorem trace_vetOptouts {guilds : List Text} {r : Except AppError (List Text × List Text)}
    (h : Trace (vetOptouts discordId guilds).run tr r) :
    (∃ optedOut optoutUnknown, r = .ok (optedOut, optoutUnknown) ∧
      optoutUnknown.isEmpty = !tr.any lookupFailed) ∧
      tr.any actionFailed = false := by
  induction guilds generalizing tr r with
  | nil =>
    obtain ⟨rfl, rfl⟩ := trace_pure.1 h
    exact ⟨⟨[], [], rfl, rfl⟩, rfl⟩
  | cons guildId guilds ih =>
    rw [vetOptouts, run_attempt_bind, trace_call] at h
    obtain ⟨looked, tr', rfl, h⟩ := h
    rcases trace_except_bind.1 h with ⟨e, -, h⟩ | ⟨⟨optedOut, optoutUnknown⟩, tr₁, tr₂, rfl, h₁, h₂⟩
    · obtain ⟨⟨_, _, hr, -⟩, -⟩ := ih h
      cases hr
    · obtain ⟨⟨_, _, hr, hunknown⟩, hactions⟩ := ih h₁
      cases hr
      cases looked with
      | ok optouts =>
        obtain ⟨rfl, rfl⟩ := trace_pure.1 h₂
        exact ⟨⟨_, _, rfl, by simpa [lookupFailed] using hunknown⟩,
          by simpa [actionFailed] using hactions⟩
      | error e =>
        obtain ⟨rfl, rfl⟩ := trace_pure.1 h₂
        exact ⟨⟨_, _, rfl, by simp [lookupFailed]⟩, by simpa [actionFailed] using hactions⟩

private theorem trace_qualifies {libs : Libs} {optedOut : List Text} {l : BoundLink}
    {r : Except AppError Bool} (h : Trace (qualifies libs discordId optedOut l).run tr r) :
    tr.any actionFailed = false ∧ tr.any lookupFailed = false := by
  rw [qualifies] at h
  split at h
  · obtain ⟨rfl, -⟩ := trace_pure.1 h
    exact ⟨rfl, rfl⟩
  · rcases trace_ask_bind.1 h with ⟨e, rfl, -⟩ | ⟨rows, tr', rfl, hrest⟩
    · exact ⟨rfl, rfl⟩
    · obtain ⟨rfl, -⟩ := trace_pure.1 hrest
      exact ⟨rfl, rfl⟩

private theorem trace_planActions {libs : Libs} {optedOut optoutUnknown : List Text}
    {existing : List LinkKey} {roleLinks : List BoundLink} {r : Except AppError (List Action)}
    (h : Trace (planActions libs discordId optedOut optoutUnknown existing roleLinks).run tr r) :
    tr.any actionFailed = false ∧ tr.any lookupFailed = false := by
  induction roleLinks generalizing tr r with
  | nil =>
    obtain ⟨rfl, -⟩ := trace_pure.1 h
    exact ⟨rfl, rfl⟩
  | cons l links ih =>
    rw [planActions] at h
    split at h
    · exact ih h
    · rcases trace_except_bind.1 h with ⟨e, -, h⟩ | ⟨q, tr₁, tr₂, rfl, h₁, h₂⟩
      · exact trace_qualifies h
      · have hq := trace_qualifies h₁
        have hrest : tr₂.any actionFailed = false ∧ tr₂.any lookupFailed = false := by
          rcases trace_except_bind.1 h₂ with ⟨e, -, h⟩ | ⟨actions, tr₃, tr₄, rfl, h₃, h₄⟩
          · exact ih h
          · obtain ⟨rfl, -⟩ := trace_pure.1 h₄
            rw [List.append_nil]
            exact ih h₃
        rw [List.any_append, List.any_append, hq.1, hq.2, hrest.1, hrest.2]
        exact ⟨rfl, rfl⟩

/-- An action never fails the run. -/
theorem trace_pollAction {f : ActionFuture} {r : Except AppError (Option ActionFuture)}
    (h : Trace (pollAction discordId f).run tr r) :
    (∃ next, r = .ok next) ∧ tr.any lookupFailed = false := by
  cases f with
  | start a =>
    cases a with
    | add l =>
      rw [pollAction, run_attempt_bind, trace_call] at h
      obtain ⟨answer, tr', rfl, h⟩ := h
      split at h <;> obtain ⟨rfl, rfl⟩ := trace_pure.1 h <;> exact ⟨⟨_, rfl⟩, rfl⟩
    | remove l =>
      rw [pollAction, run_attempt_bind, trace_call] at h
      obtain ⟨answer, tr', rfl, h⟩ := h
      split at h <;> obtain ⟨rfl, rfl⟩ := trace_pure.1 h <;> exact ⟨⟨_, rfl⟩, rfl⟩
  | store a =>
    cases a with
    | add l =>
      rw [pollAction, run_attempt_bind, trace_call] at h
      obtain ⟨answer, tr', rfl, h⟩ := h
      obtain ⟨rfl, rfl⟩ := trace_pure.1 h
      exact ⟨⟨_, rfl⟩, rfl⟩
    | remove l =>
      rw [pollAction, run_attempt_bind, trace_call] at h
      obtain ⟨answer, tr', rfl, h⟩ := h
      obtain ⟨rfl, rfl⟩ := trace_pure.1 h
      exact ⟨⟨_, rfl⟩, rfl⟩
  | dropLink a =>
    rw [pollAction, run_attempt_bind, trace_call] at h
    obtain ⟨answer, tr', rfl, h⟩ := h
    obtain ⟨rfl, rfl⟩ := trace_pure.1 h
    exact ⟨⟨_, rfl⟩, rfl⟩

/-- Whatever the actions get, the run goes on after them. -/
theorem trace_forEachConcurrent {limit fuel : Nat} {schedule : Nat → Nat}
    {futures : List ActionFuture} {r : Except AppError Unit}
    (h : Trace (forEachConcurrent limit discordId schedule fuel futures).run tr r) :
    r = .ok () ∧ tr.any lookupFailed = false := by
  induction fuel generalizing futures tr r with
  | zero =>
    obtain ⟨rfl, rfl⟩ := trace_pure.1 h
    exact ⟨rfl, rfl⟩
  | succ fuel ih =>
    rw [forEachConcurrent] at h
    split at h
    · obtain ⟨rfl, rfl⟩ := trace_pure.1 h
      exact ⟨rfl, rfl⟩
    · rcases trace_except_bind.1 h with ⟨e, -, h⟩ | ⟨next, tr₁, tr₂, rfl, h₁, h₂⟩
      · obtain ⟨⟨next, hr⟩, -⟩ := trace_pollAction h
        cases hr
      · obtain ⟨hr, hrest⟩ := ih h₂
        rw [List.any_append, (trace_pollAction h₁).2, hrest]
        exact ⟨hr, rfl⟩

theorem trace_finish {deferred : Option AppError} {r : Except AppError Unit}
    (h : Trace (finish deferred).run tr r) :
    tr = [] ∧ (r = .ok () ↔ deferred = none) := by
  cases deferred with
  | some e =>
    obtain ⟨rfl, rfl⟩ := trace_pure.1 h
    exact ⟨rfl, ⟨nofun, nofun⟩⟩
  | none =>
    obtain ⟨rfl, rfl⟩ := trace_pure.1 h
    exact ⟨rfl, ⟨fun _ => rfl, fun _ => rfl⟩⟩

/-- The result of the part after the links are selected says whether some lookup failed. -/
theorem trace_syncLinks {libs : Libs} {schedule : Nat → Nat} {existing : List LinkKey}
    {roleLinks : List BoundLink} {r : Except AppError Unit}
    (h : Trace (syncLinks libs schedule discordId existing roleLinks).run tr r) :
    tr.any actionFailed = true → (r = .ok () ↔ tr.any lookupFailed = false) := by
  rw [syncLinks] at h
  rcases trace_except_bind.1 h with ⟨e, -, h₁⟩ | ⟨⟨optedOut, optoutUnknown⟩, tr₁, tr₂, rfl, h₁, h₂⟩
  · obtain ⟨⟨_, _, hr, -⟩, -⟩ := trace_vetOptouts h₁
    cases hr
  · obtain ⟨⟨_, _, hr, hunknown⟩, hactions₁⟩ := trace_vetOptouts h₁
    cases hr
    rcases trace_except_bind.1 h₂ with ⟨e, -, h₃⟩ | ⟨actions, tr₃, tr₄, rfl, h₃, h₄⟩
    · obtain ⟨hactions₂, -⟩ := trace_planActions h₃
      rw [List.any_append, hactions₁, hactions₂]
      exact nofun
    · obtain ⟨hactions₂, hlookups₂⟩ := trace_planActions h₃
      have hdeferred : deferredError optoutUnknown = none ↔ tr₁.any lookupFailed = false := by
        rw [deferredError, hunknown]
        cases tr₁.any lookupFailed
        · exact ⟨fun _ => rfl, fun _ => rfl⟩
        · exact ⟨nofun, nofun⟩
      split at h₄
      · obtain ⟨rfl, -⟩ := trace_finish h₄
        rw [List.any_append, List.any_append, hactions₁, hactions₂]
        exact nofun
      · rcases trace_except_bind.1 h₄ with ⟨e, -, h₅⟩ | ⟨⟨⟩, tr₅, tr₆, rfl, h₅, h₆⟩
        · cases (trace_forEachConcurrent h₅).1
        · obtain ⟨-, hlookups₃⟩ := trace_forEachConcurrent h₅
          obtain ⟨rfl, hr⟩ := trace_finish h₆
          intro _
          rw [hr, hdeferred, List.append_nil, List.any_append, List.any_append, hlookups₂,
            hlookups₃, Bool.or_false,
            Bool.or_false]

/-- Once an action has failed, the sync succeeds just when no lookup failed. -/
theorem trace_syncForPlayer {libs : Libs} {schedule : Nat → Nat} {r : Except AppError Unit}
    (h : Trace (syncForPlayer libs schedule discordId).run tr r) :
    tr.any actionFailed = true → (r = .ok () ↔ tr.any lookupFailed = false) := by
  rw [syncForPlayer] at h
  rcases trace_ask_bind.1 h with ⟨e, rfl, -⟩ | ⟨gatewayGuilds, tr₁, rfl, h₁⟩
  · exact nofun
  rcases trace_ask_bind.1 h₁ with ⟨e, rfl, -⟩ | ⟨respondentGuilds, tr₂, rfl, h₂⟩
  · exact nofun
  rcases trace_ask_bind.1 h₂ with ⟨e, rfl, -⟩ | ⟨existing, tr₃, rfl, h₃⟩
  · exact nofun
  dsimp only at h₃
  split at h₃
  · obtain ⟨rfl, -⟩ := trace_pure.1 h₃
    exact nofun
  · rcases trace_ask_bind.1 h₃ with ⟨e, rfl, -⟩ | ⟨roleLinks, tr₄, rfl, h₄⟩
    · exact nofun
    · split at h₄
      · obtain ⟨rfl, -⟩ := trace_pure.1 h₄
        exact nofun
      · -- none of the four reads is an action or a lookup
        have hlinks := trace_syncLinks h₄
        exact hlinks

end

/-- The property holds of a run just when no action failed in it, or some opt-out lookup did. -/
theorem action_failure_reported (libs : Libs) (schedule : Nat → Nat) (discordId : Text) (job : Job)
    {tr : List SyncExchange} {r : Except AppError Unit}
    (h : Trace (syncForPlayer libs schedule discordId).run tr r) :
    (tr.any actionFailed = true → (∃ e, r = .error e) ∧ playerSettlement job r ≠ .complete) ↔
      (tr.any actionFailed = true → tr.any lookupFailed = true) := by
  refine imp_congr_right fun hfailed => ?_
  have hok : r = .ok () ↔ tr.any lookupFailed = false := trace_syncForPlayer h hfailed
  rw [ne_eq, playerSettlement_eq_complete, hok, Bool.not_eq_false, and_iff_right_iff_imp]
  intro hlookup
  match r with
  | .ok () =>
    rw [hok.1 rfl] at hlookup
    cases hlookup
  | .error e => exact ⟨e, rfl⟩

/-! ### A lost grant -/

/-- RoleLogic fails to add members. -/
def failAdds (c : SyncCall) (w : World) : Except AppError c.Answer × World :=
  match c with
  | .addUser .. => (.error (.roleLogic "503".toList), w)
  | c => serve c w

/-- A member's add fails, and the job is marked completed. -/
theorem not_action_failure_reported :
    ¬ ∀ (libs : Libs) (schedule : Nat → Nat) (discordId : Text) (job : Job) (tr : List SyncExchange)
        (r : Except AppError Unit), Trace (syncForPlayer libs schedule discordId).run tr r →
      tr.any actionFailed = true → (∃ e, r = .error e) ∧ playerSettlement job r ≠ .complete := by
  intro h
  have hrun := trace_transcript failAdds
    (syncForPlayer surveyLibs (fun _ => 0) "ann".toList).run surveyWorld
  obtain ⟨⟨e, he⟩, -⟩ := h _ _ _ ⟨1, [], .null, 1, 8⟩ _ _ hrun (by decide)
  have hok : (run failAdds
      (syncForPlayer surveyLibs (fun _ => 0) "ann".toList).run surveyWorld).1.isOk = true := by
    decide
  rw [he] at hok
  cases hok

/-- The survey with a link in a second guild, where the member already holds the role. -/
def twoGuilds : World :=
  { surveyWorld with
    roleLinks := [surveyLink, { surveyLink with guildId := "other".toList }]
    roleAssignments := [⟨"other".toList, "role".toList, "ann".toList⟩] }

/-- The gateway also fails to name the opt-outs of the second guild. -/
def failAddsAndLookup (c : SyncCall) (w : World) : Except AppError c.Answer × World :=
  match c with
  | .fetchGuildOptoutIds guildId =>
    if guildId = "other".toList then (.error (.internal "timeout".toList), w)
      else serve (.fetchGuildOptoutIds guildId) w
  | c => failAdds c w

theorem action_failure_reported_twoGuilds :
    playerSettlement ⟨0, JobKind.playerSync.asStr, .null, 1, 5⟩
      (run failAddsAndLookup (syncForPlayer surveyLibs (fun _ => 0) "ann".toList).run twoGuilds).1 ≠
        .complete :=
  ((action_failure_reported surveyLibs (fun _ => 0) "ann".toList
    ⟨0, JobKind.playerSync.asStr, .null, 1, 5⟩
    (trace_transcript failAddsAndLookup _ twoGuilds)).2 (fun _ => by decide) (by decide)).2

end FormRespondentRole
