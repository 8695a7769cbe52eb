import FormRespondentRole.ConditionEval
import FormRespondentRole.Error
import FormRespondentRole.Tables
import FormRespondentRole.Foundations.Program
import FormRespondentRole.Foundations.SortedSet

/-!
# Sync engine

The two syncs, per player and per role link, as programs over the calls they make: gateway requests,
database statements and RoleLogic requests.  Every call may fail; `ask` passes the failure on (the
`?` of the source) and `attempt` looks at it.  Log lines are left out.
-/

namespace FormRespondentRole

open Foundations

/-! ### Calls -/

/-- A link with a form, as `sync_for_player` selects it. -/
structure BoundLink where
  guildId : Text
  roleId : Text
  apiToken : Text
  formId : Text
  grantOnAnySubmission : Bool
  conditions : Value

def BoundLink.key (l : BoundLink) : LinkKey := (l.guildId, l.roleId)

inductive SyncCall
  | fetchUserGuildIds (discordId : Text)
  | fetchGuildOptoutIds (guildId : Text)
  | selectRespondentGuilds (discordId : Text)
  | selectAssignedLinks (discordId : Text)
  | selectBoundLinks (guildIds : List Text)
  | selectResponses (formId discordId : Text)
  | selectLink (guildId roleId : Text)
  | selectCandidates (formId : Text) (optoutIds : List Text)
  | selectAssigned (guildId roleId : Text)
  | insertAssignment (guildId roleId discordId : Text)
  | deleteAssignment (guildId roleId discordId : Text)
  | deleteAssignments (guildId roleId : Text)
  /-- One transaction: delete the link's assignments, insert the new ones. -/
  | replaceAssignments (guildId roleId : Text) (discordIds : List Text)
  | deleteRoleLink (guildId roleId : Text)
  | enqueueConfigSyncUnlessQueued (guildId roleId : Text) (delaySecs : Nat)
  | addUser (guildId roleId userId token : Text)
  | removeUser (guildId roleId userId token : Text)
  | uploadUsers (guildId roleId : Text) (userIds : List Text) (token : Text)

/-- What a call answers when it succeeds. -/
abbrev SyncCall.Answer : SyncCall → Type
  | fetchUserGuildIds _ | fetchGuildOptoutIds _ | selectRespondentGuilds _ | selectAssigned _ _ =>
  List Text
  | selectAssignedLinks _ => List LinkKey
  | selectBoundLinks _ => List BoundLink
  | selectResponses _ _ => List ResponseEvalData
  | selectLink _ _ => Option RoleLink
  | selectCandidates _ _ => List (Text × ResponseEvalData)
  | insertAssignment _ _ _ | deleteAssignment _ _ _ | deleteAssignments _ _
  | replaceAssignments _ _ _
  | deleteRoleLink _ _ | enqueueConfigSyncUnlessQueued _ _ _ => Unit
  | addUser _ _ _ _ | removeUser _ _ _ _ => Bool
  | uploadUsers _ _ _ _ => Nat

abbrev SyncProgram := Program SyncCall fun c => Except AppError c.Answer

abbrev SyncM := ExceptT AppError SyncProgram

abbrev ask (c : SyncCall) : SyncM c.Answer := Program.ask c

abbrev attempt (c : SyncCall) : SyncM (Except AppError c.Answer) := Program.attempt c

/-! ### Per-player sync -/

/-- The opt-outs of the guilds that have a link: where the member opted out, and where the lookup
failed. -/
def vetOptouts (discordId : Text) : List Text → SyncM (List Text × List Text)
  | [] => pure ([], [])
  | guildId :: guilds => do
    let looked ← attempt (.fetchGuildOptoutIds guildId)
    let (optedOut, optoutUnknown) ← vetOptouts discordId guilds
    match looked with
    | .ok optouts => pure (if discordId ∈ optouts then guildId :: optedOut
      else optedOut, optoutUnknown)
    | .error _ => pure (optedOut, guildId :: optoutUnknown)

inductive Action
  | add (link : BoundLink)
  | remove (link : BoundLink)

def Action.link : Action → BoundLink
  | add l | remove l => l

section

variable (libs : Libs)

def qualifies (discordId : Text) (optedOut : List Text) (l : BoundLink) : SyncM Bool :=
  if l.guildId ∈ optedOut then pure false
  else do
    let respRows ← ask (.selectResponses l.formId discordId)
    pure (respRows.any (evaluate libs l.grantOnAnySubmission (conditionsOf l.conditions)))

def actionFor (l : BoundLink) (qualifies currentlyAssigned : Bool) : List Action :=
  match qualifies, currentlyAssigned with
  | true, false => [.add l]
  | false, true => [.remove l]
  | _, _ => []

def planActions (discordId : Text) (optedOut optoutUnknown : List Text) (existing : List LinkKey) :
    List BoundLink → SyncM (List Action)
  | [] => pure []
  | l :: links =>
    -- unknown opt-out status: neither direction is safe
    if l.guildId ∈ optoutUnknown then planActions discordId optedOut optoutUnknown existing links
    else do
      let q ← qualifies libs discordId optedOut l
      let actions ← planActions discordId optedOut optoutUnknown existing links
      pure (actionFor l q (l.key ∈ existing) ++ actions)

end

/-- Where the future of one action stands. -/
inductive ActionFuture
  | start (a : Action)
  /-- RoleLogic accepted the change; the mirror write is owed. -/
  | store (a : Action)
  /-- RoleLogic answered that the link is gone; the orphaned row is to be deleted. -/
  | dropLink (a : Action)

def ActionFuture.action : ActionFuture → Action
  | start a | store a | dropLink a => a

/-- The calls that the future of an action still makes, at most. -/
def ActionFuture.weight : ActionFuture → Nat
  | start _ => 2
  | store _ | dropLink _ => 1

/-- One step of the future of an action; `none` when it is finished. -/
def pollAction (discordId : Text) : ActionFuture → SyncM (Option ActionFuture)
  | .start (.add l) => do
    match ← attempt (.addUser l.guildId l.roleId discordId l.apiToken) with
    | .error .roleLinkNotFound => pure (some (.dropLink (.add l)))
    | .error .roleLinkDisabled => pure none
    | .error (.userLimitReached _) => pure none
    | .error _ => pure none
    | .ok _ => pure (some (.store (.add l)))
  | .start (.remove l) => do
    match ← attempt (.removeUser l.guildId l.roleId discordId l.apiToken) with
    | .error .roleLinkNotFound => pure (some (.dropLink (.remove l)))
    | .error .roleLinkDisabled => pure none
    | .error _ => pure none
    | .ok _ => pure (some (.store (.remove l)))
  | .store (.add l) => do
    let _ ← attempt (.insertAssignment l.guildId l.roleId discordId)
    pure none
  | .store (.remove l) => do
    let _ ← attempt (.deleteAssignment l.guildId l.roleId discordId)
    pure none
  | .dropLink a => do
    let _ ← attempt (.deleteRoleLink a.link.guildId a.link.roleId)
    pure none

def totalWeight (futures : List ActionFuture) : Nat := (futures.map ActionFuture.weight).sum

/-- `for_each_concurrent`: of the first `limit` unfinished futures, one is stepped at a time, and
`schedule` says which.  The last argument bounds the number of steps; `totalWeight` of the futures
is enough. -/
def forEachConcurrent (limit : Nat) (discordId : Text) (schedule : Nat → Nat) :
    Nat → List ActionFuture → SyncM Unit
  | 0, _ => pure ()
  | fuel + 1, futures =>
    let i := schedule fuel % min limit futures.length
    match futures.drop i with
    | [] => pure ()
    | f :: waiting => do
      let next ← pollAction discordId f
      forEachConcurrent limit discordId schedule fuel (futures.take i ++ next.toList ++ waiting)

def performActions (discordId : Text) (schedule : Nat → Nat) (actions : List Action) : SyncM Unit :=
  let futures := actions.map ActionFuture.start
  forEachConcurrent 10 discordId schedule (totalWeight futures) futures

def deferredError (optoutUnknown : List Text) : Option AppError :=
  if optoutUnknown.isEmpty then none
  else some (.internal ("opt-out lookup failed for ".toList ++ Text.ofNat optoutUnknown.length ++
    " guild(s); retrying those".toList))

def finish : Option AppError → SyncM Unit
  | some e => throw e
  | none => pure ()

/-- The part of `sync_for_player` after the links are selected. -/
def syncLinks (libs : Libs) (schedule : Nat → Nat) (discordId : Text) (existing : List LinkKey)
    (roleLinks : List BoundLink) : SyncM Unit := do
  let linkGuilds := SortedSet.ofList (roleLinks.map (·.guildId))
  let (optedOut, optoutUnknown) ← vetOptouts discordId linkGuilds.toList
  let actions ← planActions libs discordId optedOut optoutUnknown existing roleLinks
  let deferred := deferredError optoutUnknown
  if actions.isEmpty then finish deferred
  else do
    performActions discordId schedule actions
    finish deferred

def syncForPlayer (libs : Libs) (schedule : Nat → Nat) (discordId : Text) : SyncM Unit := do
  let gatewayGuilds ← ask (.fetchUserGuildIds discordId)
  let respondentGuilds ← ask (.selectRespondentGuilds discordId)
  let existing ← ask (.selectAssignedLinks discordId)
  let candidateGuilds :=
    ((SortedSet.ofList gatewayGuilds).extend respondentGuilds).extend (existing.map Prod.fst)
  if candidateGuilds.isEmpty then pure ()
  else do
    let roleLinks ← ask (.selectBoundLinks candidateGuilds.toList)
    if roleLinks.isEmpty then pure ()
    else syncLinks libs schedule discordId existing roleLinks

/-! ### Per-role-link sync -/

def heldRecheckSecs : Nat := 20 * 60

def recheckHeld (guildId roleId : Text) : SyncM Unit :=
  ask (.enqueueConfigSyncUnlessQueued guildId roleId heldRecheckSecs)

def deleteOrphanRoleLink (guildId roleId : Text) : SyncM Unit := do
  let _ ← attempt (.deleteRoleLink guildId roleId)
  pure ()

/-- The distinct members among the candidates with a response that satisfies the link's
eligibility. -/
def collectQualifying (libs : Libs) (grantOnAnySubmission : Bool) (conditions : List Condition) :
    SortedSet Text → List (Text × ResponseEvalData) → SortedSet Text
  | qualifying, [] => qualifying
  | qualifying, (discordId, data) :: rows =>
    if discordId ∈ qualifying then
      collectQualifying libs grantOnAnySubmission conditions qualifying rows
    else if evaluate libs grantOnAnySubmission conditions data then
      collectQualifying libs grantOnAnySubmission conditions (qualifying.insert discordId) rows
    else collectQualifying libs grantOnAnySubmission conditions qualifying rows

def queryQualifying (libs : Libs) (formId : Text) (optoutIds : List Text)
    (grantOnAnySubmission : Bool) (conditions : List Condition) (limit : Option Nat) :
    SyncM (List Text) := do
  let rows ← ask (.selectCandidates formId optoutIds)
  let ids := (collectQualifying libs grantOnAnySubmission conditions .empty rows).toList
  pure (match limit with
    | some n => ids.take n
    | none => ids)

/-- An unconfigured link grants nobody: the list and the mirror are emptied. -/
def drainLink (guildId roleId apiToken : Text) : SyncM Unit := do
  match ← attempt (.uploadUsers guildId roleId [] apiToken) with
  | .ok _ => ask (.deleteAssignments guildId roleId)
  | .error .roleLinkNotFound => deleteOrphanRoleLink guildId roleId
  | .error .roleLinkDisabled => pure ()
  | .error .removalHeld => recheckHeld guildId roleId
  | .error e => throw e

/-- The upload of a set capped to the limit that RoleLogic reported. -/
def uploadCapped (libs : Libs) (guildId roleId apiToken formId : Text) (optoutIds : List Text)
    (grantAny : Bool) (conditions : List Condition) (limit : Nat) : SyncM Unit := do
  let capped ← queryQualifying libs formId optoutIds grantAny conditions (some limit)
  match ← attempt (.uploadUsers guildId roleId capped apiToken) with
  | .ok _ => ask (.replaceAssignments guildId roleId capped)
  | .error .roleLinkNotFound => deleteOrphanRoleLink guildId roleId
  | .error .roleLinkDisabled => pure ()
  | .error .removalHeld => recheckHeld guildId roleId
  | .error e => throw e

/-- The part of `sync_for_role_link` for a configured link. -/
def syncConfigured (libs : Libs) (guildId roleId apiToken formId : Text) (grantAny : Bool)
    (conditions : List Condition) : SyncM Unit := do
  let optoutIds ← ask (.fetchGuildOptoutIds guildId)
  let qualifyingIds ← queryQualifying libs formId optoutIds grantAny conditions none
  let current ← ask (.selectAssigned guildId roleId)
  if current.insertionSort (· ≤ ·) = qualifyingIds then pure ()
  else do
    match ← attempt (.uploadUsers guildId roleId qualifyingIds apiToken) with
    | .ok _ => ask (.replaceAssignments guildId roleId qualifyingIds)
    | .error .roleLinkNotFound => deleteOrphanRoleLink guildId roleId
    | .error .roleLinkDisabled => pure ()
    | .error .removalHeld => recheckHeld guildId roleId
    | .error (.userLimitReached limit) =>
      uploadCapped libs guildId roleId apiToken formId optoutIds grantAny conditions limit
    | .error e => throw e

def syncForRoleLink (libs : Libs) (guildId roleId : Text) : SyncM Unit := do
  match ← ask (.selectLink guildId roleId) with
  | none => pure ()
  | some link =>
    match link.formId with
    | none => pure ()
    | some formId =>
      let conditions := conditionsOf link.conditions
      if !link.grantOnAnySubmission && conditions.isEmpty then
        drainLink guildId roleId link.apiToken
      else
        syncConfigured libs guildId roleId link.apiToken formId link.grantOnAnySubmission conditions

end FormRespondentRole
