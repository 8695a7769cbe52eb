import FormRespondentRole.SyncAgreement

/-!
# Damaged conditions

Both syncs read the stored conditions of a link one by one, drop those that do not deserialise, and
evaluate what is left.  A list with an unreadable element therefore matches whoever meets its
readable remainder.
-/

namespace FormRespondentRole

open Foundations

/-- Some element of the stored list does not deserialise. -/
def Damaged (conditions : Value) : Prop := ∃ a, conditions.asArray = some a ∧
    ∃ v ∈ a, Condition.fromValue v = none

/-- A link and a response to its form. -/
structure LinkedResponse where
  link : RoleLink
  response : FormResponse
  bound : link.formId = some response.formId
  sameGuild : response.guildId = link.guildId
  member : response.discordId ≠ []

namespace LinkedResponse

variable (p : LinkedResponse)

/-- Nothing but the link and the response; nobody holds the role, and nobody has opted out. -/
def world : World where
  forms := []
  roleLinks := [p.link]
  formResponses := [p.response]
  roleAssignments := []
  roleLogic := []
  optouts _ := []
  userGuilds _ _ := []

private theorem world_sound : p.world.Sound p.link where
  links_nodup := List.nodup_singleton _
  responses_guild row hrow _ := by
    rw [List.mem_singleton.1 hrow]
    exact p.sameGuild
  responses_member row hrow := by
    rw [List.mem_singleton.1 hrow]
    exact p.member

/-- The run gives the member the role for the response. -/
def Qualifies (libs : Libs) (run : SyncRun) : Prop :=
  ((run.program libs).run.run serve p.world).2.granted p.link.key p.response.discordId = true

/-- Both syncs qualify a response by one evaluation of the readable conditions. -/
theorem qualifies_iff {libs : Libs} {run : SyncRun}
    (htouch : run.Touches p.link.key p.response.discordId) :
    p.Qualifies libs run ↔
      evaluate libs p.link.grantOnAnySubmission (conditionsOf p.link.conditions) p.response.data =
        true := by
  have hsettles := run_settles libs p.bound htouch p.world_sound (List.mem_singleton_self _) rfl
  rw [Qualifies, hsettles]
  simp [World.desired, world, p.bound]

end LinkedResponse

private theorem evaluate_eq_true_iff {libs : Libs} {grantAny : Bool} {conditions : List Condition}
    {data : ResponseEvalData} :
    evaluate libs grantAny conditions data = true ↔
      grantAny = true ∨ conditions ≠ [] ∧ ∀ c ∈ conditions, evaluateSingle libs c data = true := by
  cases grantAny with
  | true => simp [evaluate]
  | false => cases conditions <;> simp [evaluate]

/-- The two syncs, of the member and of the link. -/
def LinkedResponse.runs (p : LinkedResponse) (schedule : Nat → Nat) : List SyncRun :=
  [.player p.response.discordId schedule, .roleLink p.link.guildId p.link.roleId]

/-- A list with an unreadable element lets both syncs qualify a response only through a grant on any
submission just when no element is readable, or the response fails one that is. -/
theorem damaged_conditions_iff (libs : Libs) (p : LinkedResponse) (schedule : Nat → Nat) :
    (Damaged p.link.conditions → ∀ run ∈ p.runs schedule, p.Qualifies libs run →
      p.link.grantOnAnySubmission = true) ↔
      (Damaged p.link.conditions → p.link.grantOnAnySubmission = true ∨
        conditionsOf p.link.conditions = [] ∨
        ∃ c ∈ conditionsOf p.link.conditions, evaluateSingle libs c p.response.data = false) := by
  have htouch : ∀ run ∈ p.runs schedule, run.Touches p.link.key p.response.discordId := by
    simp only [LinkedResponse.runs, List.forall_mem_cons, List.not_mem_nil, false_implies,
      implies_true, and_true]
    exact ⟨rfl, rfl⟩
  refine imp_congr_right fun _ => ?_
  have hruns : (∀ run ∈ p.runs schedule, p.Qualifies libs run →
    p.link.grantOnAnySubmission = true) ↔
      (evaluate libs p.link.grantOnAnySubmission (conditionsOf p.link.conditions) p.response.data =
        true →
        p.link.grantOnAnySubmission = true) := by
    constructor
    · exact fun h heval =>
        h _ List.mem_cons_self ((p.qualifies_iff (htouch _ List.mem_cons_self)).2 heval)
    · exact fun h run hrun hqualifies => h ((p.qualifies_iff (htouch run hrun)).1 hqualifies)
  rw [hruns, evaluate_eq_true_iff]
  cases p.link.grantOnAnySubmission with
  | true => simp
  | false => simp [or_iff_not_imp_left]

/-- The answer `yes` to the question `q`, and a link whose second condition is not one. -/
def halfReadable : LinkedResponse where
  link :=
    { guildId := "guild".toList
      roleId := "role".toList
      apiToken := "token".toList
      formId := some "form".toList
      conditions := .array [(Condition.mk (.question "q".toList) .eq (.str "yes") none).toValue,
        .str "?"] }
  response :=
    { id := 1
      formId := "form".toList
      guildId := "guild".toList
      discordId := "ann".toList
      answers := .object [("q".toList, .str "yes")] }
  bound := rfl
  sameGuild := rfl
  member := by decide

/-- The readable condition alone decides. -/
theorem not_damaged_conditions : ¬∀ (libs : Libs) (p : LinkedResponse) (schedule : Nat → Nat),
    Damaged p.link.conditions → ∀ run ∈ p.runs schedule, p.Qualifies libs run →
      p.link.grantOnAnySubmission = true := by
  intro h
  have hdamaged : Damaged halfReadable.link.conditions :=
    ⟨_, rfl, .str "?", List.mem_cons_of_mem _ List.mem_cons_self, rfl⟩
  have htouch : (SyncRun.player "ann".toList fun _ => 0).Touches halfReadable.link.key
    halfReadable.response.discordId := rfl
  have hqualifies : halfReadable.Qualifies plainLibs (.player "ann".toList fun _ => 0) :=
    (halfReadable.qualifies_iff htouch).2 (by decide)
  cases h plainLibs halfReadable (fun _ => 0) hdamaged _ List.mem_cons_self hqualifies

end FormRespondentRole
