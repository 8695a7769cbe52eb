import FormRespondentRole.SyncPaths

/-!
# The two sync paths agree

Sync runs that do not overlap, of any members and links and in any order, move every pair of a link
and a member at most once, and leave every pair they touch where the link's conditions put
it. -/

namespace FormRespondentRole

open Foundations

/-- One run of the sync engine; `schedule` is the order in which a per-player sync steps its
concurrent actions. -/
inductive SyncRun
  | player (discordId : Text) (schedule : Nat → Nat)
  | roleLink (guildId roleId : Text)

namespace SyncRun

def program (libs : Libs) : SyncRun → SyncM Unit
  | player discordId schedule => syncForPlayer libs schedule discordId
  | roleLink guildId roleId => syncForRoleLink libs guildId roleId

/-- The run is of this link or of this member. -/
def Touches (k : LinkKey) (d : Text) : SyncRun → Prop
  | player u _ => u = d
  | roleLink g r => (g, r) = k

instance (k : LinkKey) (d : Text) : DecidablePred (Touches k d)
  | player u _ => inferInstanceAs (Decidable (u = d))
  | roleLink g r => inferInstanceAs (Decidable ((g, r) = k))

theorem untouched (libs : Libs) {run : SyncRun} {k : LinkKey} {d : Text} (h : ¬ run.Touches k d)
    (w : World) :
    Syncs Config (Untouched k d) (run.program libs) (fun _ _ => True) w := by
  cases run with
  | player u schedule => exact syncForPlayer_untouched libs schedule h k w
  | roleLink g r => exact syncForRoleLink_untouched libs h d w

theorem settles {libs : Libs} {run : SyncRun} {l : RoleLink} {d : Text} (h : run.Touches l.key d)
    {owed : World → Prop} (howed : ∀ w w', World.Frame w w' → owed w → owed w') {formId : Text}
    (hform : l.formId = some formId) {w : World} (hsound : w.Sound l) (hl : l ∈ w.roleLinks)
    (hagree : w.mirrored l.key d = w.granted l.key d) :
    Syncs (Rely libs l d owed) (Toward libs l d owed) (run.program libs)
    (fun _ t => Settled libs l d owed t) w := by
  cases run with
  | player u schedule =>
    cases h
    exact syncForPlayer_settles howed schedule hform hsound hl hagree
  | roleLink g r =>
    obtain ⟨rfl, rfl⟩ := Prod.mk.inj h
    exact syncForRoleLink_settles howed hform hsound hl hagree

end SyncRun

/-! ### Sequences of runs -/

/-- The world after the runs, one after the other. -/
def runAll (libs : Libs) : List SyncRun → World → World
  | [], w => w
  | run :: runs, w => runAll libs runs ((run.program libs).run.run serve w).2

/-- The worlds after each call of the runs, in order. -/
def visitsAll (libs : Libs) : List SyncRun → World → List World
  | [], _ => []
  | run :: runs, w =>
    (run.program libs).run.visits serve w ++ visitsAll libs runs
      ((run.program libs).run.run serve w).2

/-- How often a bit of the world changes along a sequence of worlds. -/
def changes (bit : World → Bool) : List World → Nat
  | w :: w' :: ws => (if bit w = bit w' then 0 else 1) + changes bit (w' :: ws)
  | _ => 0

/-- A state in which every link is bound to a form of its guild and the mirror equals RoleLogic's
lists. -/
structure World.Steady (w : World) : Prop extends w.Consistent where
  links_bound : ∀ l ∈ w.roleLinks, w.Binds l
  agree : ∀ l ∈ w.roleLinks, ∀ d, w.mirrored l.key d = w.granted l.key d

private theorem changes_le (bit q : World → Bool) {w : World} {ws : List World}
    (h : List.IsChain (fun s t => (bit t = bit s ∨ bit t = q s) ∧ q t = q s) (w :: ws)) :
    changes bit (w :: ws) ≤ if bit w = q w then 0 else 1 := by
  induction ws generalizing w with
  | nil => exact Nat.zero_le _
  | cons w' ws ih =>
    obtain ⟨⟨hstep, hq⟩, htail⟩ := List.isChain_cons_cons.1 h
    have hih := ih htail
    rw [changes]
    rw [hq] at hih
    rcases hstep with heq | hto
    · rw [if_pos heq.symm, Nat.zero_add]
      rwa [heq] at hih
    · rw [if_pos hto] at hih
      split
      · rename_i hsame
        omega
      · rename_i hdiff
        rw [if_neg fun h => hdiff (h.trans hto.symm)]
        omega

private theorem changes_le_one (bit q : World → Bool) {w : World} {ws : List World}
    (h : List.IsChain (fun s t => (bit t = bit s ∨ bit t = q s) ∧ q t = q s) (w :: ws)) :
    changes bit (w :: ws) ≤ 1 := by
  have hle := changes_le bit q h
  split at hle <;> omega

section

variable (libs : Libs) {l : RoleLink} {d : Text}

/-- No sync is owed: the responses, the links and the opt-outs are held fixed. -/
private def nothingOwed (_ : World) : Prop := False

/-- One run, seen from the pair: it moves the pair towards where it should be, keeps mirror and list
in agreement, and takes the pair all the way when it touches it. -/
private theorem run_meets {formId : Text} (hform : l.formId = some formId) (run : SyncRun)
    {w : World} (hsound : w.Sound l) (hl : l ∈ w.roleLinks)
    (hagree : w.mirrored l.key d = w.granted l.key d) :
    ∃ post, (run.program libs).run.Meets serve Eq (Toward libs l d nothingOwed) post w ∧
      let t := ((run.program libs).run.run serve w).2
      t.mirrored l.key d = t.granted l.key d ∧
        (w.mirrored l.key d = w.desired libs l d ∨ run.Touches l.key d →
          t.mirrored l.key d = w.desired libs l d) := by
  by_cases htouch : run.Touches l.key d
  · have hsettles : Syncs (Rely libs l d nothingOwed) (Toward libs l d nothingOwed)
      (run.program libs)
        (fun _ t => Settled libs l d nothingOwed t) w :=
      SyncRun.settles htouch (fun _ _ _ h => h) hform hsound hl hagree
    have h := Program.Meets.mono (fun s t (h : s = t) => h ▸ Rely.refl s) (fun _ _ h => h)
      (fun _ _ h => h) hsettles
    refine ⟨_, h, ?_⟩
    obtain ⟨-, -, hagree', hsettled⟩ := h.run_post
    have hframe := h.run_rel World.Frame.refl (fun _ _ _ => World.Frame.trans)
      (fun _ _ h => h.frame)
    refine ⟨hagree', fun _ => ?_⟩
    rw [← hframe.desired libs l d]
    exact hsettled.resolve_left id
  · have h := Program.Meets.mono (fun s t (h : s = t) => h ▸ Config.refl s) (fun _ _ h => h)
      (fun _ _ h => h)
      (SyncRun.untouched libs htouch w)
    refine ⟨_, h.mono (fun _ _ h => h) (fun _ _ h => h.toward) (fun _ _ h => h), ?_⟩
    have hsame := h.run_rel Untouched.refl (fun _ _ _ => Untouched.trans) (fun _ _ h => h)
    refine ⟨hsame.mirrored.trans (hagree.trans hsame.granted.symm), fun h =>
      hsame.mirrored.trans ?_⟩
    exact h.resolve_right htouch

/-- A run of the link or of the member gives the role just to those in the desired set. -/
theorem run_settles {formId : Text} (hform : l.formId = some formId) {run : SyncRun}
    (htouch : run.Touches l.key d) {w : World} (hsound : w.Sound l) (hl : l ∈ w.roleLinks)
    (hagree : w.mirrored l.key d = w.granted l.key d) :
    ((run.program libs).run.run serve w).2.granted l.key d = w.desired libs l d := by
  obtain ⟨-, -, hagree', hset⟩ := run_meets libs hform run hsound hl hagree
  exact hagree'.symm.trans (hset (Or.inr htouch))

private theorem runs_agree {formId : Text} (hform : l.formId = some formId) (runs : List SyncRun)
    {w : World} (hsound : w.Sound l) (hl : l ∈ w.roleLinks)
    (hagree : w.mirrored l.key d = w.granted l.key d) :
    List.IsChain (Toward libs l d nothingOwed) (w :: visitsAll libs runs w) ∧
      (runAll libs runs w).mirrored l.key d = (runAll libs runs w).granted l.key d ∧
      (w.mirrored l.key d = w.desired libs l d ∨ (∃ run ∈ runs, run.Touches l.key d) →
        (runAll libs runs w).mirrored l.key d = w.desired libs l d) := by
  induction runs generalizing w with
  | nil =>
    refine ⟨List.isChain_singleton w, hagree, ?_⟩
    rintro (h | ⟨run, hrun, -⟩)
    · exact h
    · exact absurd hrun List.not_mem_nil
  | cons run runs ih =>
    obtain ⟨post, hmeets, hagree₁, hset⟩ := run_meets libs hform run hsound hl hagree
    have hframe := hmeets.run_rel World.Frame.refl (fun _ _ _ => World.Frame.trans)
      (fun _ _ h => h.frame)
    obtain ⟨hchain, hagree₂, hih⟩ := ih (hframe.sound hsound) (hframe.roleLinks ▸ hl) hagree₁
    rw [hframe.desired libs l d] at hih
    refine ⟨hmeets.visits_chain hchain, hagree₂, ?_⟩
    rintro (h | ⟨run', hrun', htouch⟩)
    · exact hih (Or.inl (hset (Or.inl h)))
    · rcases List.mem_cons.1 hrun' with rfl | hrun'
      · exact hih (Or.inl (hset (Or.inr htouch)))
      · exact hih (Or.inr ⟨run', hrun', htouch⟩)

end

/-- Runs of the two syncs that do not overlap move a pair of a link and a member at most once, in
the mirror and in RoleLogic's list, and a pair that some run touches ends in both exactly when the
member is in the desired set. -/
theorem syncs_agree (libs : Libs) {w : World} (hw : w.Steady) (runs : List SyncRun) {l : RoleLink}
    (hl : l ∈ w.roleLinks) (d : Text) :
    changes (·.mirrored l.key d) (w :: visitsAll libs runs w) ≤ 1 ∧
      changes (·.granted l.key d) (w :: visitsAll libs runs w) ≤ 1 ∧
      ((∃ run ∈ runs, run.Touches l.key d) →
        (runAll libs runs w).mirrored l.key d = w.desired libs l d ∧
          (runAll libs runs w).granted l.key d = w.desired libs l d) := by
  obtain ⟨f, -, hform, -⟩ := hw.links_bound l hl
  obtain ⟨hchain, hagree, hset⟩ :=
    runs_agree libs hform runs (hw.toConsistent.sound (hw.links_bound l hl)) hl
    (hw.agree l hl d)
  refine ⟨?_, ?_, fun htouch => ?_⟩
  · refine changes_le_one _ (·.desired libs l d) (hchain.imp fun s t h =>
      ⟨?_, h.frame.desired libs l d⟩)
    exact h.mirrored.imp_right fun h => h.resolve_left id
  · refine changes_le_one _ (·.desired libs l d) (hchain.imp fun s t h =>
      ⟨?_, h.frame.desired libs l d⟩)
    exact h.granted.imp_right fun h => h.resolve_left id
  · have hmirrored := hset (Or.inr htouch)
    exact ⟨hmirrored, hagree.symm.trans hmirrored⟩

/-! ### A guild with one link -/

/-- A form of the guild. -/
def surveyForm : Form where
  id := 1
  guildId := "guild".toList
  slug := "survey".toList
  title := "Survey".toList
  schema := .null

/-- A link that grants the role on any submission of the form. -/
def surveyLink : RoleLink where
  guildId := "guild".toList
  roleId := "role".toList
  apiToken := "token".toList
  formId := some surveyForm.id.text
  grantOnAnySubmission := true

def surveyResponse (discordId : Text) : FormResponse where
  id := 1
  formId := surveyForm.id.text
  guildId := "guild".toList
  discordId := discordId
  answers := .object []

/-- No date or pattern of the survey needs the third-party parsers. -/
def surveyLibs : Libs where
  floatText _ := []
  regexBuild _ := none
  parseFromRfc3339 _ := none
  parseDate _ := none

/-- One member has responded, and another still holds the role for a response that is gone. -/
def surveyWorld : World where
  forms := [surveyForm]
  roleLinks := [surveyLink]
  formResponses := [surveyResponse "ann".toList]
  roleAssignments := [⟨"guild".toList, "role".toList, "bob".toList⟩]
  roleLogic := [⟨"guild".toList, "role".toList, "bob".toList⟩]
  optouts _ := []
  userGuilds _ _ := []

theorem surveyWorld_steady : surveyWorld.Steady where
  links_nodup := List.nodup_singleton _
  links_bound := by
    intro l hl
    rw [List.mem_singleton.1 hl]
    exact ⟨surveyForm, List.mem_singleton_self _, rfl, rfl⟩
  responses_form := by
    intro row hrow f hf _
    rw [List.mem_singleton.1 hrow, List.mem_singleton.1 hf]
    rfl
  responses_member := by
    intro row hrow
    rw [List.mem_singleton.1 hrow]
    decide
  agree _ _ _ := rfl

theorem syncs_agree_survey :
    (runAll surveyLibs [.roleLink "guild".toList "role".toList, .player "bob".toList fun _ =>
      0] surveyWorld).mirrored
      surveyLink.key "bob".toList = surveyWorld.desired surveyLibs surveyLink "bob".toList :=
  ((syncs_agree surveyLibs surveyWorld_steady _
    (List.mem_singleton_self surveyLink) "bob".toList).2.2 (by decide)).1

example : surveyWorld.desired surveyLibs surveyLink "bob".toList = false := by decide

end FormRespondentRole
