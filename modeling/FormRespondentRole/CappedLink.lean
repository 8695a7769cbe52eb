import FormRespondentRole.BulkUpload

/-!
# A link that RoleLogic caps

RoleLogic limits the number of members of a link.  A bulk sync of a link with more qualifying
members than that is refused, and uploads the first members of the sorted list instead; the
per-player syncs go on trying to add the members that were cut off.  Once a bulk sync has run,
neither changes the list or the mirror again (`capped_link_stable`).
-/

namespace FormRespondentRole

open Foundations

/-! ### RoleLogic with limits -/

/-- RoleLogic's list of a link. -/
def World.listed (w : World) (k : LinkKey) : List Text :=
  (w.roleLogic.filter (·.key = k)).map (·.discordId)

/-- Larger sets than this go up in chunks. -/
def putMaxUsers : Nat := 100000

/-- The limits of the links, where they have one, and the text of the error that `commit_upload`
makes of a refusal. -/
structure Limits where
  userLimit : LinkKey → Option Nat
  commitRefused : Text

/-- Serves every call with success except for a set over the limit and an add to a full list.  Only
`PUT /users` has its refusal read for the limit: a commit of chunks fails with RoleLogic's own
text. -/
def serveLimited (limits : Limits) (c : SyncCall) (w : World) : Except AppError c.Answer × World :=
  match c with
  | .uploadUsers guildId roleId userIds token =>
    match (limits.userLimit (guildId, roleId)).filter (· < userIds.length) with
    | some limit =>
      (.error (if userIds.length ≤ putMaxUsers then .userLimitReached limit
        else .roleLogic limits.commitRefused), w)
    | none => serve (.uploadUsers guildId roleId userIds token) w
  | .addUser guildId roleId userId token =>
    match (limits.userLimit (guildId, roleId)).filter (· ≤ (w.listed (guildId, roleId)).length) with
    | some limit => (.error (.userLimitReached limit), w)
    | none => serve (.addUser guildId roleId userId token) w
  | c => serve c w

/-- An error that RoleLogic's limits give rise to. -/
def LimitError : AppError → Prop
  | .userLimitReached _ | .roleLogic _ => True
  | _ => False

/-- A call succeeds, or it is refused for a limit and changes nothing. -/
theorem serveLimited_cases (limits : Limits) (c : SyncCall) (w : World) :
    serveLimited limits c w = serve c w ∨ ∃ e, LimitError e ∧
      serveLimited limits c w = (.error e, w) := by
  cases c with
  | uploadUsers g r ids token =>
    rw [serveLimited]
    split
    · refine Or.inr ⟨_, ?_, rfl⟩
      split <;> trivial
    · exact Or.inl rfl
  | addUser g r u token =>
    rw [serveLimited]
    split
    · rename_i limit _
      exact Or.inr ⟨.userLimitReached limit, trivial, rfl⟩
    · exact Or.inl rfl
  | _ => exact Or.inl rfl

/-! ### Calls of other links -/

/-- The calls that may change the rows of a link. -/
def SyncCall.Names (k : LinkKey) : SyncCall → Prop
  | insertAssignment g r _ | deleteAssignment g r _ | addUser g r _ _ | removeUser g r _ _
  | deleteAssignments g r
  | replaceAssignments g r _ | uploadUsers g r _ _ | deleteRoleLink g r => (g, r) = k
  | _ => False

private theorem filter_insertRow {rows : List Assignment} {a : Assignment} {k : LinkKey}
    (h : a.key ≠ k) :
    (insertRow a rows).filter (·.key = k) = rows.filter (·.key = k) := by
  unfold insertRow
  split
  · rfl
  · exact List.filter_cons_of_neg (by simpa using h)

private theorem filter_removeRow {rows : List Assignment} {a : Assignment} {k : LinkKey}
    (h : a.key ≠ k) :
    (removeRow a rows).filter (·.key = k) = rows.filter (·.key = k) := by
  rw [removeRow, List.filter_filter]
  refine List.filter_congr fun b _ => ?_
  by_cases hb : b.key = k
  · have hne : b ≠ a := fun hab => h (hab ▸ hb)
    simp [hb, hne]
  · simp [hb]

private theorem filter_replaceRows {rows : List Assignment} {ids : List Text} {k' k : LinkKey}
    (h : k' ≠ k) :
    (replaceRows k' ids rows).filter (·.key = k) = rows.filter (·.key = k) := by
  have hnew : (ids.map fun d => (⟨k'.1, k'.2, d⟩ : Assignment)).filter (·.key = k) = [] := by
    refine List.filter_eq_nil_iff.2 fun a ha => ?_
    obtain ⟨d, -, rfl⟩ := List.mem_map.1 ha
    simpa [Assignment.key] using h
  rw [replaceRows, List.filter_append, hnew, List.nil_append, List.filter_filter]
  refine List.filter_congr fun b _ => ?_
  by_cases hb : b.key = k
  · simp [hb, Ne.symm h]
  · simp [hb]

private theorem effect_unnamed {c : SyncCall} {k : LinkKey} (hb : c.Benign) (hc : ¬ c.Names k)
    (w : World) :
    (w.effect c).assigned k = w.assigned k ∧ (w.effect c).listed k = w.listed k := by
  unfold World.assigned World.listed
  cases c with
  | insertAssignment g r u => exact ⟨congrArg _ (filter_insertRow hc), rfl⟩
  | deleteAssignment g r u => exact ⟨congrArg _ (filter_removeRow hc), rfl⟩
  | deleteAssignments g r => exact ⟨congrArg _ (filter_replaceRows hc), rfl⟩
  | replaceAssignments g r ids => exact ⟨congrArg _ (filter_replaceRows hc), rfl⟩
  | addUser g r u token => exact ⟨rfl, congrArg _ (filter_insertRow hc)⟩
  | removeUser g r u token => exact ⟨rfl, congrArg _ (filter_removeRow hc)⟩
  | uploadUsers g r ids token => exact ⟨rfl, congrArg _ (filter_replaceRows hc)⟩
  | deleteRoleLink g r => exact hb.elim
  | enqueueConfigSyncUnlessQueued g r n => exact hb.elim
  | _ => exact ⟨rfl, rfl⟩

/-! ### The capped state -/

section

variable {libs : Libs} {limits : Limits} {l : RoleLink} {formId : Text} {optouts q : List Text}
  {n : Nat}

/-- The link `l` and what it should hold: `q` qualifies, and RoleLogic takes `n` of them in one
request. -/
structure Oversubscribed (libs : Libs) (limits : Limits) (l : RoleLink) (formId : Text)
    (q : List Text) (n : Nat) (w : World) : Prop where
  keys : (w.roleLinks.map RoleLink.key).Nodup
  link : l ∈ w.roleLinks
  form : l.formId = some formId
  qualifying : QualifyingList libs w l formId (w.optouts l.guildId) q
  limit : limits.userLimit l.key = some n
  long : n < q.length
  put : q.length ≤ putMaxUsers

/-- Mirror and list are the first `n` members. -/
structure CutOff (libs : Libs) (limits : Limits) (l : RoleLink) (formId : Text) (q : List Text)
    (n : Nat) (w : World) : Prop extends Oversubscribed libs limits l formId q n w where
  listed : w.listed l.key = q.take n
  assigned : w.assigned l.key = q.take n

theorem Oversubscribed.frame {w w' : World} (h : World.Frame w w')
    (hw : Oversubscribed libs limits l formId q n w) :
    Oversubscribed libs limits l formId q n w' where
  keys := h.roleLinks ▸ hw.keys
  link := h.roleLinks ▸ hw.link
  form := hw.form
  qualifying := by
    refine ⟨hw.qualifying.sorted, fun d => ?_⟩
    rw [h.formResponses, h.optouts]
    exact hw.qualifying.mem d
  limit := hw.limit
  long := hw.long
  put := hw.put

/-- A call that names another link, or none, keeps the state. -/
theorem CutOff.step {w : World} {c : SyncCall} (hb : c.Benign) (hc : ¬ c.Names l.key)
    (hw : CutOff libs limits l formId q n w) :
    CutOff libs limits l formId q n (serveLimited limits c w).2 := by
  rcases serveLimited_cases limits c w with h | ⟨e, -, h⟩
  · rw [h]
    obtain ⟨hassigned, hlisted⟩ := effect_unnamed hb hc w
    exact ⟨hw.toOversubscribed.frame (SyncCall.effect_frame hb w), hlisted.trans hw.listed,
      hassigned.trans hw.assigned⟩
  · rw [h]
    exact hw

/-- An add to the full list is refused. -/
theorem CutOff.addUser {w : World} (hw : CutOff libs limits l formId q n w) (u token : Text) :
    serveLimited limits (.addUser l.guildId l.roleId u token) w =
      (.error (.userLimitReached n), w) := by
  have hfull : n ≤ (w.listed l.key).length := by
    rw [hw.listed, List.length_take]
    exact le_min le_rfl hw.long.le
  have hfilter : (limits.userLimit (l.guildId, l.roleId)).filter
      (· ≤ (w.listed (l.guildId, l.roleId)).length) = some n := by
    rw [← RoleLink.key, hw.limit]
    exact Option.filter_some_pos (decide_eq_true hfull)
  rw [serveLimited, hfilter]

/-! ### The bulk sync of the link -/

private theorem run_ask {β : Type} {c : SyncCall} {f : c.Answer → SyncM β} {w w' : World}
    {answer : c.Answer} (h : serveLimited limits c w = (.ok answer, w')) :
    (ask c >>= f).run.run (serveLimited limits) w = (f answer).run.run
    (serveLimited limits) w' := by
  rw [Program.run_ask_bind, Program.run_call, h]

private theorem run_attempt {β : Type} {c : SyncCall} {f : Except AppError c.Answer → SyncM β}
    {w w' : World} {answer : Except AppError c.Answer}
    (h : serveLimited limits c w = (answer, w')) :
    (attempt c >>= f).run.run (serveLimited limits) w = (f answer).run.run
    (serveLimited limits) w' := by
  rw [Program.run_attempt_bind, Program.run_call, h]

private theorem run_query {β : Type} {optouts : List Text} {grantAny : Bool}
    {conditions : List Condition} {f : List Text → SyncM β} {w : World} :
    (queryQualifying libs formId optouts grantAny conditions none >>= f).run.run
    (serveLimited limits) w =
      (f (collectQualifying libs grantAny conditions .empty
        (w.answer (.selectCandidates formId optouts))).toList).run.run
        (serveLimited limits) w := rfl

private theorem run_query_capped {β : Type} {optouts : List Text} {grantAny : Bool}
    {conditions : List Condition} {limit : Nat} {f : List Text → SyncM β} {w : World} :
    (queryQualifying libs formId optouts grantAny conditions (some limit) >>= f).run.run
    (serveLimited limits) w =
      (f ((collectQualifying libs grantAny conditions .empty
        (w.answer (.selectCandidates formId optouts))).toList.take limit)).run.run
          (serveLimited limits) w := rfl

private theorem Oversubscribed.configured {w : World}
    (hw : Oversubscribed libs limits l formId q n w) :
    (!l.grantOnAnySubmission && (conditionsOf l.conditions).isEmpty) = false := by
  by_contra h
  rw [Bool.not_eq_false, Bool.and_eq_true, Bool.not_eq_true', List.isEmpty_iff] at h
  have hnil : q = [] := hw.qualifying.unique (qualifyingList_unconfigured h.1 h.2)
  have hlong := hw.long
  rw [hnil, List.length_nil] at hlong
  omega

private theorem Oversubscribed.collect {w : World}
    (hw : Oversubscribed libs limits l formId q n w) :
    (collectQualifying libs l.grantOnAnySubmission (conditionsOf l.conditions) .empty
      (w.answer (.selectCandidates formId (w.optouts l.guildId)))).toList = q :=
  (qualifyingList_collect libs w l formId (w.optouts l.guildId)).unique hw.qualifying

/-- The whole set is refused, and its first `n` members are taken. -/
theorem Oversubscribed.uploads {w : World} (hw : Oversubscribed libs limits l formId q n w) :
    serveLimited limits (.uploadUsers l.guildId l.roleId q l.apiToken) w =
      (.error (.userLimitReached n), w) ∧
      serveLimited limits (.uploadUsers l.guildId l.roleId (q.take n) l.apiToken) w =
        serve (.uploadUsers l.guildId l.roleId (q.take n) l.apiToken) w := by
  have hlimit : limits.userLimit (l.guildId, l.roleId) = some n := hw.limit
  constructor
  · have hfilter : (some n).filter (· < q.length) = some n :=
      Option.filter_some_pos (decide_eq_true hw.long)
    rw [serveLimited, hlimit, hfilter]
    simp only [if_pos hw.put]
  · have hshort : ¬ n < (q.take n).length := by
      rw [List.length_take]
      exact not_lt_of_ge (min_le_left n q.length)
    have hfilter : (some n).filter (· < (q.take n).length) = none :=
      Option.filter_some_neg (decide_eq_false hshort)
    rw [serveLimited, hlimit, hfilter]

/-- A bulk sync of the link succeeds and leaves the first `n` members in mirror and list. -/
theorem syncForRoleLink_cutsOff {w : World} (hw : Oversubscribed libs limits l formId q n w)
    (hshort : (w.assigned l.key).length < q.length) :
    ((syncForRoleLink libs l.guildId l.roleId).run.run (serveLimited limits) w).1 = .ok () ∧
      CutOff libs limits l formId q n
        ((syncForRoleLink libs l.guildId l.roleId).run.run (serveLimited limits) w).2 := by
  have hfind : serveLimited limits (.selectLink l.guildId l.roleId) w = (.ok (some l), w) :=
    congrArg (fun link => (Except.ok link, w)) (World.find_link hw.keys hw.link)
  have hlookup : serveLimited limits (.fetchGuildOptoutIds l.guildId) w =
    (.ok (w.optouts l.guildId), w) := rfl
  have hcurrent : serveLimited limits (.selectAssigned l.guildId l.roleId) w =
    (.ok (w.assigned l.key), w) := rfl
  have hskip : ¬ (w.assigned l.key).insertionSort (· ≤ ·) = q := by
    intro h
    have hlen := congrArg List.length h
    rw [List.length_insertionSort] at hlen
    exact absurd hlen hshort.ne
  let w₁ := w.effect (.uploadUsers l.guildId l.roleId (q.take n) l.apiToken)
  have hrun : (syncForRoleLink libs l.guildId l.roleId).run.run (serveLimited limits) w =
      (.ok (), w₁.effect (.replaceAssignments l.guildId l.roleId (q.take n))) := by
    rw [syncForRoleLink, run_ask hfind]
    dsimp only
    rw [hw.form]
    dsimp only
    rw [if_neg (Bool.eq_false_iff.1 hw.configured), syncConfigured, run_ask hlookup, run_query,
      hw.collect,
      run_ask hcurrent, if_neg hskip, run_attempt hw.uploads.1]
    dsimp only
    rw [uploadCapped, run_query_capped, hw.collect, run_attempt hw.uploads.2]
    rfl
  rw [hrun]
  dsimp only
  have hdedup : (q.take n).dedup = q.take n :=
    ((List.take_sublist n q).nodup hw.qualifying.nodup).dedup
  have hframe : World.Frame w (w₁.effect (.replaceAssignments l.guildId l.roleId (q.take n))) :=
    (SyncCall.effect_frame (c := .uploadUsers ..) trivial w).trans
      (SyncCall.effect_frame (c := .replaceAssignments ..) trivial w₁)
  refine ⟨rfl, hw.frame hframe, ?_, members_replaceRows ..⟩
  show ((replaceRows l.key (q.take n).dedup w.roleLogic).filter (·.key = l.key)).map (·.discordId) =
    q.take n
  rw [hdedup, members_replaceRows]

/-! ### Later syncs -/

/-- Started in a cut-off state a part of a sync ends in one, and if it succeeds its result satisfies
`post`. -/
def KeepsCut (libs : Libs) (limits : Limits) (l : RoleLink) (formId : Text) (q : List Text)
    (n : Nat) {α : Type} (x : SyncM α) (post : α → Prop) : Prop :=
  ∀ w, CutOff libs limits l formId q n w →
    CutOff libs limits l formId q n (x.run.run (serveLimited limits) w).2 ∧
    ∀ a, (x.run.run (serveLimited limits) w).1 = .ok a → post a

variable {α β : Type}

theorem KeepsCut.pure {a : α} {post : α → Prop} (h : post a) :
    KeepsCut libs limits l formId q n (pure a : SyncM α) post := by
  intro w hw
  refine ⟨hw, fun b hb => ?_⟩
  cases hb
  exact h

theorem KeepsCut.throw {e : AppError} {post : α → Prop} :
    KeepsCut libs limits l formId q n (throw e : SyncM α) post :=
  fun _ hw => ⟨hw, nofun⟩

theorem KeepsCut.bind {x : SyncM α} {f : α → SyncM β} {mid : α → Prop} {post : β → Prop}
    (hx : KeepsCut libs limits l formId q n x mid)
    (hf : ∀ a, mid a → KeepsCut libs limits l formId q n (f a) post) :
    KeepsCut libs limits l formId q n (x >>= f) post := by
  intro w hw
  obtain ⟨hcut, hmid⟩ := hx w hw
  rw [Program.run_except_bind, Program.run_bind]
  cases hresult : (x.run.run (serveLimited limits) w).1 with
  | ok a => exact hf a (hmid a hresult) _ hcut
  | error e => exact ⟨hcut, nofun⟩

/-- A call that may be made of any link but `l`, with what its answers satisfy in a cut-off
state. -/
theorem keepsCut_attempt {c : SyncCall} (hb : c.Benign) (hc : ¬ c.Names l.key)
    {p : Except AppError c.Answer → Prop} (herror : ∀ e, LimitError e → p (.error e))
    (hok : ∀ w, CutOff libs limits l formId q n w → p (.ok (w.answer c))) :
    KeepsCut libs limits l formId q n (attempt c) p := by
  intro w hw
  refine ⟨hw.step hb hc, fun a ha => ?_⟩
  have ha' : (serveLimited limits c w).1 = a := Except.ok.inj ha
  rcases serveLimited_cases limits c w with h | ⟨e, he, h⟩
  · rw [h] at ha'
    exact ha' ▸ hok w hw
  · rw [h] at ha'
    exact ha' ▸ herror e he

private theorem keepsCut_ask {c : SyncCall} (hb : c.Benign) (hc : ¬ c.Names l.key)
    {p : c.Answer → Prop} (hok : ∀ w, CutOff libs limits l formId q n w → p (w.answer c)) :
    KeepsCut libs limits l formId q n (ask c) p := by
  intro w hw
  refine ⟨hw.step hb hc, fun a ha => ?_⟩
  have ha' : (serveLimited limits c w).1 = .ok a := ha
  rcases serveLimited_cases limits c w with h | ⟨e, he, h⟩
  · rw [h] at ha'
    exact Except.ok.inj ha' ▸ hok w hw
  · rw [h] at ha'
    cases ha'

/-! #### Bulk syncs of other links -/

/-- The answer is a success or a refusal for a limit. -/
private def Limited {α : Type} (answer : Except AppError α) : Prop :=
  ∀ e, answer = .error e → LimitError e

private theorem keepsCut_call {c : SyncCall} (hb : c.Benign) (hc : ¬ c.Names l.key) :
    KeepsCut libs limits l formId q n (attempt c) Limited :=
  keepsCut_attempt hb hc (fun _ he _ h => Except.error.inj h ▸ he) (fun _ _ _ h => nomatch h)

private theorem keepsCut_statement {c : SyncCall} (hb : c.Benign) (hc : ¬ c.Names l.key) :
    KeepsCut libs limits l formId q n (ask c) (fun _ => True) :=
  keepsCut_ask hb hc fun _ _ => trivial

private theorem keepsCut_query {optouts : List Text} {grantAny : Bool} {conditions : List Condition}
    {limit : Option Nat} {form : Text} : KeepsCut libs limits l formId q n
    (queryQualifying libs form optouts grantAny conditions limit)
      (fun _ => True) :=
  KeepsCut.bind (keepsCut_statement (c := .selectCandidates ..) trivial id) fun _ _ =>
    KeepsCut.pure trivial

private theorem syncForRoleLink_keeps {g r : Text} (hk : (g, r) ≠ l.key) :
    KeepsCut libs limits l formId q n (syncForRoleLink libs g r) (fun _ => True) := by
  refine KeepsCut.bind (keepsCut_statement (c := .selectLink ..) trivial id) fun link _ => ?_
  split
  · exact KeepsCut.pure trivial
  split
  · exact KeepsCut.pure trivial
  dsimp only
  split
  · -- drained
    refine KeepsCut.bind (keepsCut_call (c := .uploadUsers ..) trivial hk) fun answer hanswer => ?_
    split
    · exact keepsCut_statement (c := .deleteAssignments ..) trivial hk
    · exact (hanswer _ rfl).elim
    · exact (hanswer _ rfl).elim
    · exact (hanswer _ rfl).elim
    · exact KeepsCut.throw
  · refine KeepsCut.bind (keepsCut_statement (c := .fetchGuildOptoutIds ..) trivial id)
      fun optouts _ => ?_
    refine KeepsCut.bind keepsCut_query fun ids _ => ?_
    refine KeepsCut.bind (keepsCut_statement (c := .selectAssigned ..) trivial id) fun current _ =>
      ?_
    split
    · exact KeepsCut.pure trivial
    refine KeepsCut.bind (keepsCut_call (c := .uploadUsers ..) trivial hk) fun answer hanswer => ?_
    split
    · exact keepsCut_statement (c := .replaceAssignments ..) trivial hk
    · exact (hanswer _ rfl).elim
    · exact (hanswer _ rfl).elim
    · exact (hanswer _ rfl).elim
    · refine KeepsCut.bind keepsCut_query fun capped _ => ?_
      refine KeepsCut.bind (keepsCut_call (c := .uploadUsers ..) trivial hk) fun answer' hanswer' =>
        ?_
      split
      · exact keepsCut_statement (c := .replaceAssignments ..) trivial hk
      · exact (hanswer' _ rfl).elim
      · exact (hanswer' _ rfl).elim
      · exact (hanswer' _ rfl).elim
      · exact KeepsCut.throw
    · exact KeepsCut.throw

/-! #### Per-player syncs -/

variable {d : Text}

/-- No member of `q` is found to have opted out of the link's guild. -/
private theorem vetOptouts_keeps (guilds : List Text) :
    KeepsCut libs limits l formId q n (vetOptouts d guilds) (fun r => d ∈ q → l.guildId ∉ r.1) := by
  induction guilds with
  | nil => exact KeepsCut.pure fun _ => List.not_mem_nil
  | cons guild guilds ih =>
    refine KeepsCut.bind (keepsCut_attempt (c := .fetchGuildOptoutIds guild) trivial id
      (p := fun looked => ∀ optouts, looked = .ok optouts → guild = l.guildId → d ∈ q → d ∉ optouts)
      (fun e _ => nofun) ?_) fun looked hlooked => ?_
    · intro w hw optouts hoptouts hguild hd
      have hanswer : optouts = w.optouts guild := (Except.ok.inj hoptouts).symm
      rw [hanswer, hguild]
      exact ((hw.qualifying.mem d).1 hd).1.2
    · refine KeepsCut.bind ih ?_
      rintro ⟨optedOut, unknown⟩ hrest
      cases looked with
      | ok optouts =>
        refine KeepsCut.pure fun hd => ?_
        dsimp only
        split
        · rename_i hout
          rw [List.mem_cons, not_or]
          exact ⟨fun hguild => hlooked optouts rfl hguild.symm hd hout, hrest hd⟩
        · exact hrest hd
      | error e => exact KeepsCut.pure hrest

/-- A member of `q` qualifies for the link. -/
private theorem qualifies_keeps {optedOut : List Text} (hout : d ∈ q → l.guildId ∉ optedOut)
    (b : BoundLink) :
    KeepsCut libs limits l formId q n (qualifies libs d optedOut b)
      (fun r => b = l.toBound formId → d ∈ q → r = true) := by
  unfold qualifies
  split
  · rename_i hmem
    refine KeepsCut.pure fun hb hd => ?_
    subst hb
    exact absurd hmem (hout hd)
  · refine KeepsCut.bind (keepsCut_ask (c := .selectResponses b.formId d) trivial id
      (p := fun rows => b = l.toBound formId → d ∈ q →
        rows.any (evaluate libs b.grantOnAnySubmission (conditionsOf b.conditions)) = true) ?_)
      fun rows hrows => KeepsCut.pure hrows
    intro w hw hb hd
    subst hb
    obtain ⟨-, row, hrow, hkey, hev⟩ := (hw.qualifying.mem d).1 hd
    refine List.any_eq_true.2 ⟨row.data, ?_, hev⟩
    exact List.mem_map_of_mem (List.mem_filter.2 ⟨hrow, decide_eq_true hkey⟩)

/-- A future that cannot take anything from the link: it is not told that a link is gone, and one of
the link `l` only tries to add. -/
private def Harmless (k : LinkKey) (f : ActionFuture) : Prop :=
  match f with
  | .start (.add _) => True
  | .start (.remove b) | .store (.add b) | .store (.remove b) => b.key ≠ k
  | .dropLink _ => False

private theorem planActions_keeps {optedOut optoutUnknown : List Text}
    (hout : d ∈ q → l.guildId ∉ optedOut) {existing : List LinkKey}
    (hexisting : l.key ∈ existing → d ∈ q) {links : List BoundLink}
    (hlinks : ∀ b ∈ links, b.key = l.key → b = l.toBound formId) :
    KeepsCut libs limits l formId q n (planActions libs d optedOut optoutUnknown existing links)
      (fun actions => ∀ a ∈ actions, Harmless l.key (.start a)) := by
  induction links with
  | nil => exact KeepsCut.pure fun a ha => absurd ha List.not_mem_nil
  | cons b links ih =>
    have hrest := ih fun b' hb' => hlinks b' (List.mem_cons_of_mem _ hb')
    rw [planActions]
    split
    · exact hrest
    refine KeepsCut.bind (qualifies_keeps hout b) fun r hr =>
      KeepsCut.bind hrest fun actions hactions =>
      KeepsCut.pure fun a ha => ?_
    rcases List.mem_append.1 ha with ha | ha
    · by_cases hassigned : b.key ∈ existing
      · rw [decide_eq_true hassigned] at ha
        cases r with
        | true => exact absurd ha List.not_mem_nil
        | false =>
          obtain rfl := List.mem_singleton.1 ha
          intro hkey
          have hb := hlinks b List.mem_cons_self hkey
          exact Bool.false_ne_true (hr hb (hexisting (hkey ▸ hassigned)))
      · rw [decide_eq_false hassigned] at ha
        cases r with
        | true =>
          obtain rfl := List.mem_singleton.1 ha
          trivial
        | false => exact absurd ha List.not_mem_nil
    · exact hactions a ha

/-- An add to the full list is refused and over; every other action is of another link. -/
private theorem pollAction_keeps {f : ActionFuture} (hf : Harmless l.key f) :
    KeepsCut libs limits l formId q n (pollAction d f) (fun next => ∀ g ∈ next.toList,
      Harmless l.key g) := by
  have hdone : KeepsCut libs limits l formId q n (pure none : SyncM (Option ActionFuture))
      (fun next => ∀ g ∈ next.toList, Harmless l.key g) :=
        KeepsCut.pure fun g hg => absurd hg List.not_mem_nil
  have hgoOn : ∀ g, Harmless l.key g →
    KeepsCut libs limits l formId q n (pure (some g) : SyncM (Option ActionFuture))
      (fun next => ∀ g ∈ next.toList, Harmless l.key g) := by
    intro g hg
    refine KeepsCut.pure fun g' hg' => ?_
    obtain rfl := List.mem_singleton.1 hg'
    exact hg
  cases f with
  | start a =>
    cases a with
    | add b =>
      by_cases hkey : b.key = l.key
      · obtain ⟨hguild, hrole⟩ := Prod.mk.inj hkey
        intro w hw
        rw [pollAction, hguild, hrole, run_attempt (hw.addUser d b.apiToken)]
        exact hdone w hw
      · refine KeepsCut.bind (keepsCut_call (c := .addUser ..) trivial hkey) fun answer hanswer =>
          ?_
        split
        · exact (hanswer _ rfl).elim
        · exact hdone
        · exact hdone
        · exact hdone
        · exact hgoOn _ hkey
    | remove b =>
      refine KeepsCut.bind (keepsCut_call (c := .removeUser ..) trivial hf) fun answer hanswer => ?_
      split
      · exact (hanswer _ rfl).elim
      · exact hdone
      · exact hdone
      · exact hgoOn _ hf
  | store a =>
    cases a with
    | add b =>
      exact KeepsCut.bind (keepsCut_call (c := .insertAssignment ..) trivial hf) fun _ _ => hdone
    | remove b =>
      exact KeepsCut.bind (keepsCut_call (c := .deleteAssignment ..) trivial hf) fun _ _ => hdone
  | dropLink a => exact hf.elim

private theorem forEachConcurrent_keeps (limit : Nat) (schedule : Nat → Nat) (fuel : Nat)
    {futures : List ActionFuture} (hfutures : ∀ f ∈ futures, Harmless l.key f) :
    KeepsCut libs limits l formId q n (forEachConcurrent limit d schedule fuel futures)
    (fun _ => True) := by
  induction fuel generalizing futures with
  | zero => exact KeepsCut.pure trivial
  | succ fuel ih =>
    rw [forEachConcurrent]
    split
    · exact KeepsCut.pure trivial
    · rename_i f waiting hdrop
      have hmem : ∀ g ∈ f :: waiting, Harmless l.key g :=
        fun g hg => hfutures g (List.mem_of_mem_drop (hdrop ▸ hg))
      refine KeepsCut.bind (pollAction_keeps (hmem f List.mem_cons_self)) fun next hnext =>
        ih fun g hg => ?_
      simp only [List.mem_append] at hg
      rcases hg with (hg | hg) | hg
      · exact hfutures g (List.mem_of_mem_take hg)
      · exact hnext g hg
      · exact hmem g (List.mem_cons_of_mem _ hg)

private theorem finish_keeps (deferred : Option AppError) :
    KeepsCut libs limits l formId q n (finish deferred) (fun _ => True) := by
  cases deferred with
  | none => exact KeepsCut.pure trivial
  | some e => exact KeepsCut.throw

private theorem syncLinks_keeps (schedule : Nat → Nat) {existing : List LinkKey}
    (hexisting : l.key ∈ existing → d ∈ q) {links : List BoundLink}
    (hlinks : ∀ b ∈ links, b.key = l.key → b = l.toBound formId) :
    KeepsCut libs limits l formId q n (syncLinks libs schedule d existing links)
    (fun _ => True) := by
  refine KeepsCut.bind (vetOptouts_keeps _) ?_
  rintro ⟨optedOut, unknown⟩ hout
  refine KeepsCut.bind (planActions_keeps hout hexisting hlinks) fun actions hactions => ?_
  dsimp only
  split
  · exact finish_keeps _
  · refine KeepsCut.bind (forEachConcurrent_keeps _ schedule _ fun f hf => ?_) fun _ _ =>
      finish_keeps _
    obtain ⟨a, ha, rfl⟩ := List.mem_map.1 hf
    exact hactions a ha

/-- A member of the link's mirror is one of `q`. -/
private theorem CutOff.existing {w : World} (hw : CutOff libs limits l formId q n w)
    (h : l.key ∈ w.answer (.selectAssignedLinks d)) : d ∈ q := by
  obtain ⟨a, ha, hkey⟩ := List.mem_map.1 h
  obtain ⟨hmem, hd⟩ := List.mem_filter.1 ha
  have hassigned : d ∈ w.assigned l.key :=
    List.mem_map.2 ⟨a, List.mem_filter.2 ⟨hmem, decide_eq_true hkey⟩, of_decide_eq_true hd⟩
  rw [hw.assigned] at hassigned
  exact List.mem_of_mem_take hassigned

/-- The selected link of that key is `l`. -/
private theorem CutOff.selected {w : World} (hw : CutOff libs limits l formId q n w)
    {guilds : List Text} {b : BoundLink} (hb : b ∈ w.answer (.selectBoundLinks guilds))
    (hkey : b.key = l.key) :
    b = l.toBound formId := by
  obtain ⟨a, ha, hab⟩ := List.mem_filterMap.1 hb
  obtain ⟨form, hform, rfl⟩ := Option.map_eq_some_iff.1 hab
  have hal : a = l := List.inj_on_of_nodup_map hw.keys (List.mem_filter.1 ha).1 hw.link hkey
  subst hal
  rw [Option.some.inj (hform.symm.trans hw.form)]

private theorem syncForPlayer_keeps (schedule : Nat → Nat) (d : Text) :
    KeepsCut libs limits l formId q n (syncForPlayer libs schedule d) (fun _ => True) := by
  refine KeepsCut.bind (keepsCut_statement (c := .fetchUserGuildIds d) trivial id)
    fun gatewayGuilds _ => ?_
  refine KeepsCut.bind (keepsCut_statement (c := .selectRespondentGuilds d) trivial id)
    fun respondentGuilds _ => ?_
  refine KeepsCut.bind (keepsCut_ask (c := .selectAssignedLinks d) trivial id (p := fun existing =>
    l.key ∈ existing → d ∈ q) fun w hw => hw.existing) fun existing hexisting => ?_
  dsimp only
  split
  · exact KeepsCut.pure trivial
  refine KeepsCut.bind (keepsCut_ask (c := .selectBoundLinks _) trivial id (p := fun links =>
    ∀ b ∈ links, b.key = l.key → b = l.toBound formId) fun w hw b hb => hw.selected hb)
      fun links hlinks => ?_
  split
  · exact KeepsCut.pure trivial
  · exact syncLinks_keeps schedule hexisting hlinks

end

/-! ### Runs -/

/-- The world after the runs, one after the other, with RoleLogic's limits. -/
def runAllLimited (libs : Libs) (limits : Limits) : List SyncRun → World → World
  | [], w => w
  | run :: runs, w => runAllLimited libs limits runs
    ((run.program libs).run.run (serveLimited limits) w).2

section

variable {libs : Libs} {limits : Limits} {l : RoleLink} {formId : Text} {q : List Text} {n : Nat}

/-- One more run of either sync leaves a cut-off link as it is. -/
theorem CutOff.run {w : World} (hw : CutOff libs limits l formId q n w) (run : SyncRun) :
    CutOff libs limits l formId q n ((run.program libs).run.run (serveLimited limits) w).2 := by
  cases run with
  | player d schedule => exact (syncForPlayer_keeps schedule d w hw).1
  | roleLink g r =>
    by_cases hk : (g, r) = l.key
    · obtain ⟨rfl, rfl⟩ := Prod.mk.inj hk
      refine (syncForRoleLink_cutsOff hw.toOversubscribed ?_).2
      rw [hw.assigned, List.length_take]
      exact lt_of_le_of_lt (min_le_left n q.length) hw.long
    · exact (syncForRoleLink_keeps hk w hw).1

theorem CutOff.runAll {w : World} (hw : CutOff libs limits l formId q n w) (runs : List SyncRun) :
    CutOff libs limits l formId q n (runAllLimited libs limits runs w) := by
  induction runs generalizing w with
  | nil => exact hw
  | cons run runs ih => exact ih (hw.run run)

end

/-- A bulk sync of a link with more qualifying members than RoleLogic takes succeeds and leaves the
first `n` members of the sorted qualifying list in RoleLogic's list and in the mirror, and no later
run of either sync changes the two. -/
theorem capped_link_stable (libs : Libs) (limits : Limits) {w : World} (hkeys : (w.roleLinks.map RoleLink.key).Nodup)
    {l : RoleLink} (hl : l ∈ w.roleLinks) {formId : Text} (hform : l.formId = some formId) {n : Nat}
    (hlimit : limits.userLimit l.key = some n) {q : List Text}
    (hq : QualifyingList libs w l formId (w.optouts l.guildId) q) (hlong : n < q.length)
    (hput : q.length ≤ putMaxUsers) (hlisted : (w.listed l.key).length ≤ n)
    (hmirror : (w.assigned l.key).Perm (w.listed l.key)) :
    let sync := (syncForRoleLink libs l.guildId l.roleId).run.run (serveLimited limits) w
    sync.1 = .ok () ∧ sync.2.listed l.key = q.take n ∧ sync.2.assigned l.key = q.take n ∧
      ∀ runs, (runAllLimited libs limits runs sync.2).listed l.key = q.take n ∧
        (runAllLimited libs limits runs sync.2).assigned l.key = q.take n := by
  have hshort : (w.assigned l.key).length < q.length := by
    rw [hmirror.length_eq]
    omega
  obtain ⟨hok, hcut⟩ := syncForRoleLink_cutsOff ⟨hkeys, hl, hform, hq, hlimit, hlong, hput⟩ hshort
  refine ⟨hok, hcut.listed, hcut.assigned, fun runs => ?_⟩
  have hruns := hcut.runAll runs
  exact ⟨hruns.listed, hruns.assigned⟩

/-- RoleLogic takes one member for a link. -/
def oneMember : Limits where
  userLimit _ := some 1
  commitRefused := []

/-- Of the two respondents the second in order held the role; the first holds it from the first bulk sync on. -/
theorem capped_link_stable_fullSurvey :
    let sync := (syncForRoleLink surveyLibs "guild".toList "role".toList).run.run (serveLimited oneMember) fullSurvey
    (runAllLimited surveyLibs oneMember [.player "bob".toList fun _ => 0, .roleLink "guild".toList "role".toList]
      sync.2).listed surveyLink.key = ["ann".toList] := by
  have hq : QualifyingList surveyLibs fullSurvey surveyLink surveyForm.id.text [] ["ann".toList, "bob".toList] := by
    have hcollect : (collectQualifying surveyLibs true [] .empty
        (fullSurvey.answer (.selectCandidates surveyForm.id.text []))).toList =
            ["ann".toList, "bob".toList] := by
      decide +kernel
    exact hcollect ▸ qualifyingList_collect surveyLibs fullSurvey surveyLink surveyForm.id.text []
  have h := capped_link_stable surveyLibs oneMember (w := fullSurvey) (List.nodup_singleton _)
    (List.mem_singleton_self surveyLink) rfl rfl hq (by decide) (by decide) (by decide)
      (List.Perm.refl _)
  exact (h.2.2.2 _).1

end FormRespondentRole
