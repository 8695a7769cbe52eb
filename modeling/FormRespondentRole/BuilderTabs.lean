import FormRespondentRole.Connections
import FormRespondentRole.Foundations.Protocol

/-!
# Builder tabs

Several tabs of the builder load and save forms at the same time.  A save changes the form only if
its version is the one that the tab knows, so a tab overwrites only what it has seen.  That holds as
long as a tab knows the version of what it has seen (`Tab.Knows`).  But after its `UPDATE` a save
reads the version once more, in a later statement, and so may come to know the version that another
tab has left in between.
-/

namespace FormRespondentRole

open Foundations

/-- What a save of the builder sets, as the row has it. -/
def Form.content (form : Form) : FormEdit where
  title := form.title
  description := form.description
  schema := form.schema
  isQuiz := form.isQuiz
  openAt := form.openAt
  closeAt := form.closeAt
  allowEdits := form.allowEdits
  singleSubmission := form.singleSubmission
  passingScore := form.passingScore
  requireVerified := form.requireVerified
  minAccountAgeDays := form.minAccountAgeDays
  successMessage := form.successMessage
  webhookUrl := form.webhookUrl
  archived := form.archived
  maxAttempts := form.maxAttempts
  retryCooldownSeconds := form.retryCooldownSeconds
  retryPolicy := form.retryPolicy
  lockOnPass := form.lockOnPass

/-- The version that a reply gives. -/
def Reply.version : Reply → Option Int32
  | json v => do
    let .number n ← v.get "version".toList | none
    return Int32.ofInt (← n.asI64)
  | csv .. => none

/-! ### Tabs -/

/-- A request of a tab.  The program does not keep `seen`. -/
structure TabTask where
  conn : Connection Reply
  /-- What the request has loaded or written, with its version. -/
  seen : Option (Int32 × FormEdit) := none

structure Tab where
  guildId : Text
  formId : Text
  /-- The version of the last load or save, which the next save sends. -/
  known : Option Int32 := none
  /-- What the tab has loaded and written; the program does not keep it. -/
  contents : List FormEdit := []
  task : Option TabTask := none

inductive TabAction
  | load
  | save (body : Admin.UpdateBody)
  /-- The next statement of the request starts. -/
  | start
  /-- The running statement ends. -/
  | finish (outcome : Outcome) (now : Instant)
  | reply
  /-- The request gets no reply. -/
  | drop

/-- What a statement that is carried out loads or writes. -/
def seenBy (rows : List RowRef) (d : Database) : AdminCall → Option (Int32 × FormEdit)
  | .selectForm id guildId => (d.form? id guildId).map fun form => (form.version, form.content)
  | .updateForm id guildId version edit =>
    if d.matching rows (.updateForm id guildId version edit) = [] then none
      else some (version + 1, edit)
  | _ => none

namespace TabTask

def of (libs : AdminLibs) (guildId : Text) (req : AdminRequest) : TabTask :=
  ⟨⟨(req.program libs guildId).run, none, none⟩, none⟩

/-- The request has its answer to the running statement. -/
def answered (task : TabTask) (outcome : Outcome) (d : Database) (conn : Connection Reply) :
    TabTask :=
  match task.conn.program, task.conn.found, outcome with
  | .call c _, some rows, .done =>
    match d.refusalOn rows c with
    | none => ⟨conn, (seenBy rows d c).or task.seen⟩
    | some _ => ⟨conn, task.seen⟩
  | _, _, _ => ⟨conn, task.seen⟩

end TabTask

namespace Tab

def step (libs : AdminLibs) (d : Database) (tab : Tab) : TabAction → Option (Tab × Database)
  | .load =>
    if tab.task.isSome then none
    else some ({ tab with task := some (.of libs tab.guildId (.builderData tab.formId)) }, d)
  | .save body =>
    if tab.task.isSome ∨ tab.known ≠ some body.version then none
    else some ({ tab with task := some (.of libs tab.guildId (.updateForm tab.formId body)) }, d)
  | .start => do
    let task ← tab.task
    let conn ← task.conn.start d
    return ({ tab with task := some ⟨conn, task.seen⟩ }, d)
  | .finish outcome now => do
    let task ← tab.task
    let (conn, d') ← task.conn.finish (fun _ => false) outcome now d
    return ({ tab with task := some (task.answered outcome d conn) }, d')
  | .reply => do
    let task ← tab.task
    match task.conn.program with
    | .pure (.ok reply) =>
      some ({ tab with
        known := reply.version
        contents := (task.seen.map Prod.snd).toList ++ tab.contents
        task := none }, d)
    | .pure (.error _) => some ({ tab with task := none }, d)
    | .call .. => none
  | .drop => some ({ tab with task := none }, d)

/-- What the running `UPDATE` of the tab overwrites. -/
def overwrites (d : Database) (tab : Tab) : Option FormEdit := do
  let task ← tab.task
  match task.conn.program, task.conn.found with
  | .call (.updateForm id guildId version _) _, some rows =>
    (d.forms.rows.find? fun form => decide (RowRef.form form.id ∈ rows ∧ form.id = id ∧
      form.guildId = guildId ∧
      form.version = version)).map Form.content
  | _, _ => none

/-- The tab reads the version that its own `UPDATE` has left, if it reads one now. -/
def readsOwnVersion (d : Database) (tab : Tab) : Bool :=
  match tab.task with
  | none => true
  | some task =>
    match task.conn.program, task.seen with
    | .call (.selectVersion id guildId) _, some (version, _) =>
      (d.form? id guildId).all fun form => form.version = version
    | _, _ => true

end Tab

/-- The tabs, on one database. -/
structure TabState where
  db : Database
  tabs : List Tab

structure TabEvent where
  tab : Nat
  action : TabAction

def tabStep (libs : AdminLibs) (s : TabState) (e : TabEvent) : Option TabState :=
  (partyAt s.tabs e.tab).bind fun (pre, tab, post) =>
    (tab.step libs s.db e.action).map fun (tab, db) => ⟨db, pre ++ tab :: post⟩

def tabSystem (libs : AdminLibs) : System TabState TabEvent := ⟨tabStep libs⟩

/-- No other tab has changed the form between the `UPDATE` of a save and its reading of the
version. -/
def ownVersions (s : TabState) (e : TabEvent) : Bool :=
  match e.action, partyAt s.tabs e.tab with
  | .finish .done _, some (_, tab, _) => tab.readsOwnVersion s.db
  | _, _ => true

/-! ### What the requests of a tab ask -/

section

variable (u : Uuid) (guildId : Text) (known : Option Int32)

/-- The state of a request is the version of what it has loaded or written.  A version that is read
must be that one. -/
def versions : Protocol AdminCall (fun c => Except AppError c.Answer) (Option Int32) where
  asks g c := match c with
    | .selectForm id guild => g = none ∧ id = u ∧ guild = guildId
    | .updateForm id guild version _ => g = none ∧ id = u ∧ guild = guildId ∧ some version = known
    | .selectVersion id guild => id = u ∧ guild = guildId
    | .countResponses .. | .countLinks .. | .selectBound _ | .selectLink .. | .enqueueConfigSync .. =>
      True
    | _ => False
  moves g c r g' := match c, r with
    | .selectForm .., .ok (some form) => g' = some form.version
    | .updateForm _ _ version _, .ok count => g' = if count = (0 : Nat) then none
      else some (version + 1)
    | .selectVersion .., .ok (some version) => (∀ own, g = some own → version = own) ∧ g' = g
    | _, _ => g' = g

/-- A successful reply gives the version of what the request has loaded or written. -/
def RepliesVersion (g : Option Int32) (r : Except AppError Reply) : Prop :=
  ∀ reply, r = .ok reply → g.isSome ∧ reply.version = g

variable {u guildId known}

private theorem repliesVersion_error {g : Option Int32} {e : AppError} :
    RepliesVersion g (.error e) := fun _ h => by cases h

open Admin in
private theorem jsonInt_version (entries : List (String × Value)) {n : Int32}
    (h : entries.reverse.lookup "version" = some (jsonInt n)) :
    (Reply.json (json entries)).version = some n := by
  have hget : (json entries).get "version".toList = some (jsonInt n) :=
    (json_get entries "version").trans h
  have hrange : -2 ^ 63 ≤ n.toInt ∧ n.toInt < 2 ^ 63 := by
    have hlt := n.toInt_lt
    have hle := n.le_toInt
    omega
  obtain ⟨m, hm, hn⟩ := Value.ofI64_asI64 n.toInt hrange
  have hnumber : jsonInt n = .number m := hm
  rw [Reply.version, hget, hnumber]
  change (m.asI64.bind fun i => some (Int32.ofInt i)) = some n
  rw [hn, Option.bind_some, Int32.ofInt_toInt]

open Admin in
private theorem builderData_follows {libs : AdminLibs} {formId : Text}
    (h : ∀ id, libs.parseUuid formId = some id → id = u) :
    ((AdminRequest.builderData formId).program libs guildId).run.Follows
    (versions u guildId known) RepliesVersion none := by
  refine Program.Follows.except_map ?_
  simp only [builderData, formUuid]
  cases hid : libs.parseUuid formId with
  | none => exact repliesVersion_error
  | some id =>
    obtain rfl := h id hid
    rw [pure_bind]
    refine Program.follows_ask_bind.2 ⟨⟨rfl, rfl, rfl⟩, fun e g' _ => repliesVersion_error,
      fun form g' hmove => ?_⟩
    cases form with
    | none => exact repliesVersion_error
    | some form =>
      obtain rfl : g' = some form.version := hmove
      refine Program.follows_ask_bind.2 ⟨trivial, fun e g' _ => repliesVersion_error,
        fun responses g' hmove => ?_⟩
      obtain rfl : g' = some form.version := hmove
      refine Program.follows_ask_bind.2 ⟨trivial, fun e g' _ => repliesVersion_error,
        fun links g' hmove => ?_⟩
      obtain rfl : g' = some form.version := hmove
      intro reply hreply
      cases hreply
      exact ⟨rfl, jsonInt_version _ rfl⟩

/-- The loop over the links of a form leaves the state as it is. -/
theorem resyncLinks_follows {parsed : FormSchema} {g : Option Int32} (keys : List LinkKey) :
    (Admin.resyncLinks parsed keys).run.Follows (versions u guildId known)
    (fun g' _ => g' = g) g := by
  induction keys with
  | nil => rfl
  | cons key keys ih =>
    refine Program.follows_ask_bind.2 ⟨trivial, fun e g' hmove => hmove, fun link g' hmove => ?_⟩
    obtain rfl : g' = g := hmove
    cases link with
    | none => rfl
    | some link =>
      refine Program.follows_attempt_bind.2 ⟨trivial, fun r g'' hmove => ?_⟩
      obtain rfl : g'' = g' := hmove
      refine Program.Follows.except_bind (ih.mono fun g r hg => ?_)
      cases r with
      | ok warnings => exact hg
      | error e => exact hg

open Admin in
private theorem updateForm_follows {libs : AdminLibs} {formId : Text} {body : UpdateBody}
    (h : ∀ id, libs.parseUuid formId = some id → id = u) (hbody : known = some body.version) :
    ((AdminRequest.updateForm formId body).program libs guildId).run.Follows
    (versions u guildId known) RepliesVersion none := by
  refine Program.Follows.except_map ?_
  simp only [updateForm, formUuid]
  cases hid : libs.parseUuid formId with
  | none => exact repliesVersion_error
  | some id =>
    obtain rfl := h id hid
    rw [pure_bind]
    cases hcheck : checkUpdate libs body with
    | error e => exact repliesVersion_error
    | ok checked =>
      obtain ⟨edit, parsed⟩ := checked
      simp only [Admin.liftExcept, pure_bind]
      refine Program.follows_ask_bind.2
        ⟨⟨rfl, rfl, rfl, hbody.symm⟩, fun e g' _ => repliesVersion_error, fun count g' hmove => ?_⟩
      have hmove : g' = if count = (0 : Nat) then none else some (body.version + 1) := hmove
      split
      · refine Program.follows_ask_bind.2 ⟨⟨rfl, rfl⟩, fun e g' _ => repliesVersion_error,
          fun version g' _ => ?_⟩
        cases version <;> exact repliesVersion_error
      · rename_i hcount
        rw [if_neg hcount] at hmove
        subst hmove
        refine Program.follows_ask_bind.2 ⟨trivial, fun e g' _ => repliesVersion_error,
          fun keys g' hmove => ?_⟩
        obtain rfl : g' = some (body.version + 1) := hmove
        refine Program.Follows.except_bind ((resyncLinks_follows keys).mono fun g r hg => ?_)
        subst hg
        cases r with
        | error e => exact repliesVersion_error
        | ok warnings =>
          refine Program.follows_ask_bind.2 ⟨⟨rfl, rfl⟩, fun e g' _ => repliesVersion_error,
            fun version g' hmove => ?_⟩
          cases version with
          | none => exact repliesVersion_error
          | some version =>
            -- the answer is the version that the `UPDATE` has left
            obtain ⟨hown, rfl⟩ := hmove
            obtain rfl := hown _ rfl
            intro reply hreply
            cases hreply
            exact ⟨rfl, jsonInt_version _ rfl⟩

end

/-! ### What a version stands for -/

/-- As long as the form has this version, its content is one of these. -/
def Knows (d : Database) (u : Uuid) (guildId : Text) (version : Int32)
    (contents : List FormEdit) : Prop :=
  ∀ form, d.form? u guildId = some form →
    version ≤ form.version ∧ (form.version = version → form.content ∈ contents)

/-- A form that is changed gets a later version. -/
def Advances (d d' : Database) : Prop :=
  ∀ u guildId form', d'.form? u guildId = some form' →
    ∃ form, d.form? u guildId = some form ∧ (form' = form ∨ form.version < form'.version)

section

variable {d d' : Database} {u : Uuid} {guildId : Text} {version : Int32}
  {contents contents' : List FormEdit}

private theorem Advances.of_forms (h : d'.forms = d.forms) : Advances d d' := by
  intro u guildId form hform
  rw [Database.form?, h] at hform
  exact ⟨form, hform, Or.inl rfl⟩

theorem Knows.mono (h : Knows d u guildId version contents)
    (hsub : ∀ content ∈ contents, content ∈ contents') :
    Knows d u guildId version contents' :=
  fun form hform => ⟨(h form hform).1, fun hversion => hsub _ ((h form hform).2 hversion)⟩

/-- Versions are not used twice. -/
theorem Knows.advance (h : Knows d u guildId version contents) (hd : Advances d d') :
    Knows d' u guildId version contents := by
  intro form' hform'
  obtain ⟨form, hform, hcases⟩ := hd u guildId form' hform'
  obtain ⟨hle, hcontent⟩ := h form hform
  rcases hcases with rfl | hlt
  · exact ⟨hle, hcontent⟩
  · have hle := Int32.le_iff_toInt_le.1 hle
    have hlt := Int32.lt_iff_toInt_lt.1 hlt
    refine ⟨Int32.le_iff_toInt_le.2 (by omega), fun hversion => ?_⟩
    have heq := congrArg Int32.toInt hversion
    omega

theorem lt_succ_of_ne_max (h : version ≠ Int32.maxValue) : version < version + 1 := by
  have hlt := version.toInt_lt
  have hle := version.le_toInt
  have hne : version.toInt ≠ 2 ^ 31 - 1 := fun heq => h (Int32.toInt_inj.1 (heq.trans (by decide)))
  rw [Int32.lt_iff_toInt_lt, Int32.toInt_add, Int32.toInt_one,
    Int.bmod_eq_of_le (by omega) (by omega)]
  omega

end

namespace Database

variable {d : Database} {rows : List RowRef} {now : Instant} {id : Uuid} {guildId : Text}
  {version : Int32} {edit : FormEdit}

/-- A save that does not match this form leaves it. -/
theorem form?_updateOn (u : Uuid) (guild : Text) :
    (d.effectOn rows now (.updateForm id guildId version edit)).form? u guild =
      (d.form? u guild).map fun form =>
        if RowRef.form form.id ∈ rows ∧ form.id = id ∧ form.guildId = guildId ∧
          form.version = version then
          (edit.set now).set form
        else form := by
  have hid : ∀ form : Form,
    (if decide (RowRef.form form.id ∈ rows ∧ form.id = id ∧ form.guildId = guildId ∧
      form.version = version) = true then (edit.set now).set form else form).id = form.id := by
    intro form
    split
    · exact (edit.set now).key_set form
    · rfl
  have hguild : ∀ form : Form,
    (if decide (RowRef.form form.id ∈ rows ∧ form.id = id ∧ form.guildId = guildId ∧
      form.version = version) = true then (edit.set now).set form else form).guildId =
          form.guildId := by
    intro form
    split <;> rfl
  rw [form?, effectOn, Table.update, List.find?_map, form?]
  simp only [Function.comp_def, hid, hguild]
  simp only [decide_eq_true_eq]

private theorem find_form {form : Form} (hmem : form ∈ d.forms.rows) (hid : form.id = id)
    (hguild : form.guildId = guildId) :
    d.form? id guildId = some form := by
  have hsome : (d.form? id guildId).isSome :=
    List.find?_isSome.2 ⟨form, hmem, decide_eq_true ⟨hid, hguild⟩⟩
  obtain ⟨other, hother⟩ := Option.isSome_iff_exists.1 hsome
  obtain ⟨hotherMem, hotherId, -⟩ := form?_eq_some hother
  rw [hother, Table.eq_of_key hotherMem hmem (hotherId.trans hid.symm)]

/-- What a save finds and still matches is the form. -/
theorem matching_updateForm (h : d.matching rows (.updateForm id guildId version edit) ≠ []) :
    ∃ form, d.form? id guildId = some form ∧ RowRef.form form.id ∈ rows ∧
      form.version = version := by
  obtain ⟨ref, href⟩ := List.exists_mem_of_ne_nil _ h
  obtain ⟨htarget, hfound⟩ := List.mem_filter.1 href
  obtain ⟨form, hform, rfl⟩ := List.mem_map.1 htarget
  obtain ⟨hmem, hmatch⟩ := List.mem_filter.1 hform
  obtain ⟨hid, hguild, hversion⟩ := of_decide_eq_true hmatch
  exact ⟨form, find_form hmem hid hguild, of_decide_eq_true hfound, hversion⟩

theorem version_ne_max (hrefusal : d.refusalOn rows (.updateForm id guildId version edit) = none)
    (h : d.matching rows (.updateForm id guildId version edit) ≠ []) :
    version ≠ Int32.maxValue := by
  obtain ⟨form, hform, -, hversion⟩ := matching_updateForm h
  obtain ⟨hmem, hid, hguild⟩ := form?_eq_some hform
  rw [refusalOn, if_neg h, refusal] at hrefusal
  split at hrefusal
  · cases hrefusal
  · rename_i hany
    intro hmax
    exact hany (List.any_eq_true.2 ⟨form, hmem,
      decide_eq_true ⟨hid, hguild, hversion, hversion.trans hmax⟩⟩)

end Database

private theorem advances_updateOn {d : Database} {rows : List RowRef} {now : Instant} {id : Uuid}
    {guildId : Text} {version : Int32} {edit : FormEdit}
    (hrefusal : d.refusalOn rows (.updateForm id guildId version edit) = none) :
    Advances d (d.effectOn rows now (.updateForm id guildId version edit)) := by
  intro u guild form' hform'
  rw [Database.form?_updateOn] at hform'
  obtain ⟨form, hform, rfl⟩ := Option.map_eq_some_iff.1 hform'
  refine ⟨form, hform, ?_⟩
  split
  · rename_i hmatch
    obtain ⟨hfound, hid, hguild, hversion⟩ := hmatch
    obtain ⟨hmem, -⟩ := Database.form?_eq_some hform
    have hmatching : d.matching rows (.updateForm id guildId version edit) ≠ [] := by
      refine List.ne_nil_of_mem (a := RowRef.form form.id)
        (List.mem_filter.2 ⟨?_, decide_eq_true hfound⟩)
      exact List.mem_map_of_mem (List.mem_filter.2 ⟨hmem, decide_eq_true ⟨hid, hguild, hversion⟩⟩)
    have hlt := lt_succ_of_ne_max (Database.version_ne_max hrefusal hmatching)
    right
    rw [← hversion] at hlt
    exact hlt
  · exact Or.inl rfl

/-! ### The invariant of a tab -/

def Tab.id (libs : AdminLibs) (tab : Tab) : Uuid := (libs.parseUuid tab.formId).getD 0

structure TabTask.Tracked (d : Database) (u : Uuid) (tab : Tab) (task : TabTask) : Prop where
  tx : task.conn.tx = none
  follows : task.conn.program.Follows (versions u tab.guildId tab.known) RepliesVersion
    (task.seen.map Prod.fst)
  seen : ∀ version content, task.seen = some (version, content) →
    Knows d u tab.guildId version (content :: tab.contents)

structure Tab.Tracked (libs : AdminLibs) (d : Database) (tab : Tab) : Prop where
  known : ∀ version, tab.known = some version →
    Knows d (tab.id libs) tab.guildId version tab.contents
  task : ∀ task, tab.task = some task → task.Tracked d (tab.id libs) tab

section

variable {libs : AdminLibs} {d d' : Database} {tab : Tab} {task : TabTask} {u : Uuid}

theorem TabTask.Tracked.advance (h : task.Tracked d u tab) (hd : Advances d d') :
    task.Tracked d' u tab :=
  ⟨h.tx, h.follows, fun version content hseen => (h.seen version content hseen).advance hd⟩

theorem Tab.Tracked.advance (h : tab.Tracked libs d) (hd : Advances d d') : tab.Tracked libs d' :=
  ⟨fun version hversion => (h.known version hversion).advance hd, fun task htask =>
    (h.task task htask).advance hd⟩

private theorem moves_error {known g : Option Int32} {guildId : Text} (c : AdminCall)
    (e : AppError) :
    (versions u guildId known).moves g c (.error e) g := by
  cases c <;> rfl

/-- What a statement of a tab changes in the forms, it changes as its protocol has it. -/
theorem advances_of_asks (now : Instant) {known g : Option Int32} {guildId : Text} {c : AdminCall}
    {rows : List RowRef} {conn : Connection Reply} (hasks : (versions u guildId known).asks g c)
    (htx : conn.tx = none) (hrefusal : d.refusalOn rows c = none) :
    conn.carry rows now d c = (none, d.effectOn rows now c) ∧
      Advances d (d.effectOn rows now c) := by
  have hchange : conn.change rows now d c = (none, d.effectOn rows now c) := by
    rw [Connection.change, htx]
  cases c with
  | updateForm id guild version edit => exact ⟨hchange, advances_updateOn hrefusal⟩
  | selectForm | selectVersion | countResponses | countLinks | selectBound | selectLink
  | enqueueConfigSync =>
    exact ⟨hchange, Advances.of_forms rfl⟩
  | _ => exact absurd hasks id

/-- The content that an `UPDATE` has written is that of the version it has left. -/
theorem knows_updateOn {rows : List RowRef} {now : Instant} {guildId : Text} {version : Int32}
    {edit : FormEdit} {contents : List FormEdit}
    (h : d.matching rows (.updateForm u guildId version edit) ≠ []) :
    Knows (d.effectOn rows now (.updateForm u guildId version edit)) u guildId (version + 1)
    (edit :: contents) := by
  intro form' hform'
  obtain ⟨form, hform, hfound, hversion⟩ := Database.matching_updateForm h
  obtain ⟨-, hid, hguild⟩ := Database.form?_eq_some hform
  rw [Database.form?_updateOn, hform, Option.map_some,
    if_pos ⟨hfound, hid, hguild, hversion⟩] at hform'
  obtain rfl := Option.some.inj hform'
  have hnext : ((edit.set now).set form).version = version + 1 := congrArg (· + 1) hversion
  rw [hnext]
  exact ⟨Int32.le_refl _, fun _ => List.mem_cons_self⟩

private theorem knows_selected {guildId : Text} {form : Form} {contents : List FormEdit}
    (h : d.form? u guildId = some form) :
    Knows d u guildId form.version (form.content :: contents) := by
  intro other hother
  obtain rfl := Option.some.inj (hother.symm.trans h)
  exact ⟨Int32.le_refl _, fun _ => List.mem_cons_self⟩

/-- A statement that is carried out leads to the version of what it has loaded or written. -/
theorem seen_of_asks (now : Instant) {guildId : Text} {known : Option Int32} {c : AdminCall}
    {rows : List RowRef} {seen : Option (Int32 × FormEdit)} {contents : List FormEdit}
    (hasks : (versions u guildId known).asks (seen.map Prod.fst) c)
    (hrefusal : d.refusalOn rows c = none)
    (hseen : ∀ version content, seen = some (version, content) →
      Knows d u guildId version (content :: contents))
    (hown : ∀ id guild version content form, c = .selectVersion id guild →
      seen = some (version, content) →
      d.form? id guild = some form → form.version = version) :
    (versions u guildId known).moves (seen.map Prod.fst) c (.ok (d.answerOn rows c))
        (((seenBy rows d c).or seen).map Prod.fst) ∧
      ∀ version content, (seenBy rows d c).or seen = some (version, content) →
        Knows (d.effectOn rows now c) u guildId version (content :: contents) := by
  cases c with
  | selectForm id guild =>
    obtain ⟨-, rfl, rfl⟩ := hasks
    cases hform : d.form? id guild with
    | none =>
      have hanswer : d.answerOn rows (.selectForm id guild) = none := hform
      have hnone : seenBy rows d (.selectForm id guild) = none := by rw [seenBy, hform]; rfl
      rw [hnone, hanswer]
      exact ⟨rfl, hseen⟩
    | some form =>
      have hanswer : d.answerOn rows (.selectForm id guild) = some form := hform
      have hsome : seenBy rows d (.selectForm id guild) = some (form.version, form.content) := by
        rw [seenBy, hform]; rfl
      rw [hsome, hanswer]
      refine ⟨rfl, fun version content heq => ?_⟩
      cases heq
      exact knows_selected hform
  | updateForm id guild version edit =>
    obtain ⟨hnone, rfl, rfl, -⟩ := hasks
    rw [Option.map_eq_none_iff.1 hnone]
    by_cases hmatching : d.matching rows (.updateForm id guild version edit) = []
    · have hcount : d.answerOn rows (.updateForm id guild version edit) = (0 : Nat) :=
        congrArg List.length hmatching
      rw [seenBy, if_pos hmatching, hcount]
      exact ⟨rfl, fun _ _ heq => (by cases heq)⟩
    · have hcount : d.answerOn rows (.updateForm id guild version edit) ≠ (0 : Nat) := fun hzero =>
        hmatching (List.length_eq_zero_iff.1 hzero)
      rw [seenBy, if_neg hmatching]
      refine ⟨(if_neg hcount).symm, fun version' content heq => ?_⟩
      cases heq
      exact knows_updateOn hmatching
  | selectVersion id guild =>
    refine ⟨?_, hseen⟩
    have hanswer : d.answerOn rows (.selectVersion id guild) = (d.form? id guild).map (·.version) :=
      rfl
    rw [hanswer]
    cases hform : d.form? id guild with
    | none => rfl
    | some form =>
      refine ⟨fun own hmap => ?_, rfl⟩
      obtain ⟨⟨version, content⟩, hsome, rfl⟩ := Option.map_eq_some_iff.1 hmap
      exact hown id guild version content form rfl hsome hform
  | countResponses | countLinks | selectBound | selectLink | enqueueConfigSync =>
    refine ⟨rfl, fun version content heq => ?_⟩
    exact (hseen version content heq).advance (Advances.of_forms rfl)
  | _ => exact absurd hasks id

/-- A request of a tab keeps track, if it reads the version that it has left. -/
theorem TabTask.Tracked.finish {outcome : Outcome} {now : Instant} {conn : Connection Reply}
    (h : task.Tracked d u tab) (htask : tab.task = some task)
    (hfinish : task.conn.finish (fun _ => false) outcome now d = some (conn, d'))
    (hown : outcome = .done → tab.readsOwnVersion d = true) :
    Advances d d' ∧ (task.answered outcome d conn).Tracked d' u tab := by
  obtain ⟨c, k, rows, hprogram, hfound, hcases⟩ := Connection.finish_cases hfinish
  have hview : task.conn.view d = d := by rw [Connection.view, h.tx]; rfl
  have hfollows := h.follows
  rw [hprogram] at hfollows
  obtain ⟨hasks, hnext⟩ := hfollows
  rw [hview] at hcases
  rcases hcases with ⟨hfails, ⟨e, rfl⟩, rfl⟩ | ⟨-, hrefusal, r, hr, rfl, rfl⟩
  · -- the statement has failed, and nothing is seen
    have hanswered : task.answered outcome d' ⟨k (.error e), task.conn.tx, none⟩ =
        ⟨⟨k (.error e), task.conn.tx, none⟩, task.seen⟩ := by
      rcases hfails with ⟨e, rfl⟩ | hrefused
      · simp only [TabTask.answered, hprogram, hfound]
      · obtain ⟨e, he⟩ := Option.isSome_iff_exists.1 hrefused
        cases outcome <;> simp only [TabTask.answered, hprogram, hfound, he]
    rw [hanswered]
    exact ⟨Advances.of_forms rfl, h.tx, hnext _ _ (moves_error c e), h.seen⟩
  · obtain ⟨hcarry, hadvances⟩ := advances_of_asks now hasks h.tx hrefusal
    rw [hcarry]
    refine ⟨hadvances, ?_⟩
    rcases hr with ⟨rfl, rfl⟩ | ⟨e, rfl, rfl⟩
    · have hanswered : ∀ conn, task.answered .done d conn =
          ⟨conn, (seenBy rows d c).or task.seen⟩ := by
        intro conn
        simp only [TabTask.answered, hprogram, hfound, hrefusal]
      have hreads := hown rfl
      rw [Tab.readsOwnVersion, htask] at hreads
      simp only [hprogram] at hreads
      obtain ⟨hmoves, hseen⟩ := seen_of_asks now hasks hrefusal h.seen (by
        rintro id guild version content form rfl hseen hform
        simpa only [hseen, hform, Option.all_some, decide_eq_true_eq] using hreads)
      rw [hanswered]
      exact ⟨rfl, hnext _ _ hmoves, hseen⟩
    · -- the answer is lost, and nothing is seen
      have hanswered : ∀ conn, task.answered (.lost e) d conn = ⟨conn, task.seen⟩ := by
        intro conn
        simp only [TabTask.answered, hprogram, hfound]
      rw [hanswered]
      exact ⟨rfl, hnext _ _ (moves_error c _), fun version content hseen =>
        (h.seen version content hseen).advance hadvances⟩

/-- One step of a tab: the others see at most later versions. -/
theorem Tab.Tracked.step {action : TabAction} {tab' : Tab} (h : tab.Tracked libs d)
    (hstep : tab.step libs d action = some (tab', d'))
    (hown : ∀ now, action = .finish .done now → tab.readsOwnVersion d = true) :
    Advances d d' ∧ tab'.Tracked libs d' := by
  have hid : ∀ id, libs.parseUuid tab.formId = some id → id = tab.id libs := by
    intro id hid
    rw [Tab.id, hid]
    rfl
  cases action with
  | load =>
    simp only [Tab.step] at hstep
    split at hstep
    · cases hstep
    · obtain ⟨rfl, rfl⟩ := Prod.mk.inj (Option.some.inj hstep)
      refine ⟨Advances.of_forms rfl, h.known, fun task htask => ?_⟩
      obtain rfl := Option.some.inj htask
      exact ⟨rfl, builderData_follows hid, fun _ _ heq => (by cases heq)⟩
  | save body =>
    simp only [Tab.step] at hstep
    split at hstep
    · cases hstep
    · rename_i hready
      obtain ⟨rfl, rfl⟩ := Prod.mk.inj (Option.some.inj hstep)
      refine ⟨Advances.of_forms rfl, h.known, fun task htask => ?_⟩
      obtain rfl := Option.some.inj htask
      exact ⟨rfl, updateForm_follows hid (not_not.1 (not_or.1 hready).2), fun _ _ heq =>
        (by cases heq)⟩
  | start =>
    obtain ⟨task, htask, hstep⟩ := Option.bind_eq_some_iff.1 hstep
    obtain ⟨conn, hconn, hstep⟩ := Option.bind_eq_some_iff.1 hstep
    obtain ⟨rfl, rfl⟩ := Prod.mk.inj (Option.some.inj hstep)
    obtain ⟨c, k, hprogram, -, rfl⟩ := Connection.start_eq_some hconn
    have htracked := h.task task htask
    refine ⟨Advances.of_forms rfl, h.known, fun task' htask' => ?_⟩
    obtain rfl := Option.some.inj htask'
    exact ⟨htracked.tx, htracked.follows, htracked.seen⟩
  | finish outcome now =>
    obtain ⟨task, htask, hstep⟩ := Option.bind_eq_some_iff.1 hstep
    obtain ⟨⟨conn, d''⟩, hfinish, hstep⟩ := Option.bind_eq_some_iff.1 hstep
    obtain ⟨rfl, rfl⟩ := Prod.mk.inj (Option.some.inj hstep)
    -- the only step that reaches the database
    obtain ⟨hadvances, htracked⟩ :=
      (h.task task htask).finish htask hfinish fun hdone => hown now (by rw [hdone])
    refine ⟨hadvances, fun version hversion => (h.known version hversion).advance hadvances,
      fun task' htask' => ?_⟩
    obtain rfl := Option.some.inj htask'
    exact ⟨htracked.tx, htracked.follows, htracked.seen⟩
  | reply =>
    obtain ⟨task, htask, hstep⟩ := Option.bind_eq_some_iff.1 hstep
    have htracked := h.task task htask
    have hfollows := htracked.follows
    split at hstep
    · rename_i reply hprogram
      obtain ⟨rfl, rfl⟩ := Prod.mk.inj (Option.some.inj hstep)
      rw [hprogram] at hfollows
      obtain ⟨hsome, hversion⟩ := hfollows reply rfl
      refine ⟨Advances.of_forms rfl, fun version hknown => ?_, fun task htask => (by cases htask)⟩
      cases hseen : task.seen with
      | none =>
        rw [hseen] at hsome
        cases hsome
      | some seen =>
        obtain ⟨own, content⟩ := seen
        -- the version of the reply is the one that the task has seen
        have hknown : reply.version = some version := hknown
        rw [hversion, hseen] at hknown
        obtain rfl := Option.some.inj hknown
        exact htracked.seen own content hseen
    · obtain ⟨rfl, rfl⟩ := Prod.mk.inj (Option.some.inj hstep)
      exact ⟨Advances.of_forms rfl, h.known, fun task htask => (by cases htask)⟩
    · cases hstep
  | drop =>
    obtain ⟨rfl, rfl⟩ := Prod.mk.inj (Option.some.inj hstep)
    exact ⟨Advances.of_forms rfl, h.known, fun task htask => (by cases htask)⟩

/-- What an `UPDATE` overwrites has the version that the tab knows. -/
theorem Tab.Tracked.overwrites {content : FormEdit} (h : tab.Tracked libs d)
    (hover : tab.overwrites d = some content) :
    content ∈ tab.contents := by
  obtain ⟨task, htask, hover⟩ := Option.bind_eq_some_iff.1 hover
  have hfollows := (h.task task htask).follows
  split at hover
  · rename_i id guild version edit k rows hprogram hfound
    rw [hprogram] at hfollows
    obtain ⟨-, rfl, rfl, hknown⟩ := hfollows.1
    obtain ⟨form, hform, rfl⟩ := Option.map_eq_some_iff.1 hover
    have hmatch := List.find?_some (p := fun form : Form =>
      decide (RowRef.form form.id ∈ rows ∧ form.id = tab.id libs ∧
        form.guildId = tab.guildId ∧ form.version = version)) hform
    obtain ⟨-, hid, hguild, hversion⟩ := of_decide_eq_true hmatch
    exact (h.known version hknown.symm form
      (Database.find_form (List.mem_of_find?_eq_some hform) hid hguild)).2 hversion
  · cases hover

end

/-! ### The result -/

/-- Tabs that are open and have done nothing yet. -/
def TabState.Fresh (s : TabState) : Prop := ∀ tab ∈ s.tabs, tab.known = none ∧ tab.task = none

private theorem tracked_step {libs : AdminLibs} {s s' : TabState} {e : TabEvent}
    (h : ∀ tab ∈ s.tabs, tab.Tracked libs s.db) (hown : ownVersions s e = true)
    (hstep : tabStep libs s e = some s') :
    ∀ tab ∈ s'.tabs, tab.Tracked libs s'.db := by
  obtain ⟨⟨pre, tab, post⟩, hparty, hstep⟩ := Option.bind_eq_some_iff.1 hstep
  obtain ⟨⟨tab', d'⟩, hmoved, rfl⟩ := Option.map_eq_some_iff.1 hstep
  have htabs := partyAt_eq_some hparty
  have hmine : tab.Tracked libs s.db := h tab (by rw [htabs]; exact List.mem_append_right _ List.mem_cons_self)
  have hreads : ∀ now, e.action = .finish .done now → tab.readsOwnVersion s.db = true := by
    intro now haction
    simpa only [ownVersions, haction, hparty] using hown
  obtain ⟨hadvances, hnext⟩ := hmine.step hmoved hreads
  intro other hother
  rcases List.mem_append.1 hother with hother | hother
  · exact (h other (by rw [htabs]; exact List.mem_append_left _ hother)).advance hadvances
  · rcases List.mem_cons.1 hother with rfl | hother
    · exact hnext
    · exact (h other (by rw [htabs]; exact List.mem_append_right _ (List.mem_cons_of_mem _ hother))).advance hadvances

/-- In a run in which every save reads the version that it has left, a save overwrites only what its
tab has loaded or written itself. -/
theorem no_lost_update {libs : AdminLibs} {s t : TabState} {es : List TabEvent} (hs : s.Fresh)
    (h : (tabSystem libs).Run (fun s e _ => ownVersions s e = true) s es t) :
    ∀ tab ∈ t.tabs, ∀ content, tab.overwrites t.db = some content → content ∈ tab.contents := by
  have htracked : ∀ tab ∈ t.tabs, tab.Tracked libs t.db := by
    refine h.invariant (P := fun s => ∀ tab ∈ s.tabs, tab.Tracked libs s.db)
      (fun s e s' hs hown hstep => tracked_step hs hown hstep) fun tab htab => ?_
    obtain ⟨hknown, htask⟩ := hs tab htab
    refine ⟨fun version hversion => ?_, fun task h => ?_⟩
    · rw [hknown] at hversion
      cases hversion
    · rw [htask] at h
      cases h
  exact fun tab htab content hover => (htracked tab htab).overwrites hover

/-! ### Two tabs -/

def tabLibs : AdminLibs := { plainAdminLibs with schemaFromValue := fun _ => .ok {} }

def surveyTabs : TabState :=
  ⟨surveyDatabase, [⟨['g'], surveyId.text, none, [], none⟩, ⟨['g'], surveyId.text, none, [], none⟩]⟩

private theorem surveyTabs_fresh : surveyTabs.Fresh := by
  intro tab htab
  simp only [surveyTabs, List.mem_cons, List.not_mem_nil, or_false] at htab
  rcases htab with rfl | rfl <;> exact ⟨rfl, rfl⟩

def titled (title : String) (version : Int32) : Admin.UpdateBody :=
  { title := title.toList, schema := .object [], version := version }

/-- The statements of a request, one after the other. -/
def statements (tab n : Nat) : List TabEvent :=
  (List.range n).flatMap fun _ => [⟨tab, .start⟩, ⟨tab, .finish .done 0⟩]

def loads (tab : Nat) : List TabEvent := ⟨tab, .load⟩ :: statements tab 3 ++ [⟨tab, .reply⟩]

/-- A tab saves twice, and the second `UPDATE` has started. -/
def savesTwice : List TabEvent :=
  loads 0 ++ ⟨0, .save (titled "mine" 1)⟩ :: statements 0 5 ++
    [⟨0, .reply⟩, ⟨0, .save (titled "mine again" 2)⟩, ⟨0, .start⟩]

theorem no_lost_update_survey : ∃ t, (tabSystem tabLibs).exec surveyTabs savesTwice = some t ∧
    ∀ tab ∈ t.tabs, ∀ content, tab.overwrites t.db = some content → content ∈ tab.contents := by
  have hruns : ((tabSystem tabLibs).check (fun s e _ => ownVersions s e)
      surveyTabs savesTwice).isSome := by
    decide +kernel
  obtain ⟨t, ht⟩ := Option.isSome_iff_exists.1 hruns
  have hrun := System.Run.of_check ht
  exact ⟨t, hrun.exec_eq, no_lost_update surveyTabs_fresh hrun⟩

/-- Between the `UPDATE` of a save and its reading of the version, the other tab loads and saves. -/
def savesInBetween : List TabEvent :=
  loads 0 ++ ⟨0, .save (titled "mine" 1)⟩ :: statements 0 4 ++
    loads 1 ++ ⟨1, .save (titled "theirs" 2)⟩ :: statements 1 5 ++ ⟨1, .reply⟩ ::
    statements 0 1 ++ [⟨0, .reply⟩, ⟨0, .save (titled "mine again" 3)⟩, ⟨0, .start⟩]

/-- The first tab overwrites what the other has saved, and has not seen it. -/
theorem not_no_lost_update : ¬∀ es t, (tabSystem tabLibs).exec surveyTabs es = some t →
    ∀ tab ∈ t.tabs, ∀ content, tab.overwrites t.db = some content → content ∈ tab.contents := by
  intro h
  have hlost : ((tabSystem tabLibs).exec surveyTabs savesInBetween).map
      (fun t => t.tabs.map fun tab =>
        ((tab.overwrites t.db).map (·.title), tab.contents.map (·.title))) =
      some [(some "theirs".toList, ["mine".toList, ['t']]),
          (none, ["theirs".toList, "mine".toList])] := by
    decide +kernel
  obtain ⟨t, ht, htabs⟩ := Option.map_eq_some_iff.1 hlost
  obtain ⟨tab, htab, heq⟩ := List.mem_map.1 (htabs ▸ List.mem_cons_self)
  obtain ⟨hover, hcontents⟩ := Prod.mk.inj heq
  obtain ⟨content, hover, htitle⟩ := Option.map_eq_some_iff.1 hover
  have hmem := List.mem_map_of_mem (f := fun edit : FormEdit => edit.title)
    (h _ t ht tab htab content hover)
  rw [hcontents, htitle] at hmem
  revert hmem
  decide

end FormRespondentRole
