import FormRespondentRole.AdminRuns
import FormRespondentRole.SubmitRuns

/-!
# Admin requests at the same time

A `Connection` runs a handler statement by statement, under READ COMMITTED.  A statement finds the
rows it is to change among what is committed when it starts.  It ends once no other transaction
holds one of them, and then changes those that still match.  Outside of a transaction the change is
committed at once.  In a transaction it is kept, and the rows are held, until the `COMMIT`; a
connection that is closed before has changed nothing.

A statement that ends as soon as it has started is served as `serveSql` serves it
(`Database.effectOn_targets`, `Database.answerOn_targets`).
-/

namespace FormRespondentRole

open Foundations

/-! ### Requests -/

inductive AdminRequest
  | listData
  | createForm (draws : Admin.Draws) (templateName : Text) (title : Option Text)
  | builderData (formId : Text)
  | updateForm (formId : Text) (body : Admin.UpdateBody)
  | deleteForm (formId : Text)
  | duplicateForm (formId : Text) (draws : Admin.Draws)
  | responsesData (formId : Text)
  | responsesCsv (formId : Text)
  | deleteResponse (formId responseId : Text)
  | deleteAllResponses (formId : Text)
  | roleConfigData (roleId : Text)
  | roleConfigSave (roleId : Text) (body : RoleConfigBody)
  | setViewPermission (viewPermission : Text)

namespace AdminRequest

def program (libs : AdminLibs) (guildId : Text) : AdminRequest → AdminM Reply
  | listData => .json <$> Admin.listData libs guildId
  | createForm draws templateName title =>
    .json <$> Admin.createForm libs guildId draws templateName title
  | builderData formId => .json <$> Admin.builderData libs guildId formId
  | updateForm formId body => .json <$> Admin.updateForm libs guildId formId body
  | deleteForm formId => .json <$> Admin.deleteForm libs guildId formId
  | duplicateForm formId draws => .json <$> Admin.duplicateForm libs guildId formId draws
  | responsesData formId => .json <$> Admin.responsesData libs guildId formId
  | responsesCsv formId => (fun r => .csv r.1 r.2) <$> Admin.responsesCsv libs guildId formId
  | deleteResponse formId responseId =>
    .json <$> Admin.deleteResponse libs guildId formId responseId
  | deleteAllResponses formId => .json <$> Admin.deleteAllResponses libs guildId formId
  | roleConfigData roleId => .json <$> Admin.roleConfigData libs guildId roleId
  | roleConfigSave roleId body => .json <$> Admin.roleConfigSave libs guildId roleId body
  | setViewPermission viewPermission => .json <$> Admin.setViewPermission guildId viewPermission

end AdminRequest

/-! ### Statements on the rows that they have found -/

/-- A row that a statement may wait for. -/
inductive RowRef
  | form (id : Uuid)
  | link (key : LinkKey)
  | response (id : Uuid)
deriving DecidableEq

namespace Database

/-- The rows that the `WHERE` of a statement finds for it to change. -/
def targets (d : Database) : AdminCall → List RowRef
  | .updateForm id guildId version _ =>
    (d.forms.rows.filter fun form => decide (form.id = id ∧ form.guildId = guildId ∧
      form.version = version)).map
      fun form => .form form.id
  | .deleteForm id guildId =>
    (d.forms.rows.filter fun form => decide (form.id = id ∧ form.guildId = guildId)).map fun form =>
      .form form.id
  | .unbindLinks formId => (d.boundLinks formId).map fun link => .link link.key
  | .saveLink guildId roleId .. => (d.roleLinks.rows.filter (·.key = (guildId, roleId))).map
    fun link => .link link.key
  | .deleteResponse id formId =>
    (d.responses.rows.filter fun row => decide (row.id = id ∧ row.formId = formId)).map fun row =>
      .response row.id
  | .deleteResponses formId => (d.formResponses formId).map fun row => .response row.id
  | _ => []

/-- Those of the rows that still match. -/
def matching (rows : List RowRef) (d : Database) (c : AdminCall) : List RowRef :=
  (d.targets c).filter (· ∈ rows)

/-- What a statement answers that has found these rows. -/
def answerOn (rows : List RowRef) (d : Database) : (c : AdminCall) → c.Answer
  | .updateForm id guildId version edit =>
  (d.matching rows (.updateForm id guildId version edit)).length
  | .deleteForm id guildId => (d.matching rows (.deleteForm id guildId)).length
  | .deleteResponse id formId => if .response id ∈ rows then d.answer (.deleteResponse id formId)
    else none
  | .deleteResponses formId => (d.matching rows (.deleteResponses formId)).length
  | c => d.answer c

/-- What a statement leaves that has found these rows. -/
def effectOn (rows : List RowRef) (now : Instant) (d : Database) : AdminCall → Database
  | .updateForm id guildId version edit =>
    { d with
      forms := d.forms.update (fun form => RowRef.form form.id ∈ rows ∧ form.id = id ∧
        form.guildId = guildId ∧
        form.version = version) (edit.set now) }
  | .deleteForm id guildId =>
    { d with forms := d.forms.delete fun form => RowRef.form form.id ∈ rows ∧ form.id = id ∧
      form.guildId = guildId }
  | .unbindLinks formId =>
    { d with
      roleLinks := d.roleLinks.update (fun link => RowRef.link link.key ∈ rows ∧
        link.formId = some formId) unbindSet }
  | .saveLink guildId roleId formId grantOnAnySubmission conditions =>
    { d with
      roleLinks := d.roleLinks.update (fun link => RowRef.link link.key ∈ rows ∧
        link.key = (guildId, roleId))
        (saveSet formId grantOnAnySubmission conditions) }
  | .deleteResponse id formId =>
    { d with
      responses := d.responses.delete fun row => RowRef.response row.id ∈ rows ∧ row.id = id ∧
        row.formId = formId }
  | .deleteResponses formId =>
    { d with responses := d.responses.delete fun row => RowRef.response row.id ∈ rows ∧
      row.formId = formId }
  | c => d.effect now c

def refusalOn (rows : List RowRef) (d : Database) : AdminCall → Option AppError
  | .updateForm id guildId version edit =>
    if d.matching rows (.updateForm id guildId version edit) = [] then none
    else d.refusal (.updateForm id guildId version edit)
  | c => d.refusal c

/-! A statement that has found all the rows it matches is the statement on the whole table. -/

section

variable {d : Database} {rows : List RowRef} {now : Instant}

private theorem matching_targets (c : AdminCall) : d.matching (d.targets c) c = d.targets c :=
  List.filter_eq_self.2 fun _ href => decide_eq_true href

/-- A row is among those that were found if it matches. -/
private theorem mem_found {ρ : Type} {t : List ρ} {p : ρ → Bool} {f : ρ → RowRef} {row : ρ}
    (hrow : row ∈ t) (hp : p row = true) : f row ∈ (t.filter p).map f :=
  List.mem_map_of_mem (List.mem_filter.2 ⟨hrow, hp⟩)

theorem effectOn_targets (c : AdminCall) : d.effectOn (d.targets c) now c = d.effect now c := by
  cases c with
  | updateForm id guildId version edit =>
    refine congrArg (fun forms : Table Form.id => { d with forms := forms })
      (Table.update_congr fun form hform => ?_)
    exact decide_eq_decide.2 (and_iff_right_of_imp fun h => mem_found hform (decide_eq_true h))
  | deleteForm id guildId =>
    refine congrArg (fun forms : Table Form.id => { d with forms := forms })
      (Table.delete_congr fun form hform => ?_)
    exact decide_eq_decide.2 (and_iff_right_of_imp fun h => mem_found hform (decide_eq_true h))
  | unbindLinks formId =>
    refine congrArg (fun links : Table RoleLink.key => { d with roleLinks := links })
      (Table.update_congr fun link hlink => ?_)
    exact decide_eq_decide.2 (and_iff_right_of_imp fun h => mem_found hlink (decide_eq_true h))
  | saveLink guildId roleId formId grantOnAnySubmission conditions =>
    refine congrArg (fun links : Table RoleLink.key => { d with roleLinks := links })
      (Table.update_congr fun link hlink => ?_)
    exact decide_eq_decide.2 (and_iff_right_of_imp fun h => mem_found hlink (decide_eq_true h))
  | deleteResponse id formId =>
    refine congrArg (fun responses : Table FormResponse.id => { d with responses := responses })
      (Table.delete_congr fun row hrow => ?_)
    exact decide_eq_decide.2 (and_iff_right_of_imp fun h => mem_found hrow (decide_eq_true h))
  | deleteResponses formId =>
    refine congrArg (fun responses : Table FormResponse.id => { d with responses := responses })
      (Table.delete_congr fun row hrow => ?_)
    exact decide_eq_decide.2 (and_iff_right_of_imp fun h => mem_found hrow (decide_eq_true h))
  | _ => rfl

theorem answerOn_targets (c : AdminCall) : d.answerOn (d.targets c) c = d.answer c := by
  cases c with
  | updateForm id guildId version edit =>
    rw [answerOn, matching_targets]
    exact List.length_map _
  | deleteForm id guildId =>
    rw [answerOn, matching_targets]
    exact List.length_map _
  | deleteResponses formId =>
    rw [answerOn, matching_targets]
    exact List.length_map _
  | deleteResponse id formId =>
    rw [answerOn]
    split
    · rfl
    · rename_i hmissing
      refine (Option.map_eq_none_iff.2 (List.find?_eq_none.2 fun row hrow hmatch =>
        hmissing ?_)).symm
      obtain ⟨rfl, hform⟩ := of_decide_eq_true hmatch
      exact mem_found hrow hmatch
  | _ => rfl

private theorem refusalOn_targets (c : AdminCall) : d.refusalOn (d.targets c) c = d.refusal c := by
  cases c with
  | updateForm id guildId version edit =>
    rw [refusalOn, matching_targets]
    split
    · rename_i hnone
      have hempty := List.filter_eq_nil_iff.1 (List.map_eq_nil_iff.1 hnone)
      refine (if_neg fun hany => ?_).symm
      obtain ⟨form, hform, hmatch⟩ := List.any_eq_true.1 hany
      have hmatch := of_decide_eq_true hmatch
      exact hempty form hform (decide_eq_true ⟨hmatch.1, hmatch.2.1, hmatch.2.2.1⟩)
    · rfl
  | _ => rfl

end

end Database

/-! ### Connections -/

/-- A change that waits for its `COMMIT`. -/
structure Write where
  call : AdminCall
  rows : List RowRef
  now : Instant

structure Connection (α : Type) where
  program : AdminProgram (Except AppError α)
  /-- The changes of the open transaction, the newest first. -/
  tx : Option (List Write) := none
  /-- The rows that the running statement has found. -/
  found : Option (List RowRef) := none

/-- What is there after the changes. -/
def applyWrites (ws : List Write) (d : Database) : Database :=
  ws.foldr (fun w d => d.effectOn w.rows w.now w.call) d

namespace Connection

variable {α : Type}

/-- The database as the connection finds it. -/
def view (d : Database) (conn : Connection α) : Database := applyWrites (conn.tx.getD []) d

/-- The rows that the transaction holds. -/
def locks (conn : Connection α) : List RowRef := (conn.tx.getD []).flatMap Write.rows

/-- The next statement starts. -/
def start (d : Database) (conn : Connection α) : Option (Connection α) :=
  match conn.program, conn.found with
  | .call c _, none => some { conn with found := some ((conn.view d).targets c) }
  | _, _ => none

/-- A statement that is carried out in the transaction, if there is one. -/
def change (rows : List RowRef) (now : Instant) (d : Database) (conn : Connection α)
    (c : AdminCall) :
    Option (List Write) × Database :=
  match conn.tx with
  | some ws => (some (⟨c, (conn.view d).matching rows c, now⟩ :: ws), d)
  | none => (none, d.effectOn rows now c)

def carry (rows : List RowRef) (now : Instant) (d : Database) (conn : Connection α) :
    AdminCall → Option (List Write) × Database
  | .begin => (some [], d)
  | .commit => (none, conn.view d)
  | c => conn.change rows now d c

/-- The running statement ends.  It fails at any time; else it waits for the rows that others
hold. -/
def finish (held : RowRef → Bool) (outcome : Outcome) (now : Instant) (d : Database)
    (conn : Connection α) :
    Option (Connection α × Database) :=
  match conn.program, conn.found with
  | .call c k, some rows =>
    let answered (tx : Option (List Write)) (r : Except AppError c.Answer) (d : Database) :=
      some ((⟨k r, tx, none⟩ : Connection α), d)
    match outcome with
    | .failed e => answered conn.tx (.error (.database e)) d
    | .done =>
      if rows.any held then none
      else match (conn.view d).refusalOn rows c with
        | some e => answered conn.tx (.error e) d
        | none => answered (conn.carry rows now d c).1 (.ok ((conn.view d).answerOn rows c))
          (conn.carry rows now d c).2
    | .lost e =>
      if rows.any held then none
      else match (conn.view d).refusalOn rows c with
        | some e => answered conn.tx (.error e) d
        | none => answered (conn.carry rows now d c).1 (.error (.database e))
          (conn.carry rows now d c).2
  | _, _ => none

/-- What the end of a statement leaves: the connection and the database as they were, with an error,
or with what the statement changes. -/
theorem finish_cases {held : RowRef → Bool} {outcome : Outcome} {now : Instant} {d d' : Database}
    {conn next : Connection α} (h : conn.finish held outcome now d = some (next, d')) :
    ∃ c k rows, conn.program = .call c k ∧ conn.found = some rows ∧
      (((∃ e, outcome = .failed e) ∨ ((conn.view d).refusalOn rows c).isSome) ∧
          (∃ e, next = ⟨k (.error e), conn.tx, none⟩) ∧ d' = d ∨
        rows.any held = false ∧ (conn.view d).refusalOn rows c = none ∧ ∃ r,
          (outcome = .done ∧ r = .ok ((conn.view d).answerOn rows c) ∨ ∃ e, outcome = .lost e ∧
            r = .error (.database e)) ∧
          next = ⟨k r, (conn.carry rows now d c).1, none⟩ ∧ d' = (conn.carry rows now d c).2) := by
  rw [finish] at h
  split at h
  · rename_i c k rows hprogram hfound
    refine ⟨c, k, rows, hprogram, hfound, ?_⟩
    cases outcome with
    | failed e =>
      obtain ⟨rfl, rfl⟩ := Prod.mk.inj (Option.some.inj h)
      exact Or.inl ⟨Or.inl ⟨e, rfl⟩, ⟨_, rfl⟩, rfl⟩
    | done =>
      simp only at h
      split at h
      · cases h
      · rename_i hfree
        split at h
        · rename_i hrefusal
          obtain ⟨rfl, rfl⟩ := Prod.mk.inj (Option.some.inj h)
          exact Or.inl ⟨Or.inr (by rw [hrefusal]; rfl), ⟨_, rfl⟩, rfl⟩
        · rename_i hrefusal
          obtain ⟨rfl, rfl⟩ := Prod.mk.inj (Option.some.inj h)
          exact Or.inr ⟨Bool.not_eq_true _ ▸ hfree, hrefusal, _, Or.inl ⟨rfl, rfl⟩, rfl, rfl⟩
    | lost e =>
      simp only at h
      split at h
      · cases h
      · rename_i hfree
        split at h
        · rename_i hrefusal
          obtain ⟨rfl, rfl⟩ := Prod.mk.inj (Option.some.inj h)
          exact Or.inl ⟨Or.inr (by rw [hrefusal]; rfl), ⟨_, rfl⟩, rfl⟩
        · rename_i hrefusal
          obtain ⟨rfl, rfl⟩ := Prod.mk.inj (Option.some.inj h)
          exact Or.inr ⟨Bool.not_eq_true _ ▸ hfree, hrefusal, _, Or.inr ⟨e, rfl, rfl⟩, rfl, rfl⟩
  · cases h

theorem start_eq_some {d : Database} {conn next : Connection α} (h : conn.start d = some next) :
    ∃ c k, conn.program = .call c k ∧ conn.found = none ∧
      next = { conn with found := some ((conn.view d).targets c) } := by
  rw [start] at h
  split at h
  · rename_i c k hprogram hfound
    exact ⟨c, k, hprogram, hfound, (Option.some.inj h).symm⟩
  · cases h

/-- The session of a connection. -/
def session (d : Database) (n : Nat) (conn : Connection α) : Session :=
  ⟨d, conn.tx.map (applyWrites · d), n⟩

private theorem current_session (d : Database) (n : Nat) (conn : Connection α) :
    (conn.session d n).current = conn.view d := by
  rw [session, Session.current, view]
  cases conn.tx <;> rfl

private theorem session_change {now : Instant} {d : Database} {n : Nat} {conn : Connection α}
    (c : AdminCall) (p : AdminProgram (Except AppError α)) :
    session (conn.change ((conn.view d).targets c) now d c).2 (n + 1)
        ⟨p, (conn.change ((conn.view d).targets c) now d c).1, none⟩ =
      Session.put ⟨d, conn.tx.map (applyWrites · d), n + 1⟩ ((conn.view d).effect now c) := by
  rw [change]
  cases htx : conn.tx with
  | none =>
    have hview : conn.view d = d := by rw [view, htx]; rfl
    rw [hview]
    exact congrArg (fun d => (⟨d, none, n + 1⟩ : Session)) (Database.effectOn_targets c)
  | some ws =>
    have hview : conn.view d = applyWrites ws d := by rw [view, htx]; rfl
    rw [hview, Database.matching_targets]
    exact congrArg (fun d' => (⟨d, some d', n + 1⟩ : Session)) (Database.effectOn_targets c)

/-- A statement that is carried out on all the rows it matches is one of the session. -/
theorem session_carry (weather : Weather) {d : Database} {n : Nat} {conn : Connection α}
    (c : AdminCall) (p : AdminProgram (Except AppError α)) :
    session (conn.carry ((conn.view d).targets c) (weather.clock n) d c).2 (n + 1)
        ⟨p, (conn.carry ((conn.view d).targets c) (weather.clock n) d c).1, none⟩ =
      (conn.session d n).after weather c := by
  have hcurrent := current_session d n conn
  have hchange : session (conn.change ((conn.view d).targets c) (weather.clock n) d c).2 (n + 1)
      ⟨p, (conn.change ((conn.view d).targets c) (weather.clock n) d c).1, none⟩ =
      Session.put { conn.session d n with calls := n + 1 }
          ((conn.session d n).current.effect (weather.clock n) c) := by
    rw [hcurrent]
    exact session_change c p
  cases c with
  | begin => rfl
  | commit => exact congrArg (fun d => (⟨d, none, n + 1⟩ : Session)) hcurrent.symm
  | _ => exact hchange

/-- A statement that ends as soon as it has started, with no one in its way, is served as in a
session. -/
theorem finish_start {weather : Weather} {d : Database} {n : Nat} {conn : Connection α}
    {c : AdminCall} {k : Except AppError c.Answer → AdminProgram (Except AppError α)}
    (hprogram : conn.program = .call c k) (hfound : conn.found = none) :
    ∃ next d', ((conn.start d).bind fun started =>
        started.finish (fun _ => false) (weather.outcome n) (weather.clock n) d) = some (next, d') ∧
      next.program = k (serveSql weather c (conn.session d n)).1 ∧
      next.session d' (n + 1) = (serveSql weather c (conn.session d n)).2 := by
  obtain ⟨program, tx, found⟩ := conn
  subst hprogram hfound
  let conn : Connection α := ⟨.call c k, tx, none⟩
  have hcurrent := current_session d n conn
  have hrefusal := congrArg (fun d : Database => d.refusal c) hcurrent
  have hanswer := congrArg (fun d : Database => d.answer c) hcurrent
  have hfree : ((conn.view d).targets c).any (fun _ => false) = false := by simp
  have hstart : conn.start d = some ⟨.call c k, tx, some ((conn.view d).targets c)⟩ := rfl
  have hview : view d (⟨.call c k, tx, some ((conn.view d).targets c)⟩ : Connection α) =
    conn.view d := rfl
  rw [hstart, Option.bind_some, finish]
  simp only [hview, hfree, Bool.false_eq_true, if_false, Database.refusalOn_targets,
    Database.answerOn_targets]
  cases houtcome : weather.outcome n with
  | failed e =>
    rw [serveSql_failed (s := conn.session d n) houtcome]
    exact ⟨_, _, rfl, rfl, rfl⟩
  | done =>
    cases hrefused : (conn.view d).refusal c with
    | some e =>
      rw [serveSql_refused (s := conn.session d n)
        (by rw [show (conn.session d n).calls = n from rfl, houtcome]; rfl)
        (hrefusal.trans hrefused)]
      exact ⟨_, _, rfl, rfl, rfl⟩
    | none =>
      rw [serveSql_done (s := conn.session d n) houtcome (hrefusal.trans hrefused), hanswer]
      exact ⟨_, _, rfl, rfl, session_carry weather c _⟩
  | lost e =>
    cases hrefused : (conn.view d).refusal c with
    | some e' =>
      rw [serveSql_refused (s := conn.session d n)
        (by rw [show (conn.session d n).calls = n from rfl, houtcome]; rfl)
        (hrefusal.trans hrefused)]
      exact ⟨_, _, rfl, rfl, rfl⟩
    | none =>
      rw [serveSql_lost (s := conn.session d n) houtcome (hrefusal.trans hrefused)]
      exact ⟨_, _, rfl, rfl, session_carry weather c _⟩

end Connection

end FormRespondentRole
