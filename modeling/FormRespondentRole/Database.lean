import FormRespondentRole.Error
import FormRespondentRole.Jobs
import FormRespondentRole.Foundations.Program

/-!
# The database of the admin API

The tables that the admin handlers read and write, and their statements.  Each constructor of
`AdminCall` is one statement, with the values it binds; `exec` is what it answers and what it
leaves.  Rows that an `ORDER BY` does not order stay in the order of the table.

A `Session` is the database with the open transaction of a handler, if it has one.  A statement may
fail, and it may be carried out while its answer is lost; a crash is the failure of everything that
follows.
-/

namespace FormRespondentRole

open Foundations

structure Database where
  forms : Table Form.id
  roleLinks : Table RoleLink.key
  responses : Table FormResponse.id
  guildSettings : Table GuildSettings.guildId
  jobs : JobTable

/-! ### Statements -/

/-- The columns that a save of the builder sets. -/
structure FormEdit where
  title : Text
  description : Text
  schema : Value
  isQuiz : Bool
  openAt : Option Instant
  closeAt : Option Instant
  allowEdits : Bool
  singleSubmission : Bool
  passingScore : Option Int32
  requireVerified : Bool
  minAccountAgeDays : Int32
  successMessage : Text
  webhookUrl : Option Text
  archived : Bool
  maxAttempts : Int32
  retryCooldownSeconds : Int32
  retryPolicy : Text
  lockOnPass : Bool

def FormEdit.set (edit : FormEdit) (now : Instant) : SetClause Form.id where
  set form :=
    { form with
      title := edit.title
      description := edit.description
      schema := edit.schema
      isQuiz := edit.isQuiz
      openAt := edit.openAt
      closeAt := edit.closeAt
      allowEdits := edit.allowEdits
      singleSubmission := edit.singleSubmission
      passingScore := edit.passingScore
      requireVerified := edit.requireVerified
      minAccountAgeDays := edit.minAccountAgeDays
      successMessage := edit.successMessage
      webhookUrl := edit.webhookUrl
      archived := edit.archived
      maxAttempts := edit.maxAttempts
      retryCooldownSeconds := edit.retryCooldownSeconds
      retryPolicy := edit.retryPolicy
      lockOnPass := edit.lockOnPass
      version := form.version + 1
      updatedAt := now }
  key_set _ := rfl

inductive AdminCall
  | begin
  | commit
  | ownsForm (id : Uuid) (guildId : Text)
  | selectForm (id : Uuid) (guildId : Text)
  | selectVersion (id : Uuid) (guildId : Text)
  /-- The forms of a guild, last updated first, with the numbers of their responses and links. -/
  | listForms (guildId : Text)
  /-- The forms of a guild, archived ones at the end, last updated first. -/
  | selectGuildForms (guildId : Text)
  | countResponses (formId guildId : Text)
  | countLinks (formId guildId : Text)
  /-- The rows of a form, last edited first, a thousand at most. -/
  | selectRecentResponses (formId : Text)
  /-- The rows of a form in the order of their submission. -/
  | selectResponses (formId : Text)
  | selectBound (formId : Text)
  | selectLink (guildId roleId : Text)
  | selectViewPermission (guildId : Text)
  | insertForm (form : Form)
  | updateForm (id : Uuid) (guildId : Text) (version : Int32) (edit : FormEdit)
  | deleteForm (id : Uuid) (guildId : Text)
  | unbindLinks (formId : Text)
  | saveLink (guildId roleId : Text) (formId : Option Text) (grantOnAnySubmission : Bool)
    (conditions : Value)
  | deleteResponse (id : Uuid) (formId : Text)
  | deleteResponses (formId : Text)
  | upsertViewPermission (guildId viewPermission : Text)
  | enqueuePlayerSync (payload : PlayerSyncPayload)
  | enqueueConfigSync (guildId roleId : Text)

/-- What a statement answers when it succeeds. -/
abbrev AdminCall.Answer : AdminCall → Type
  | begin | commit | unbindLinks _ | saveLink .. | upsertViewPermission .. | enqueuePlayerSync _
  | enqueueConfigSync .. => Unit
  | ownsForm .. => Bool
  | selectForm .. => Option Form
  | selectVersion .. => Option Int32
  | listForms _ => List (Form × Nat × Nat)
  | selectGuildForms _ => List Form
  | countResponses .. | countLinks .. | updateForm .. | deleteForm .. | deleteResponses _ => Nat
  | selectRecentResponses _ | selectResponses _ => List FormResponse
  | selectBound _ => List LinkKey
  | selectLink .. => Option RoleLink
  | selectViewPermission _ => Option Text
  -- `false` when the slug is taken
  | insertForm _ => Bool
  | deleteResponse .. => Option Text

/-- The debounce of a link's re-sync. -/
def configSyncDelaySecs : Nat := 5

def configSyncPayload (guildId roleId : Text) : Value :=
  .object [("guild_id".toList, .string guildId), ("role_id".toList, .string roleId)]

def unbindSet : SetClause RoleLink.key where
  set link := { link with formId := none }
  key_set _ := rfl

def saveSet (formId : Option Text) (grantOnAnySubmission : Bool) (conditions : Value) :
    SetClause RoleLink.key where
  set link := { link with formId := formId, grantOnAnySubmission := grantOnAnySubmission,
                          conditions := conditions }
  key_set _ := rfl

def viewPermissionSet (viewPermission : Text) : SetClause GuildSettings.guildId where
  set settings := { settings with viewPermission := viewPermission }
  key_set _ := rfl

namespace Database

def form? (d : Database) (id : Uuid) (guildId : Text) : Option Form :=
  d.forms.rows.find? fun form => decide (form.id = id ∧ form.guildId = guildId)

def formResponses (d : Database) (formId : Text) : List FormResponse :=
  d.responses.rows.filter (·.formId = formId)

def boundLinks (d : Database) (formId : Text) : List RoleLink :=
  d.roleLinks.rows.filter (·.formId = some formId)

def upsertViewPermission (d : Database) (guildId viewPermission : Text) :
    Table GuildSettings.guildId :=
  if h : guildId ∉ d.guildSettings.rows.map GuildSettings.guildId then
    d.guildSettings.insert ⟨guildId, viewPermission⟩ h
  else d.guildSettings.update (·.guildId = guildId) (viewPermissionSet viewPermission)

/-- What a statement answers. -/
def answer (d : Database) : (c : AdminCall) → c.Answer
  | .begin | .commit | .unbindLinks _ | .saveLink .. | .upsertViewPermission ..
  | .enqueuePlayerSync _
  | .enqueueConfigSync .. => ()
  | .ownsForm id guildId => (d.form? id guildId).isSome
  | .selectForm id guildId => d.form? id guildId
  | .selectVersion id guildId => (d.form? id guildId).map (·.version)
  | .listForms guildId =>
    ((d.forms.rows.filter (·.guildId = guildId)).insertionSort fun a b =>
      b.updatedAt ≤ a.updatedAt).map fun form =>
      (form, (d.formResponses form.id.text).length, (d.boundLinks form.id.text).length)
  | .selectGuildForms guildId =>
    (d.forms.rows.filter (·.guildId = guildId)).insertionSort fun a b =>
      a.archived < b.archived ∨ a.archived = b.archived ∧ b.updatedAt ≤ a.updatedAt
  | .countResponses formId guildId =>
    ((d.formResponses formId).flatMap fun row =>
      d.forms.rows.filter fun form => decide (form.id.text = row.formId ∧
        form.guildId = guildId)).length
  | .countLinks formId guildId =>
    ((d.boundLinks formId).flatMap fun link =>
      d.forms.rows.filter fun form => decide (some form.id.text = link.formId ∧
        form.guildId = guildId)).length
  | .selectRecentResponses formId =>
    ((d.formResponses formId).insertionSort fun a b => b.lastEditedAt ≤ a.lastEditedAt).take 1000
  | .selectResponses formId => (d.formResponses formId).insertionSort fun a b =>
    a.submittedAt ≤ b.submittedAt
  | .selectBound formId => (d.boundLinks formId).map RoleLink.key
  | .selectLink guildId roleId => d.roleLinks.rows.find? (·.key = (guildId, roleId))
  | .selectViewPermission guildId =>
    (d.guildSettings.rows.find? (·.guildId = guildId)).map (·.viewPermission)
  | .insertForm form => decide (form.slug ∉ d.forms.rows.map (·.slug))
  | .updateForm id guildId version _ =>
    (d.forms.rows.filter fun form => decide (form.id = id ∧ form.guildId = guildId ∧
      form.version = version)).length
  | .deleteForm id guildId =>
    (d.forms.rows.filter fun form => decide (form.id = id ∧ form.guildId = guildId)).length
  | .deleteResponse id formId =>
    (d.responses.rows.find? fun row => decide (row.id = id ∧ row.formId = formId)).map (·.discordId)
  | .deleteResponses formId => (d.formResponses formId).length

/-- What a statement leaves. -/
def effect (now : Instant) (d : Database) : AdminCall → Database
  | .insertForm form =>
    if h : form.id ∉ d.forms.rows.map Form.id then
      if form.slug ∉ d.forms.rows.map (·.slug) then
        { d with forms := d.forms.insert { form with updatedAt := now } h }
      else d
    else d
  | .updateForm id guildId version edit =>
    { d with
      forms := d.forms.update (fun form => form.id = id ∧ form.guildId = guildId ∧
        form.version = version)
        (edit.set now) }
  | .deleteForm id guildId => { d with forms := d.forms.delete fun form => form.id = id ∧
    form.guildId = guildId }
  | .unbindLinks formId =>
    { d with roleLinks := d.roleLinks.update (·.formId = some formId) unbindSet }
  | .saveLink guildId roleId formId grantOnAnySubmission conditions =>
    { d with
      roleLinks := d.roleLinks.update (·.key = (guildId, roleId))
        (saveSet formId grantOnAnySubmission conditions) }
  | .deleteResponse id formId => { d with responses := d.responses.delete fun row => row.id = id ∧
    row.formId = formId }
  | .deleteResponses formId => { d with responses := d.responses.delete (·.formId = formId) }
  | .upsertViewPermission guildId viewPermission =>
    { d with guildSettings := d.upsertViewPermission guildId viewPermission }
  | .enqueuePlayerSync payload =>
    { d with jobs := d.jobs.enqueue now .playerSync payload.toValue 0 }
  | .enqueueConfigSync guildId roleId =>
    { d with jobs := d.jobs.enqueue now .configSync
               (configSyncPayload guildId roleId) configSyncDelaySecs }
  | _ => d

/-- The error of a statement that the database refuses: a version out of the range of its column, or
an id that is taken. -/
def refusal (d : Database) : AdminCall → Option AppError
  | .updateForm id guildId version _ =>
    if d.forms.rows.any fun form => decide (form.id = id ∧ form.guildId = guildId ∧
      form.version = version ∧
        form.version = Int32.maxValue) then
      some (.database "integer out of range".toList)
    else none
  | .insertForm form =>
    if form.id ∈ d.forms.rows.map Form.id then
      some (.database "duplicate key value violates unique constraint \"forms_pkey\"".toList)
    else none
  | _ => none

end Database

/-! ### Sessions -/

structure Session where
  db : Database
  /-- The open transaction, with what it sees. -/
  tx : Option Database := none
  /-- The statements made so far. -/
  calls : Nat := 0

inductive Outcome
  | done
  | failed (e : Text)
  /-- Carried out, and the answer is lost. -/
  | lost (e : Text)

/-- What the statements of a run meet, by their number. -/
structure Weather where
  clock : Nat → Instant
  outcome : Nat → Outcome

namespace Session

/-- The database as the next statement finds it. -/
def current (s : Session) : Database := s.tx.getD s.db

def put (s : Session) (d : Database) : Session :=
  if s.tx.isSome then { s with tx := some d } else { s with db := d }

/-- A statement that is carried out. -/
def exec (now : Instant) (s : Session) : (c : AdminCall) → Session
  | .begin => { s with tx := some s.db }
  | .commit => { s with db := s.current, tx := none }
  | c => s.put (s.current.effect now c)

end Session

def serveSql (weather : Weather) (c : AdminCall) (s : Session) :
    Except AppError c.Answer × Session :=
  let next := { s with calls := s.calls + 1 }
  match weather.outcome s.calls, s.current.refusal c with
  | .failed e, _ => (.error (.database e), next)
  | _, some e => (.error e, next)
  | .done, none => (.ok (s.current.answer c), next.exec (weather.clock s.calls) c)
  | .lost e, none => (.error (.database e), next.exec (weather.clock s.calls) c)

abbrev AdminProgram := Program AdminCall fun c => Except AppError c.Answer

abbrev AdminM := ExceptT AppError AdminProgram

abbrev query (c : AdminCall) : AdminM c.Answer := Program.ask c

abbrev tryQuery (c : AdminCall) : AdminM (Except AppError c.Answer) := Program.attempt c

end FormRespondentRole
