import FormRespondentRole.Connections
import FormRespondentRole.Foundations.Protocol

/-!
# The service

The requests of the admin pages, the submits, and the calls of RoleLogic, all on one database.
Requests run statement by statement as connections do, and submits step by step.  Either waits for
the rows that the other holds: a submit holds the form that it has loaded `FOR SHARE` and the row
that it has read `FOR UPDATE`, and a transaction of a request holds the rows that it has changed.

The id of a new form has never been the id of a form before.  `homes` remembers the guilds of the
forms that there have been; the program does not keep it.
-/

namespace FormRespondentRole

open Foundations

/-! ### Links -/

/-- The statements that add and remove links: those of `register` and `delete_config`, and what a
sync does with a link that RoleLogic does not know any more. -/
inductive LinkCall
  | register (guildId roleId apiToken : Text)
  | insertSettings (guildId : Text)
  | deleteConfig (guildId roleId apiToken : Text)
  | deleteOrphan (guildId roleId : Text)

def freshLink (guildId roleId apiToken : Text) : RoleLink :=
  { guildId := guildId, roleId := roleId, apiToken := apiToken }

def tokenSet (apiToken : Text) : SetClause RoleLink.key where
  set link := { link with apiToken := apiToken }
  key_set _ := rfl

/-- The link that a statement adds or removes. -/
def LinkCall.target? : LinkCall → Option LinkKey
  | register guildId roleId _ | deleteConfig guildId roleId _ | deleteOrphan guildId roleId =>
  some (guildId, roleId)
  | insertSettings _ => none

def Database.link (d : Database) : LinkCall → Database
  | .register guildId roleId apiToken =>
    if h : (freshLink guildId roleId apiToken).key ∉ d.roleLinks.rows.map RoleLink.key then
      { d with roleLinks := d.roleLinks.insert (freshLink guildId roleId apiToken) h }
    else { d with roleLinks := d.roleLinks.update (·.key = (guildId, roleId)) (tokenSet apiToken) }
  | .insertSettings guildId =>
    if h : guildId ∉ d.guildSettings.rows.map GuildSettings.guildId then
      { d with guildSettings := d.guildSettings.insert { guildId := guildId } h }
    else d
  | .deleteConfig guildId roleId apiToken =>
    { d with roleLinks := d.roleLinks.delete fun link => link.key = (guildId, roleId) ∧
      link.apiToken = apiToken }
  | .deleteOrphan guildId roleId =>
    { d with roleLinks := d.roleLinks.delete (·.key = (guildId, roleId)) }

/-! ### The rows that submits hold -/

/-- The row that a submit updates. -/
def ResponseWrite.updated? : ResponseWrite → Option Uuid
  | insert .. => none
  | edit id .. | overwrite id .. | record id .. => some id

def SubmitTx.locks (tx : SubmitTx) : List RowRef :=
  match tx.phase with
  | .begun => []
  | .loaded form | .admitted form .. | .locked form .. => [.form form.id]
  | .decided form _ _ existing => .form form.id ::
    (existing.map fun r => RowRef.response r.id).toList
  | .written form _ _ write .. => .form form.id :: (write.updated?.map RowRef.response).toList

theorem SubmitTx.form_mem_locks {tx : SubmitTx} {form : Form} (h : tx.form? = some form) :
    .form form.id ∈ tx.locks := by
  rw [form?] at h
  rw [locks]
  cases hphase : tx.phase with
  | begun =>
    rw [hphase] at h
    cases h
  | loaded | admitted | locked =>
    rw [hphase] at h
    cases h
    exact List.mem_singleton_self _
  | decided | written =>
    rw [hphase] at h
    cases h
    exact List.mem_cons_self

/-! ### States and steps -/

/-- A request of a guild's manager, past the checks of who is asking. -/
structure AdminTask where
  guildId : Text
  conn : Connection Reply

def AdminTask.of (libs : AdminLibs) (guildId : Text) (req : AdminRequest) : AdminTask :=
  ⟨guildId, ⟨(req.program libs guildId).run, none, none⟩⟩

structure Service where
  db : Database
  submits : List SubmitTx
  accepted : List Accepted
  requests : List AdminTask
  homes : Uuid → Option Text

inductive ServiceEvent
  | submit (e : SubmitEvent)
  | request (guildId : Text) (req : AdminRequest)
  /-- The next statement of a request starts. -/
  | start (i : Nat)
  /-- The running statement of a request ends. -/
  | finish (i : Nat) (outcome : Outcome) (now : Instant)
  /-- A request is done with, or dropped. -/
  | close (i : Nat)
  | link (c : LinkCall)

namespace Service

/-- What the submits work on. -/
def submitState (s : Service) : SubmitState :=
  ⟨s.db.forms, s.db.responses, s.db.jobs, s.submits, s.accepted⟩

def withSubmitState (s : Service) (t : SubmitState) : Service :=
  { s with
    db := { s.db with forms := t.forms, responses := t.responses, jobs := t.jobs }
    submits := t.transactions
    accepted := t.accepted }

def heldBy (requests : List AdminTask) (row : RowRef) : Bool :=
  requests.any fun task => decide (row ∈ task.conn.locks)

/-- Whether one of these requests, or a submit, holds the row. -/
def held (s : Service) (requests : List AdminTask) (row : RowRef) : Bool :=
  heldBy requests row || s.submits.any fun tx => decide (row ∈ tx.locks)

/-- A submit has to wait for a request. -/
def waits (s : Service) : SubmitEvent → Bool
  | .advance i .load =>
    (partyAt s.submits i).any fun (_, tx, _) =>
      (s.db.forms.rows.find? (·.slug = tx.submission.slug)).any fun form =>
        heldBy s.requests (.form form.id)
  | .advance _ (.read latest) => latest.any fun id => heldBy s.requests (.response id)
  -- forms are edited by the requests
  | .editForm _ => true
  | _ => false

/-- The running statement would insert a form under the id of an earlier one. -/
def reusesId (s : Service) (conn : Connection Reply) : Bool :=
  match conn.program with
  | .call (.insertForm form) _ => (s.homes form.id).isSome
  | _ => false

/-- The forms that are there are remembered. -/
def remember (s : Service) : Service :=
  { s with homes := fun id =>
    (s.homes id).or ((s.db.forms.rows.find? (·.id = id)).map (·.guildId)) }

end Service

section

variable (libs : AdminLibs) (submitLibs : SubmitLibs)

def serviceStep (s : Service) : ServiceEvent → Option Service
  | .submit e => if s.waits e then none
  else (submitStep submitLibs s.submitState e).map s.withSubmitState
  | .request guildId req => some { s with requests := .of libs guildId req :: s.requests }
  | .start i =>
    (partyAt s.requests i).bind fun (pre, task, post) =>
      (task.conn.start s.db).map fun conn =>
        { s with requests := pre ++ { task with conn := conn } :: post }
  | .finish i outcome now =>
    (partyAt s.requests i).bind fun (pre, task, post) =>
      if s.reusesId task.conn then none
      else (task.conn.finish (s.held (pre ++ post)) outcome now s.db).map fun (conn, db) =>
        { s with db := db, requests := pre ++ { task with conn := conn } :: post }.remember
  | .close i => (partyAt s.requests i).map fun (pre, _, post) => { s with requests := pre ++ post }
  | .link c =>
    if c.target?.any fun key => s.held s.requests (.link key) then none
      else some { s with db := s.db.link c }

def serviceSystem : System Service ServiceEvent := ⟨serviceStep libs submitLibs⟩

end

/-- Nothing is under way. -/
def Service.Quiet (s : Service) : Prop := s.submits = [] ∧ s.requests = []

/-! ### Form ids in requests -/

namespace AdminRequest

/-- The form that a request names. -/
def formId? : AdminRequest → Option Text
  | builderData formId | updateForm formId _ | deleteForm formId | duplicateForm formId _
  | responsesData formId
  | responsesCsv formId | deleteResponse formId _ | deleteAllResponses formId => some formId
  | roleConfigSave _ body => body.boundFormId
  | listData | createForm .. | roleConfigData _ | setViewPermission _ => none

/-- A form id that reads as a UUID is its canonical text. -/
def Canonical (libs : AdminLibs) (req : AdminRequest) : Prop :=
  ∀ formId, req.formId? = some formId → ∀ u, libs.parseUuid formId = some u → formId = u.text

end AdminRequest

end FormRespondentRole
