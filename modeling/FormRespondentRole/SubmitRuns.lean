import FormRespondentRole.Submit
import FormRespondentRole.Foundations.Reachability

/-!
# Concurrent submits

Any number of `post_submit` transactions interleave statement by statement, under READ COMMITTED: a
statement reads what is committed, and what a transaction writes shows at its commit.  `FOR SHARE`
keeps the form as it was loaded until the transaction ends, and the advisory lock of a member on a
form that keeps one response is held by one transaction at a time, until it ends.  Clock readings
are given by the events.

`accepted` lists the submits that have committed, newest first.  The program does not keep
it. -/

namespace FormRespondentRole

open Foundations

/-- What a transaction has done so far. -/
inductive SubmitPhase
  | begun
  /-- The form is loaded `FOR SHARE`. -/
  | loaded (form : Form)
  /-- The checks have passed, by the clock reading `now`. -/
  | admitted (form : Form) (now : Instant) (g : Graded)
  /-- The advisory lock is held. -/
  | locked (form : Form) (now : Instant) (g : Graded)
  /-- The member's canonical row is read. -/
  | decided (form : Form) (now : Instant) (g : Graded) (existing : Option CanonicalAttempt)
  /-- The response is written, and the jobs are enqueued, in the transaction. -/
  | written (form : Form) (now : Instant) (g : Graded) (write : ResponseWrite) (newId : Uuid)
    (jobsNow : Instant)

structure SubmitTx where
  submission : Submission
  /-- The transaction's `now()`. -/
  startedAt : Instant
  phase : SubmitPhase

structure Accepted where
  form : Form
  submission : Submission
  graded : Graded
  /-- The clock reading that the checks went by. -/
  admittedAt : Instant
  /-- The time that the row records. -/
  recordedAt : Instant
  reply : Value

structure SubmitState where
  forms : Table Form.id
  responses : ResponseTable
  jobs : JobTable
  transactions : List SubmitTx
  accepted : List Accepted

/-- What the transactions call outside the repository. -/
structure SubmitLibs where
  validator : FormValidator
  hashtextextended : Text → BitVec 64
  toRfc3339 : Instant → Text
  baseUrl : Text

inductive TxEvent
  | load
  | vet (now ageNow : Instant) (guildIds : Except AppError (List Text))
  | lock
  /-- The latest of the member's rows; any of them when several were edited last. -/
  | read (latest : Option Uuid)
  | write (newId : Uuid) (jobsNow : Instant)

inductive SubmitEvent
  | begin (submission : Submission) (now : Instant)
  | advance (i : Nat) (e : TxEvent)
  | commit (i : Nat)
  /-- A failed statement, a dropped connection or a crash. -/
  | abort (i : Nat)
  /-- The form of this id is replaced. -/
  | editForm (form : Form)

/-- The form and the member of a response. -/
abbrev PairKey := Text × Text

def FormResponse.pair (row : FormResponse) : PairKey := (row.formId, row.discordId)

def Accepted.pair (a : Accepted) : PairKey := (a.form.id.text, a.submission.discordId)

def rowsOf (pair : PairKey) (t : ResponseTable) : List FormResponse := t.rows.filter (·.pair = pair)

namespace SubmitTx

def form? (tx : SubmitTx) : Option Form :=
  match tx.phase with
  | .begun => none
  | .loaded form | .admitted form .. | .locked form .. | .decided form .. | .written form .. =>
    some form

def pair (tx : SubmitTx) (form : Form) : PairKey := (form.id.text, tx.submission.discordId)

def lockText (pair : PairKey) : Text := pair.1 ++ ":".toList ++ pair.2

/-- The advisory lock that the transaction holds. -/
def lock? (hashtextextended : Text → BitVec 64) (tx : SubmitTx) : Option (BitVec 64) :=
  match tx.phase with
  | .locked form .. | .decided form .. => some (hashtextextended (lockText (tx.pair form)))
  | .written form .. => if form.keepsOne then some (hashtextextended (lockText (tx.pair form)))
    else none
  | _ => none

def goto (tx : SubmitTx) (phase : SubmitPhase) : SubmitTx := { tx with phase := phase }

def binds (tx : SubmitTx) (form : Form) (g : Graded) (newId : Uuid) : WriteBinds where
  newId := newId
  formId := form.id.text
  guildId := form.guildId
  discordId := tx.submission.discordId
  answers := g.answers
  version := form.version
  now := tx.startedAt

end SubmitTx

/-- `ORDER BY last_edited_at DESC LIMIT 1`, with the choice among the latest rows made by
`latest`. -/
def readCanonical (pair : PairKey) (t : ResponseTable) :
    Option Uuid → Option (Option CanonicalAttempt)
  | none => if rowsOf pair t = [] then some none else none
  | some id =>
    ((rowsOf pair t).find? fun row =>
      decide (row.id = id) && (rowsOf pair t).all fun other =>
        decide (other.lastEditedAt ≤ row.lastEditedAt)).map
        fun row => some row.toCanonical

section

variable (libs : SubmitLibs)

/-- One step of a transaction that leaves the database as it is: `none` when it is not enabled or
has to wait, and otherwise the transaction, unless it is rolled back. -/
def txStep (s : SubmitState) (others : List SubmitTx) (tx : SubmitTx) :
    TxEvent → Option (Option SubmitTx)
  | .load =>
    match tx.phase with
    | .begun => some ((s.forms.rows.find? (·.slug = tx.submission.slug)).map fun form =>
      tx.goto (.loaded form))
    | _ => none
  | .vet now ageNow guildIds =>
    match tx.phase with
    | .loaded form =>
      match admitSubmit libs.validator form tx.submission now ageNow guildIds with
      | .ok g => some (some (tx.goto (.admitted form now g)))
      | .error _ => some none
    | _ => none
  | .lock =>
    match tx.phase with
    | .admitted form now g =>
      let key := libs.hashtextextended (SubmitTx.lockText (tx.pair form))
      if form.keepsOne && others.all fun other => other.lock? libs.hashtextextended ≠ some key then
        some (some (tx.goto (.locked form now g)))
      else none
    | _ => none
  | .read latest =>
    match tx.phase with
    | .locked form now g =>
      (readCanonical (tx.pair form) s.responses latest).map fun existing =>
        some (tx.goto (.decided form now g existing))
    | _ => none
  | .write newId jobsNow =>
    match tx.phase with
    | .admitted form now g =>
      if form.keepsOne then none
      else
        match submitWrite form now g none with
        | .ok write => some (some (tx.goto (.written form now g write newId jobsNow)))
        | .error _ => some none
    | .decided form now g existing =>
      match submitWrite form now g existing with
      | .ok write => some (some (tx.goto (.written form now g write newId jobsNow)))
      | .error _ => some none
    | _ => none

/-- The jobs of an accepted submit: the member's sync, and the form's webhook. -/
def enqueueJobs (tx : SubmitTx) (form : Form) (g : Graded) (responseId : Text) (jobsNow : Instant)
    (t : JobTable) :
    JobTable :=
  let t := t.enqueue tx.startedAt .playerSync
    (PlayerSyncPayload.updated tx.submission.discordId).toValue 0
  match form.webhookUrl with
  | none => t
  | some url =>
    if (Text.trim url).isEmpty then t
    else
      t.enqueue tx.startedAt .webhook
        (.object [("body".toList,
          buildPayload libs.toRfc3339 jobsNow form tx.submission responseId libs.baseUrl
          g.totalScore), ("url".toList, .string url)]) 0

/-- The commit of a transaction that has written; `none` for any other. -/
def commitTx (s : SubmitState) (others : List SubmitTx) (tx : SubmitTx) : Option SubmitState :=
  match tx.phase with
  | .written form now g write newId jobsNow =>
    let binds := tx.binds form g newId
    let responseId := (write.rowId binds).text
    (write.apply binds s.responses).map fun responses =>
      { s with
        responses := responses
        jobs := enqueueJobs libs tx form g responseId jobsNow s.jobs
        transactions := others
        accepted := ⟨form, tx.submission, g, now, tx.startedAt,
          submitReply libs.toRfc3339 form now g write responseId⟩ :: s.accepted }
  | _ => none

def replaceForm (form : Form) : SetClause Form.id where
  set row := if row.id = form.id then form else row
  key_set row := by
    split
    · rename_i h
      exact h.symm
    · rfl

def submitStep (s : SubmitState) : SubmitEvent → Option SubmitState
  | .begin submission now =>
  some { s with transactions := ⟨submission, now, .begun⟩ :: s.transactions }
  | .advance i e =>
    (partyAt s.transactions i).bind fun (pre, tx, post) =>
      (txStep libs s (pre ++ post) tx e).map fun next =>
        { s with transactions := pre ++ next.toList ++ post }
  | .commit i => (partyAt s.transactions i).bind fun (pre, tx, post) =>
    commitTx libs s (pre ++ post) tx
  | .abort i => (partyAt s.transactions i).map fun (pre, _, post) =>
    { s with transactions := pre ++ post }
  | .editForm form =>
    -- waits for the share locks on the row
    if s.transactions.all fun tx => (tx.form?.map (·.id)) ≠ some form.id then
      some { s with forms := s.forms.update (·.id = form.id) (replaceForm form) }
    else none

def submitSystem : System SubmitState SubmitEvent := ⟨submitStep libs⟩

end

end FormRespondentRole
