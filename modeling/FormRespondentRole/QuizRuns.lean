import FormRespondentRole.FormGate

/-!
# Submits and page loads

The submits of `SubmitRuns` beside loads of the form page, with what each caller is answered: the
error by which a transaction is rolled back, the reply after its commit, or the page.
-/

namespace FormRespondentRole

open Foundations

/-- A load of the page by a member who is signed in. -/
structure PageLoad where
  slug : Text
  discordId : Text
  displayName : Text
  now : Instant
  ageNow : Instant
  guildIds : Except AppError (List Text)

inductive QuizEvent
  | submit (e : SubmitEvent)
  /-- `latest` is the row that the query for the member's latest one gives. -/
  | page (load : PageLoad) (latest : Option Uuid)

section

variable (libs : SubmitLibs)

/-- The page as it is answered; `none` when the query does not give this row. -/
def PageLoad.answer (s : SubmitState) (load : PageLoad) (latest : Option Uuid) :
    Option (Except AppError FormPage) :=
  let page (loaded : Option Form) (existing : Option CanonicalAttempt) :=
    getForm libs.toRfc3339 load.slug loaded (some (load.discordId, load.displayName)) load.now
      load.ageNow load.guildIds
      existing
  match s.forms.rows.find? (·.slug = load.slug) with
  | none => some (page none none)
  | some form => (readCanonical (form.id.text, load.discordId) s.responses latest).map
    (page (some form))

def quizStep (s : SubmitState) : QuizEvent → Option SubmitState
  | .submit e => submitStep libs s e
  | .page load latest => (load.answer libs s latest).map fun _ => s

def quizSystem : System SubmitState QuizEvent := ⟨quizStep libs⟩

def errorOf {α : Type} : Except AppError α → Option AppError
  | .error e => some e
  | .ok _ => none

/-- The error by which a step of a transaction rolls it back. -/
def txError (s : SubmitState) (tx : SubmitTx) : TxEvent → Option AppError
  | .load =>
    match tx.phase with
    | .begun =>
      match s.forms.rows.find? (·.slug = tx.submission.slug) with
      | none => some (.formNotFound tx.submission.slug)
      | some _ => none
    | _ => none
  | .vet now ageNow guildIds =>
    match tx.phase with
    | .loaded form => errorOf (admitSubmit libs.validator form tx.submission now ageNow guildIds)
    | _ => none
  | .lock | .read _ => none
  | .write _ _ =>
    match tx.phase with
    | .admitted form now g => errorOf (submitWrite form now g none)
    | .decided form now g existing => errorOf (submitWrite form now g existing)
    | _ => none

/-- The reply that a transaction gives when it commits. -/
def SubmitTx.reply (tx : SubmitTx) : Option Value :=
  match tx.phase with
  | .written form now g write newId _ =>
    some (submitReply libs.toRfc3339 form now g write (write.rowId (tx.binds form g newId)).text)
  | _ => none

/-- What the caller of a submit is answered at this step. -/
def submitAnswer (s : SubmitState) : SubmitEvent → Option (Except AppError Value)
  | .advance i e => (partyAt s.transactions i).bind fun (_, tx, _) =>
  (txError libs s tx e).map .error
  | .commit i => (partyAt s.transactions i).bind fun (_, tx, _) => (tx.reply libs).map .ok
  | _ => none

/-- What is answered: to a submit, or to a page load. -/
inductive QuizAnswer
  | submitted (reply : Except AppError Value)
  | page (answer : Except AppError FormPage)

def quizAnswer (s : SubmitState) : QuizEvent → Option QuizAnswer
  | .submit e => (submitAnswer libs s e).map .submitted
  | .page load latest => (load.answer libs s latest).map .page

end

section

variable {libs : SubmitLibs} {s s' : SubmitState} {tx : SubmitTx} {others : List SubmitTx}

/-- A step rolls its transaction back when it has an error to answer. -/
theorem txStep_rollback {e : TxEvent} {next : Option SubmitTx}
    (h : txStep libs s others tx e = some next) :
    next = none ↔ ∃ error, txError libs s tx e = some error := by
  cases e with
  | load =>
    simp only [txStep] at h
    split at h
    · rename_i hphase
      simp only [txError, hphase]
      cases hform : s.forms.rows.find? (·.slug = tx.submission.slug) with
      | none =>
        rw [hform] at h
        cases h
        simp
      | some form =>
        rw [hform] at h
        cases h
        simp
    · cases h
  | vet now ageNow guildIds =>
    simp only [txStep] at h
    split at h
    · rename_i form hphase
      simp only [txError, hphase]
      split at h
      · rename_i g hvetted
        cases h
        simp [hvetted, errorOf]
      · rename_i error hvetted
        cases h
        simp [hvetted, errorOf]
    · cases h
  | lock =>
    simp only [txStep] at h
    split at h
    · obtain ⟨-, hnext⟩ := Option.ite_none_right_eq_some.1 h
      cases hnext
      simp [txError]
    · cases h
  | read latest =>
    simp only [txStep] at h
    split at h
    · obtain ⟨existing, -, rfl⟩ := Option.map_eq_some_iff.1 h
      simp [txError]
    · cases h
  | write newId jobsNow =>
    simp only [txStep] at h
    split at h
    · rename_i form now g hphase
      simp only [txError, hphase]
      split at h
      · cases h
      split at h
      · rename_i write hwrite
        cases h
        simp [hwrite, errorOf]
      · rename_i error hwrite
        cases h
        simp [hwrite, errorOf]
    · rename_i form now g existing hphase
      simp only [txError, hphase]
      split at h
      · rename_i write hwrite
        cases h
        simp [hwrite, errorOf]
      · rename_i error hwrite
        cases h
        simp [hwrite, errorOf]
    · cases h

end

end FormRespondentRole
