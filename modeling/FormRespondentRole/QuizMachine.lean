import FormRespondentRole.QuizRuns

/-!
# A quiz without its answers

A machine that knows of a member's attempts only when they are made, whether they are valid and
whether they pass, and answers the member as the program does.  Scores go into what the program
writes, but not into the part of it that it answers by (`governedWrite_blind`).
-/

namespace FormRespondentRole

open Foundations

/-! ### Attempts without their scores -/

/-- There is a score, whichever it is. -/
def hideScore (score : Option Int32) : Option Int32 := score.map fun _ => 0

def Graded.blind (g : Graded) : Graded := ⟨.null, hideScore g.totalScore, g.passed⟩

def CanonicalAttempt.blind (r : CanonicalAttempt) : CanonicalAttempt :=
  { r with
    id := 0
    totalScore := hideScore r.totalScore }

/-- A write without its score, and whether or not it keeps the stored answers. -/
def ResponseWrite.blind : ResponseWrite → ResponseWrite
  | insert n score passed | overwrite _ n score passed | record _ n score passed =>
  .insert n (hideScore score) passed
  | edit _ score passed => .edit 0 (hideScore score) passed

/-- The row as an attempt leaves it. -/
def ResponseWrite.leaves (startedAt : Instant) : ResponseWrite → Option CanonicalAttempt
  | insert n score passed | overwrite _ n score passed | record _ n score passed =>
  some ⟨0, n, score, passed, startedAt⟩
  | edit .. => none

/-- The reply of a quiz to an attempt that is written. -/
def quizReply (toRfc3339 : Instant → Text) (form : Form) (now : Instant) (passed : Option Bool)
    (write : ResponseWrite) :
    Value :=
  let config := form.retryConfig
  let attemptsLeft := (write.attemptCount form).bind fun n =>
    if 0 < config.maxAttempts then some (max (config.maxAttempts - n) 0) else none
  let nextAttemptAt := (write.attemptCount form).bind fun _ =>
    if 0 < config.cooldownSeconds then some (now + seconds config.cooldownSeconds) else none
  .object [("attempts_left".toList, optionValue Int32.toValue attemptsLeft),
    ("message".toList, .string form.successMessage),
    ("next_attempt_at".toList, optionValue (fun t => .string (toRfc3339 t)) nextAttemptAt),
    ("passed".toList, .bool (passed.getD true)),
    ("retries_enabled".toList, .bool (form.isRetryGoverned && config.retriesEnabled)),
      ("success".toList, .bool true)]

section

variable {libs : SubmitLibs} {form : Form} {submission : Submission} {now : Instant} {g : Graded}
  {existing : Option CanonicalAttempt}

private theorem nextAttempt_blind (policy : Retry.Policy) (r : CanonicalAttempt) (g : Graded) :
    let a := Retry.nextAttempt policy r.toExisting ⟨g.totalScore, g.passed⟩
    let b := Retry.nextAttempt policy r.blind.toExisting ⟨g.blind.totalScore, g.blind.passed⟩
    b.attemptCount = a.attemptCount ∧ hideScore b.totalScore = hideScore a.totalScore ∧
        b.passed = a.passed := by
  obtain ⟨id, n, best, passed, edited⟩ := r
  obtain ⟨answers, score, passed'⟩ := g
  cases policy with
  | keepLatest => cases score <;> exact ⟨rfl, rfl, rfl⟩
  | keepBest => cases best <;> cases score <;> exact ⟨rfl, rfl, rfl⟩

private theorem attemptWrite_blind (form : Form) (g : Graded) (r : CanonicalAttempt) :
    (attemptWrite form g r).blind =
      let a := Retry.nextAttempt form.retryConfig.policy r.toExisting ⟨g.totalScore, g.passed⟩
      .insert a.attemptCount (hideScore a.totalScore) a.passed := by
  unfold attemptWrite
  dsimp only
  split <;> rfl

/-- What a submit writes, but for the score, does not go by the scores. -/
theorem governedWrite_blind (form : Form) (now : Instant) (g : Graded)
    (existing : Option CanonicalAttempt) :
    (governedWrite form now g existing).map (·.blind) =
      (governedWrite form now g.blind (existing.map (·.blind))).map (·.blind) := by
  cases existing with
  | none =>
    obtain ⟨answers, score, passed⟩ := g
    cases score <;> rfl
  | some r =>
    have hdenial : Retry.denial now form.retryConfig r.blind.toExisting =
        Retry.denial now form.retryConfig r.toExisting := rfl
    cases hreason : Retry.denial now form.retryConfig r.toExisting with
    | some reason =>
      have hdecide : ∀ (e : CanonicalAttempt) (new : Retry.NewSubmission),
          Retry.denial now form.retryConfig e.toExisting = some reason →
            Retry.decide now form.retryConfig (some e.toExisting) new = .error reason :=
        fun e new h => Retry.decide_eq_error.2 h
      rw [governedWrite, governedWrite, Option.map_some, Option.map_some, Option.map_some,
        hdecide r _ hreason,
        hdecide r.blind _ (hdenial.trans hreason)]
      cases reason <;> rfl
    | none =>
      have hwrite : ∀ (g : Graded) (e : CanonicalAttempt),
        Retry.denial now form.retryConfig e.toExisting = none →
          (governedWrite form now g (some e)).map (·.blind) =
              .ok (attemptWrite form g e).blind := by
        intro g e hnone
        rw [governedWrite, Option.map_some,
          Retry.decide_some_eq_ok.2 ⟨hnone, rfl⟩]
        unfold attemptWrite
        dsimp only
        split <;> rfl
      rw [hwrite g r hreason, Option.map_some, hwrite g.blind r.blind (hdenial.trans hreason),
        attemptWrite_blind,
        attemptWrite_blind]
      obtain ⟨hcount, hscore, hpassed⟩ := nextAttempt_blind form.retryConfig.policy r g
      dsimp only
      rw [hcount, hscore, hpassed]

private theorem attemptCount_blind (form : Form) (write : ResponseWrite) :
    write.blind.attemptCount form = write.attemptCount form := by
  cases write <;> rfl

/-- The page does not go by the score. -/
theorem getForm_blind (toRfc3339 : Instant → Text) (slug : Text) (loaded : Option Form)
    (session : Option (Text × Text)) (now ageNow : Instant) (guildIds : Except AppError (List Text))
    (existing : Option CanonicalAttempt) :
    getForm toRfc3339 slug loaded session now ageNow guildIds (existing.map (·.blind)) =
      getForm toRfc3339 slug loaded session now ageNow guildIds existing := by
  cases existing <;> rfl

/-- The reply of a quiz does not go by the score. -/
theorem submitReply_quiz (h : GradedBy libs form submission g) (hquiz : form.isQuiz = true)
    (toRfc3339 : Instant → Text) (write : ResponseWrite) (responseId : Text) :
    submitReply toRfc3339 form now g write responseId =
      quizReply toRfc3339 form now g.passed write.blind := by
  obtain ⟨score, hscore, hpassed⟩ := h.quiz hquiz
  unfold submitReply quizReply
  rw [attemptCount_blind, hpassed, hscore, if_pos hquiz]
  cases form.passingScore <;> rfl

end

/-! ### What the member does -/

/-- A statement of a submit, without what it finds. -/
inductive Statement
  | load
  | vet (now ageNow : Instant) (guildIds : Except AppError (List Text))
  | lock
  | read
  | write

def TxEvent.statement : TxEvent → Statement
  | load => .load
  | vet now ageNow guildIds => .vet now ageNow guildIds
  | lock => .lock
  | read _ => .read
  | write .. => .write

/-- What there is to know of a step of the member's.  Of the answers, this is whether they are
valid, and whether they pass.  PendingSubmit submits go by their position among the member's own. -/
inductive Cue
  | begin (startedAt : Instant) (version : Int32) (verdict : Except AppError (Option Bool))
  | advance (i : Nat) (e : Statement)
  | commit (i : Nat)
  | abort (i : Nat)
  | page (load : PageLoad)

def Submission.isFor (form : Form) (member : Text) (submission : Submission) : Bool :=
  decide (submission.slug = form.slug) && decide (submission.discordId = member)

/-- Whether the answers are valid, with the pass bit of the attempt. -/
def verdictOn (libs : SubmitLibs) (form : Form) (body : SubmitBody) :
    Except AppError (Option Bool) :=
  (grade libs.validator form body).map (·.passed)

section

variable (libs : SubmitLibs) (form : Form) (member : Text)

/-- The member's submits of the form that are under way. -/
def membersOf (transactions : List SubmitTx) : List SubmitTx :=
  transactions.filter (·.submission.isFor form member)

/-- The position of a transaction among the member's, when it is one of them. -/
def memberIndex (s : SubmitState) (i : Nat) : Option Nat :=
  (partyAt s.transactions i).bind fun (pre, tx, _) =>
    if tx.submission.isFor form member then some (membersOf form member pre).length else none

def cue (s : SubmitState) : QuizEvent → Option Cue
  | .submit (.begin submission now) =>
    if submission.isFor form member then
      some (.begin now submission.body.version (verdictOn libs form submission.body))
    else none
  | .submit (.advance i e) => (memberIndex form member s i).map fun i => .advance i e.statement
  | .submit (.commit i) => (memberIndex form member s i).map .commit
  | .submit (.abort i) => (memberIndex form member s i).map .abort
  | .submit (.editForm _) => none
  | .page load _ => if load.slug = form.slug ∧ load.discordId = member then some (.page load)
    else none

/-- The answers that the member is given. -/
def shown (s : SubmitState) (e : QuizEvent) : Option QuizAnswer :=
  if (cue libs form member s e).isSome then quizAnswer libs s e else none

/-! ### The machine -/

inductive PendingPhase
  | begun
  | loaded
  | admitted (now : Instant) (passed : Option Bool)
  | locked (now : Instant) (passed : Option Bool)
  | decided (now : Instant) (passed : Option Bool) (existing : Option CanonicalAttempt)
  | written (now : Instant) (passed : Option Bool) (write : ResponseWrite)

/-- What is known of a submit that is under way. -/
structure PendingSubmit where
  startedAt : Instant
  version : Int32
  verdict : Except AppError (Option Bool)
  phase : PendingPhase

/-- What is known: the canonical row without its score, and the submits under way. -/
structure Known where
  row : Option CanonicalAttempt
  pending : List PendingSubmit

/-- The next phase of a submit, or the error by which it ends. -/
def PendingSubmit.react (row : Option CanonicalAttempt) (p : PendingSubmit) :
    Statement → Except AppError PendingPhase
  | .load => return .loaded
  | .vet now ageNow guildIds => do
    checkSubmit form ⟨form.slug, member, [], ⟨.null, p.version⟩⟩ now ageNow guildIds
    let passed ← p.verdict
    return .admitted now passed
  | .lock =>
    match p.phase with
    | .admitted now passed => return .locked now passed
    | phase => return phase
  | .read =>
    match p.phase with
    | .locked now passed => return .decided now passed row
    | phase => return phase
  | .write =>
    match p.phase with
    | .decided now passed existing => do
      let write ← governedWrite form now ⟨.null, some 0, passed⟩ existing
      return .written now passed write.blind
    | phase => return phase

/-- What becomes of what is known, and the answer that the member is given. -/
def react (k : Known) : Cue → Known × Option QuizAnswer
  | .begin startedAt version verdict =>
    ({ k with pending := ⟨startedAt, version, verdict, .begun⟩ :: k.pending }, none)
  | .advance i e =>
    match partyAt k.pending i with
    | none => (k, none)
    | some (pre, p, post) =>
      match p.react form member k.row e with
      | .ok phase => ({ k with pending := pre ++ { p with phase := phase } :: post }, none)
      | .error e => ({ k with pending := pre ++ post }, some (.submitted (.error e)))
  | .commit i =>
    match partyAt k.pending i with
    | none => (k, none)
    | some (pre, p, post) =>
      match p.phase with
      | .written now passed write =>
        (⟨write.leaves p.startedAt, pre ++ post⟩,
          some (.submitted (.ok (quizReply libs.toRfc3339 form now passed write))))
      | _ => (k, none)
  | .abort i =>
    match partyAt k.pending i with
    | none => (k, none)
    | some (pre, _, post) => ({ k with pending := pre ++ post }, none)
  | .page load =>
    (k, some (.page (getForm libs.toRfc3339 load.slug (some form)
      (some (load.discordId, load.displayName)) load.now
      load.ageNow load.guildIds k.row)))

end

end FormRespondentRole
