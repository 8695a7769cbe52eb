import FormRespondentRole.CanonicalRow
import FormRespondentRole.RoleConfig

/-!
# The form page and the submit gate

`get_form` decides whether a member may fill in a form with its own copy of the checks of
`post_submit`, and `build_retry_status` with its own copy of those of `retry::decide`.  They agree:
the page is unblocked exactly when a submit at that instant is accepted
(`page_unblocked_iff`). -/

namespace FormRespondentRole

open Foundations

/-! ### The retry status -/

namespace Retry

/-- What `build_retry_status` finds out about the next attempt. -/
structure Standing where
  blocked : Bool := false
  blockedReason : Option Text := none
  nextAttemptAt : Option Instant := none

def standing (config : Config) (existing : Option ExistingAttempt) (now : Instant) : Standing :=
  match existing with
  | none => {}
  | some e =>
    if config.lockOnPass && Decidable.decide (e.passed = some true) then
      { blocked := true, blockedReason := some "passed".toList }
    else if 0 < config.maxAttempts && config.maxAttempts ≤ e.attemptCount then
      { blocked := true, blockedReason := some "exhausted".toList }
    else if 0 < config.cooldownSeconds then
      let next := e.lastAttemptAt + seconds config.cooldownSeconds
      if now < next then { nextAttemptAt := some next } else {}
    else {}

def buildRetryStatus (toRfc3339 : Instant → Text) (config : Config)
    (existing : Option ExistingAttempt) (now : Instant) : Value :=
  let attemptsUsed := (existing.map (·.attemptCount)).getD 0
  let attemptsLeft := if 0 < config.maxAttempts then
    some (max (config.maxAttempts - attemptsUsed) 0) else none
  let s := standing config existing now
  .object [("attempts_left".toList, optionValue Int32.toValue attemptsLeft),
    ("attempts_used".toList, Int32.toValue attemptsUsed), ("blocked".toList, .bool s.blocked),
    ("blocked_reason".toList, optionValue .string s.blockedReason),
    ("cooldown_seconds".toList, Value.ofInt64 (.ofInt config.cooldownSeconds)),
    ("enabled".toList, .bool config.retriesEnabled),
      ("max_attempts".toList, Int32.toValue config.maxAttempts),
    ("next_attempt_at".toList, optionValue (fun t => .string (toRfc3339 t)) s.nextAttemptAt),
    ("passed".toList, optionValue .bool (existing.bind (·.passed)))]

/-- The status that goes with a denial. -/
def Standing.ofDenial : Option DenyReason → Standing
  | none => {}
  | some .alreadyPassed => { blocked := true, blockedReason := some "passed".toList }
  | some (.attemptsExhausted _) => { blocked := true, blockedReason := some "exhausted".toList }
  | some (.cooldown _ next) => { nextAttemptAt := some next }

section

variable {now : Instant} {config : Config} {existing : Option ExistingAttempt} {new : NewSubmission}

/-- The status goes by the reason for which a further attempt is denied. -/
theorem standing_eq :
    standing config existing now = .ofDenial (existing.bind (denial now config)) := by
  cases existing with
  | none => rfl
  | some e =>
    rw [standing, Option.bind_some, denial]
    split
    · rfl
    split
    · rfl
    split
    · dsimp only
      split
      · rfl
      · rfl
    · rfl

theorem decide_eq_error {reason : DenyReason} :
    decide now config existing new = .error reason ↔
      existing.bind (denial now config) = some reason := by
  cases existing with
  | none => simp [decide]
  | some e =>
    rw [decide, Option.bind_some]
    cases denial now config e with
    | none => simp
    | some r => simp

private theorem decide_isOk (new : NewSubmission) :
    (∃ a, decide now config existing new = .ok a) ↔ existing.bind (denial now config) = none := by
  cases existing with
  | none => simp [decide]
  | some e =>
    rw [decide, Option.bind_some]
    cases denial now config e with
    | none => simp
    | some r => simp

end

end Retry

/-! ### The page -/

/-- What `get_form` answers with: a page with a message, the page to sign in, or the form. -/
inductive FormPage
  | status (title message : Text)
  | signin (form : Form) (slug : Text)
  | form (form : Form) (slug discordId displayName : Text) (preview : Bool) (retryStatus : Value)

/-- The form can be submitted: nothing of the retry status holds it back. -/
def FormPage.Unblocked : FormPage → Prop
  | form _ _ _ _ _ retryStatus => retryStatus = .null ∨
      retryStatus.get "blocked".toList = some (.bool false) ∧
        retryStatus.get "next_attempt_at".toList = some .null
  | _ => False

namespace Form

/-- The message of a form that is not open yet, or not any more. -/
def windowMessage (toRfc3339 : Instant → Text) (form : Form) (now : Instant) : Option Text :=
  (form.openAt.bind fun openAt =>
    if now < openAt then some ("This form opens at ".toList ++ toRfc3339 openAt ++ ".".toList)
      else none) <|>
  form.closeAt.bind fun closeAt =>
    if closeAt < now then some "This form is no longer accepting submissions.".toList else none

def ageMessage (form : Form) (discordId : Text) (ageNow : Instant) : Option Text :=
  if 0 < form.minAccountAgeDays then
    let age := (discordAccountAgeDays discordId ageNow).getD 0
    if age < form.minAccountAgeDays.toInt then
      some ("Your Discord account must be at least ".toList ++
        Text.ofInt form.minAccountAgeDays.toInt ++
        " days old to submit this form (yours is ".toList ++ Text.ofInt age ++ " days).".toList)
    else none
  else none

def membershipMessage (form : Form) (guildIds : Except AppError (List Text)) : Option Text :=
  if form.requireVerified then
    match guildIds with
    | .error _ =>
      some "We couldn't verify your server membership right now. Please refresh in a moment.".toList
    | .ok guildIds =>
      if form.guildId ∉ guildIds then
        some "You must be a member of the server before you can submit this form.".toList
      else none
  else none

def retryStatus (toRfc3339 : Instant → Text) (form : Form) (existing : Option CanonicalAttempt)
    (now : Instant) : Value :=
  if form.isRetryGoverned then
    Retry.buildRetryStatus toRfc3339 form.retryConfig (existing.map (·.toExisting)) now
  else .null

end Form

/-- `loaded` is the form of that slug, `session` the member who is signed in; `now` and `ageNow` are
the two readings of the clock, `guildIds` is what the gateway answers and `existing` the member's
canonical row, where they are asked for. -/
def getForm (toRfc3339 : Instant → Text) (slug : Text) (loaded : Option Form)
    (session : Option (Text × Text)) (now ageNow : Instant) (guildIds : Except AppError (List Text))
    (existing : Option CanonicalAttempt) :
    Except AppError FormPage :=
  match loaded with
  | none => .error (.formNotFound slug)
  | some form =>
    if form.archived then .error (.formNotFound slug)
    else
      match form.windowMessage toRfc3339 now, session with
      | some message, _ => .ok (.status form.title message)
      | none, none => .ok (.signin form slug)
      | none, some (discordId, displayName) =>
        match form.ageMessage discordId ageNow <|> form.membershipMessage guildIds with
        | some message => .ok (.status form.title message)
        | none => .ok (.form form slug discordId displayName false
          (form.retryStatus toRfc3339 existing now))

/-! ### The two gates -/

section

variable {toRfc3339 : Instant → Text} {form : Form} {sub : Submission} {now ageNow : Instant}
  {guildIds : Except AppError (List Text)} {existing : Option CanonicalAttempt} {g : Graded}

/-- Nothing but the retry policy stands in the way of the member. -/
structure LetIn (toRfc3339 : Instant → Text) (form : Form) (discordId : Text) (now ageNow : Instant)
    (guildIds : Except AppError (List Text)) : Prop where
  listed : form.archived = false
  window : form.windowMessage toRfc3339 now = none
  age : form.ageMessage discordId ageNow = none
  membership : form.membershipMessage guildIds = none

/-- Nothing in the retry policy stands in the way of the member. -/
def RetryFree (form : Form) (existing : Option CanonicalAttempt) (now : Instant) : Prop :=
  form.isRetryGoverned = true →
    (existing.map (·.toExisting)).bind (Retry.denial now form.retryConfig) = none

private theorem bind_message_eq_none {α : Type} {o : Option α} {c : α → Bool} {m : α → Text} :
    (o.bind fun x => if c x then some (m x) else none) = none ↔ o.any c = false := by
  cases o with
  | none => simp
  | some x =>
    rw [Option.bind_some, Option.any_some]
    cases c x <;> simp

private theorem windowMessage_eq_none (toRfc3339 : Instant → Text) :
    form.windowMessage toRfc3339 now = none ↔
      (form.openAt.any (now < ·) || form.closeAt.any (· < now)) = false := by
  have hopen := bind_message_eq_none (o := form.openAt) (c := (decide <| now < ·))
    (m := fun openAt => "This form opens at ".toList ++ toRfc3339 openAt ++ ".".toList)
  have hclose := bind_message_eq_none (o := form.closeAt) (c := (decide <| · < now))
    (m := fun _ => "This form is no longer accepting submissions.".toList)
  simp only [decide_eq_true_eq] at hopen hclose
  rw [Form.windowMessage, Bool.or_eq_false_iff, ← hopen, ← hclose]
  exact Option.orElse_eq_none _ _

/-- A check that throws, and then the rest. -/
private theorem check_eq_ok {α : Type} {e : AppError} {r : Except AppError α} {c : Prop}
    [Decidable c] {a : α} :
    (do
      if c then throw e
      r : Except AppError α) = .ok a ↔ ¬ c ∧ r = .ok a := by
  by_cases hc : c
  · rw [if_pos hc]
    constructor
    · intro h
      cases h
    · intro h
      exact absurd hc h.1
  · rw [if_neg hc]
    exact ⟨fun h => ⟨hc, h⟩, fun h => h.2⟩

private theorem ageMessage_eq_none {discordId : Text} :
    form.ageMessage discordId ageNow = none ↔ (0 < form.minAccountAgeDays →
      form.minAccountAgeDays.toInt ≤ (discordAccountAgeDays discordId ageNow).getD 0) := by
  unfold Form.ageMessage
  by_cases hpos : 0 < form.minAccountAgeDays
  · rw [if_pos hpos]
    dsimp only
    split
    · rename_i hage
      simp [hpos, hage]
    · rename_i hage
      simp [Int.not_lt.1 hage]
  · simp [hpos]

private theorem membershipMessage_eq_none :
    form.membershipMessage guildIds = none ↔
      (form.requireVerified = true → ∃ ids, guildIds = .ok ids ∧ form.guildId ∈ ids) := by
  unfold Form.membershipMessage
  cases form.requireVerified with
  | false => simp
  | true =>
    cases guildIds with
    | error e => simp
    | ok ids => by_cases h : form.guildId ∈ ids <;> simp [h]

private theorem checkMembership_eq_ok {e : AppError} :
    (if form.requireVerified = true then do
        let ids ← guildIds
        if form.guildId ∉ ids then throw e else pure ()
      else pure () : Except AppError Unit) = .ok () ↔ form.membershipMessage guildIds = none := by
  rw [membershipMessage_eq_none]
  cases form.requireVerified with
  | false => exact ⟨fun _ h => absurd h Bool.false_ne_true, fun _ => rfl⟩
  | true =>
    rw [if_pos rfl]
    cases guildIds with
    | error e' =>
      constructor
      · intro h
        cases h
      · intro h
        obtain ⟨ids, hids, -⟩ := h rfl
        cases hids
    | ok ids =>
      refine (check_eq_ok (e := e) (c := form.guildId ∉ ids) (r := pure ())).trans ?_
      constructor
      · rintro ⟨hmem, -⟩ -
        exact ⟨ids, rfl, not_not.1 hmem⟩
      · intro h
        obtain ⟨ids', hids, hmem⟩ := h rfl
        obtain rfl := Except.ok.inj hids
        exact ⟨not_not.2 hmem, rfl⟩

/-- The checks of `post_submit` come out well when the page has none to raise. -/
theorem checkSubmit_eq_ok (hversion : sub.body.version = form.version) :
    checkSubmit form sub now ageNow guildIds = .ok () ↔
      LetIn toRfc3339 form sub.discordId now ageNow guildIds := by
  have hparts : LetIn toRfc3339 form sub.discordId now ageNow guildIds ↔ ¬ form.archived = true ∧
      ¬ form.version ≠ sub.body.version ∧
      ¬ (form.openAt.any (now < ·) || form.closeAt.any (· < now)) = true ∧
      form.ageMessage sub.discordId ageNow = none ∧ form.membershipMessage guildIds = none := by
    rw [Bool.not_eq_true, Bool.not_eq_true, ← windowMessage_eq_none toRfc3339]
    exact ⟨fun h => ⟨h.listed, not_not.2 hversion.symm, h.window, h.age, h.membership⟩,
      fun h => ⟨h.1, h.2.2.1, h.2.2.2.1, h.2.2.2.2⟩⟩
  rw [hparts]
  unfold checkSubmit
  rw [check_eq_ok, check_eq_ok, check_eq_ok]
  refine and_congr_right fun _ => and_congr_right fun _ => and_congr_right fun _ => ?_
  rw [ageMessage_eq_none]
  by_cases hpos : 0 < form.minAccountAgeDays
  · rw [if_pos hpos]
    refine check_eq_ok.trans (and_congr ?_ checkMembership_eq_ok)
    rw [not_lt]
    exact ⟨fun h _ => h, fun h => h hpos⟩
  · rw [if_neg hpos]
    refine checkMembership_eq_ok.trans ⟨fun h => ⟨fun h' => absurd h' hpos, h⟩, fun h => h.2⟩

private theorem get_buildRetryStatus (toRfc3339 : Instant → Text) (config : Retry.Config)
    (existing : Option Retry.ExistingAttempt) (now : Instant) :
    let status := Retry.buildRetryStatus toRfc3339 config existing now
    let s := Retry.standing config existing now
    status.get "blocked".toList = some (.bool s.blocked) ∧
      status.get "blocked_reason".toList = some (optionValue .string s.blockedReason) ∧
      status.get "next_attempt_at".toList =
          some (optionValue (fun t => .string (toRfc3339 t)) s.nextAttemptAt) :=
  ⟨rfl, rfl, rfl⟩

/-- The retry status leaves the form unblocked when no further attempt is denied. -/
theorem retryStatus_unblocked {slug discordId displayName : Text} {preview : Bool} :
    (FormPage.form form slug discordId displayName preview
      (form.retryStatus toRfc3339 existing now)).Unblocked ↔
      RetryFree form existing now := by
  rw [FormPage.Unblocked, Form.retryStatus, RetryFree]
  cases form.isRetryGoverned with
  | false => simp
  | true =>
    obtain ⟨hblocked, -, hnext⟩ :=
      get_buildRetryStatus toRfc3339 form.retryConfig (existing.map (·.toExisting)) now
    rw [if_pos rfl, hblocked, hnext, Retry.standing_eq]
    have hobject : Retry.buildRetryStatus toRfc3339 form.retryConfig
      (existing.map (·.toExisting)) now ≠ .null := nofun
    cases (existing.map (·.toExisting)).bind (Retry.denial now form.retryConfig) with
    | none => exact ⟨fun _ _ => rfl, fun _ => Or.inr ⟨rfl, rfl⟩⟩
    | some reason =>
      cases reason <;> simp [Retry.Standing.ofDenial, optionValue, hobject]

private theorem getForm_unblocked {slug displayName : Text} :
    (∃ page, getForm toRfc3339 slug (some form)
      (some (sub.discordId, displayName)) now ageNow guildIds existing =
        .ok page ∧ page.Unblocked) ↔
      LetIn toRfc3339 form sub.discordId now ageNow guildIds ∧ RetryFree form existing now := by
  have hno : ∀ {title message : Text}, ¬ ∃ page,
    (.ok (.status title message) : Except AppError FormPage) = .ok page ∧
      page.Unblocked := by
    rintro title message ⟨page, hpage, hun⟩
    obtain rfl := Except.ok.inj hpage
    exact hun
  unfold getForm
  dsimp only
  by_cases hlisted : form.archived = true
  · rw [if_pos hlisted]
    constructor
    · rintro ⟨page, hpage, -⟩
      cases hpage
    · rintro ⟨hin, -⟩
      exact absurd (hin.listed.symm.trans hlisted) Bool.false_ne_true
  rw [if_neg hlisted]
  cases hwindow : form.windowMessage toRfc3339 now with
  | some message =>
    refine iff_of_false hno ?_
    rintro ⟨hin, -⟩
    exact absurd (hin.window.symm.trans hwindow) nofun
  | none =>
    dsimp only
    cases hmessage : form.ageMessage sub.discordId ageNow <|> form.membershipMessage guildIds with
    | some message =>
      refine iff_of_false hno ?_
      rintro ⟨hin, -⟩
      have hnone := (Option.orElse_eq_none _ _).2 ⟨hin.age, hin.membership⟩
      exact absurd (hnone.symm.trans hmessage) nofun
    | none =>
      obtain ⟨hage, hmember⟩ := (Option.orElse_eq_none _ _).1 hmessage
      constructor
      · rintro ⟨page, hpage, hun⟩
        obtain rfl := Except.ok.inj hpage
        exact ⟨⟨Bool.eq_false_of_not_eq_true hlisted, hwindow, hage, hmember⟩,
          retryStatus_unblocked.1 hun⟩
      · rintro ⟨-, hfree⟩
        exact ⟨_, rfl, retryStatus_unblocked.2 hfree⟩

/-- The write of a submit is decided on when no further attempt is denied. -/
theorem submitWrite_isOk : (∃ write, submitWrite form now g existing = .ok write) ↔
    RetryFree form existing now := by
  unfold submitWrite RetryFree Form.isRetryGoverned
  cases form.keepsOne with
  | false => simp
  | true =>
    cases form.editable with
    | true => cases existing <;> simp
    | false =>
      have hgoverned : (!true) = false := rfl
      simp only [hgoverned, Bool.false_eq_true, if_false, Bool.not_false, Bool.and_self,
        true_imp_iff]
      rw [← Retry.decide_isOk ⟨g.totalScore, g.passed⟩, governedWrite]
      cases Retry.decide now form.retryConfig (existing.map (·.toExisting))
          ⟨g.totalScore, g.passed⟩ with
      | error reason => cases reason <;> simp
      | ok a =>
        cases existing with
        | none => simp
        | some r => by_cases h : a.overwriteAnswers = true <;> simp [h]

/-! ### A submit on its own -/

/-- The statements of one `post_submit` for the form.  Only a form that keeps one response takes the
lock and reads the canonical row. -/
def postSubmit (form : Form) (sub : Submission) (startedAt now ageNow : Instant)
    (guildIds : Except AppError (List Text)) (latest : Option Uuid) (newId : Uuid)
    (jobsNow : Instant) : List SubmitEvent :=
  .begin sub startedAt :: .advance 0 .load :: .advance 0 (.vet now ageNow guildIds) ::
    ((if form.keepsOne then [.advance 0 .lock, .advance 0 (.read latest)] else []) ++
      [.advance 0 (.write newId jobsNow), .commit 0])

variable {libs : SubmitLibs} {s : SubmitState} {startedAt jobsNow : Instant} {latest : Option Uuid}
  {newId : Uuid}

private theorem exec_begin {es : List SubmitEvent} (hidle : s.transactions = []) :
    (submitSystem libs).exec s (.begin sub startedAt :: es) =
      (submitSystem libs).exec { s with transactions := [⟨sub, startedAt, .begun⟩] } es := by
  simp only [submitSystem, System.exec, submitStep, Option.bind_some, hidle]

private theorem exec_advance {tx tx' : SubmitTx} {e : TxEvent} {es : List SubmitEvent}
    (h : txStep libs { s with transactions := [tx] } [] tx e = some (some tx')) :
    (submitSystem libs).exec { s with transactions := [tx] } (.advance 0 e :: es) =
      (submitSystem libs).exec { s with transactions := [tx'] } es := by
  have hstep : submitStep libs { s with transactions := [tx] } (.advance 0 e) =
      some { s with transactions := [tx'] } := by
    simp [submitStep, partyAt, h]
  simp only [submitSystem, System.exec, hstep, Option.bind_some]

/-- A transaction that is rolled back does not go on. -/
private theorem exec_rollback {tx : SubmitTx} {e : TxEvent} {i : Nat} {es : List SubmitEvent}
    {next : SubmitEvent} (hnext : next = .commit i ∨ ∃ e', next = .advance i e')
    (h : txStep libs { s with transactions := [tx] } [] tx e = some none) :
    (submitSystem libs).exec { s with transactions := [tx] } (.advance 0 e :: next :: es) =
        none := by
  have hstep : submitStep libs { s with transactions := [tx] } (.advance 0 e) =
      some { s with transactions := [] } := by
    simp [submitStep, partyAt, h]
  have hgone : submitStep libs { s with transactions := [] } next = none := by
    rcases hnext with rfl | ⟨e', rfl⟩ <;> simp [submitStep, partyAt]
  simp only [submitSystem, System.exec, hstep, Option.bind_some, hgone, Option.bind_none]

private theorem exec_commit {tx : SubmitTx} :
    (submitSystem libs).exec { s with transactions := [tx] } [.commit 0] =
      commitTx libs { s with transactions := [tx] } [] tx := by
  have hstep : submitStep libs { s with transactions := [tx] } (.commit 0) =
      commitTx libs { s with transactions := [tx] } [] tx := by
    simp [submitStep, partyAt]
  simp only [submitSystem, System.exec, hstep, Option.bind_fun_some]

private theorem apply_isSome {binds : WriteBinds} {t : ResponseTable}
    (hfresh : binds.newId ∉ t.rows.map FormResponse.id) (write : ResponseWrite) :
    ∃ t', write.apply binds t = some t' := by
  cases write with
  | insert n score passed => exact ⟨_, dif_pos hfresh⟩
  | _ => exact ⟨_, rfl⟩

private theorem exec_written {tx : SubmitTx} {write : ResponseWrite}
    (hfresh : newId ∉ s.responses.rows.map FormResponse.id)
    (h : txStep libs { s with transactions := [tx] } [] tx (.write newId jobsNow) =
      some (some ⟨sub, startedAt, .written form now g write newId jobsNow⟩)) :
    ∃ t a, (submitSystem libs).exec { s with transactions := [tx] }
      [.advance 0 (.write newId jobsNow), .commit 0] =
      some t ∧ t.accepted = a :: s.accepted ∧ a.form = form ∧ a.submission = sub := by
  let written : SubmitTx := ⟨sub, startedAt, .written form now g write newId jobsNow⟩
  obtain ⟨responses, hresponses⟩ :
      ∃ t', write.apply (written.binds form g newId) s.responses = some t' :=
    apply_isSome hfresh write
  rw [exec_advance h, exec_commit, commitTx]
  dsimp only
  rw [hresponses]
  exact ⟨_, _, rfl, rfl, rfl, rfl⟩

private theorem exec_notWritten {tx : SubmitTx}
    (h : txStep libs { s with transactions := [tx] } [] tx (.write newId jobsNow) = some none) :
    (submitSystem libs).exec { s with transactions := [tx] }
        [.advance 0 (.write newId jobsNow), .commit 0] = none :=
  exec_rollback (Or.inl rfl) h

/-- The submit is accepted when its checks come out well and its write is decided on. -/
theorem postSubmit_accepted_iff (hidle : s.transactions = [])
    (hform : s.forms.rows.find? (·.slug = sub.slug) = some form)
    (hread : readCanonical (form.id.text, sub.discordId) s.responses latest = some existing)
    (hfresh : newId ∉ s.responses.rows.map FormResponse.id) :
    (∃ t a, (submitSystem libs).exec s
      (postSubmit form sub startedAt now ageNow guildIds latest newId jobsNow) = some t ∧
        t.accepted = a :: s.accepted ∧ a.form = form ∧ a.submission = sub) ↔
      ∃ g write, admitSubmit libs.validator form sub now ageNow guildIds = .ok g ∧
        submitWrite form now g existing = .ok write := by
  have hload : txStep libs { s with transactions := [⟨sub, startedAt, .begun⟩] } []
    ⟨sub, startedAt, .begun⟩ .load =
      some (some ⟨sub, startedAt, .loaded form⟩) := by
    simp [txStep, hform, SubmitTx.goto]
  rw [postSubmit, exec_begin hidle, exec_advance hload]
  cases hadmit : admitSubmit libs.validator form sub now ageNow guildIds with
  | error e =>
    have hvet : txStep libs { s with transactions := [⟨sub, startedAt, .loaded form⟩] } []
      ⟨sub, startedAt, .loaded form⟩
        (.vet now ageNow guildIds) = some none := by
      simp only [txStep, hadmit]
    -- the checks fail, and the transaction is rolled back
    refine iff_of_false ?_ ?_
    · rintro ⟨t, a, ht, -⟩
      by_cases hone : form.keepsOne = true
      · rw [if_pos hone, List.cons_append, exec_rollback (Or.inr ⟨_, rfl⟩) hvet] at ht
        cases ht
      · rw [if_neg hone, List.nil_append, exec_rollback (Or.inr ⟨_, rfl⟩) hvet] at ht
        cases ht
    · rintro ⟨g, write, hg, -⟩
      cases hg
  | ok g =>
    have hvet : txStep libs { s with transactions := [⟨sub, startedAt, .loaded form⟩] } []
      ⟨sub, startedAt, .loaded form⟩
        (.vet now ageNow guildIds) = some (some ⟨sub, startedAt, .admitted form now g⟩) := by
      simp only [txStep, hadmit, SubmitTx.goto]
    rw [exec_advance hvet]
    by_cases hone : form.keepsOne = true
    · have hlock : txStep libs { s with transactions := [⟨sub, startedAt, .admitted form now g⟩] }
        []
          ⟨sub, startedAt, .admitted form now g⟩ .lock =
              some (some ⟨sub, startedAt, .locked form now g⟩) := by
        simp [txStep, hone, SubmitTx.goto]
      have hcanonical : txStep libs
        { s with transactions := [⟨sub, startedAt, .locked form now g⟩] } []
          ⟨sub, startedAt, .locked form now g⟩ (.read latest) =
            some (some ⟨sub, startedAt, .decided form now g existing⟩) := by
        simp [txStep, SubmitTx.pair, hread, SubmitTx.goto]
      rw [if_pos hone, List.cons_append, List.cons_append, List.nil_append, exec_advance hlock,
        exec_advance hcanonical]
      cases hwrite : submitWrite form now g existing with
      | error e =>
        refine iff_of_false ?_ ?_
        · rintro ⟨t, a, ht, -⟩
          rw [exec_notWritten (by simp only [txStep, hwrite])] at ht
          cases ht
        · rintro ⟨g', write, hg, hw⟩
          obtain rfl := Except.ok.inj hg
          rw [hwrite] at hw
          cases hw
      | ok write =>
        have hwritten : txStep libs
          { s with transactions := [⟨sub, startedAt, .decided form now g existing⟩] } []
            ⟨sub, startedAt, .decided form now g existing⟩ (.write newId jobsNow) =
              some (some ⟨sub, startedAt, .written form now g write newId jobsNow⟩) := by
          simp only [txStep, hwrite, SubmitTx.goto]
        exact iff_of_true (exec_written hfresh hwritten) ⟨g, write, rfl, hwrite⟩
    · -- a form that keeps all responses: neither lock nor read, and always a new row
      have hwrite : ∀ row, submitWrite form now g row = .ok (.insert 1 g.totalScore g.passed) := by
        intro row
        simp [submitWrite, hone]
      have hwritten : txStep libs
        { s with transactions := [⟨sub, startedAt, .admitted form now g⟩] } []
          ⟨sub, startedAt, .admitted form now g⟩ (.write newId jobsNow) =
            some (some ⟨sub, startedAt,
              .written form now g (.insert 1 g.totalScore g.passed) newId jobsNow⟩) := by
        simp [txStep, hone, hwrite none, SubmitTx.goto]
      rw [if_neg hone, List.nil_append]
      exact iff_of_true (exec_written hfresh hwritten) ⟨g, _, rfl, hwrite existing⟩

/-- Answers that validate are graded, so the checks alone decide. -/
private theorem admitSubmit_isOk (toRfc3339 : Instant → Text) {schema : libs.validator.Schema}
    {verified : List (Text × Value)} (hversion : sub.body.version = form.version)
    (hschema : libs.validator.fromValue form.schema = .ok schema)
    (hanswers : libs.validator.validate schema sub.body.answers = .ok verified) :
    (∃ g, admitSubmit libs.validator form sub now ageNow guildIds = .ok g) ↔
      LetIn toRfc3339 form sub.discordId now ageNow guildIds := by
  rw [← checkSubmit_eq_ok hversion, admitSubmit]
  obtain ⟨g, hg⟩ : ∃ g, grade libs.validator form sub.body = .ok g := by
    rw [grade, hschema]
    dsimp only [Except.mapError, bind, Except.bind]
    rw [hanswers]
    exact ⟨_, rfl⟩
  cases checkSubmit form sub now ageNow guildIds with
  | ok u => exact iff_of_true ⟨g, hg⟩ rfl
  | error e =>
    refine iff_of_false ?_ fun h => by cases h
    rintro ⟨g', hg'⟩
    cases hg'

end

/-- The retry status names the reason for which `decide` denies a further attempt. -/
structure StatusAgrees (toRfc3339 : Instant → Text) (config : Retry.Config)
    (existing : Option Retry.ExistingAttempt) (now : Instant)
    (new : Retry.NewSubmission) : Prop where
  passed : (Retry.buildRetryStatus toRfc3339 config existing now).get "blocked_reason".toList =
    some (.str "passed") ↔
    Retry.decide now config existing new = .error .alreadyPassed
  exhausted : (Retry.buildRetryStatus toRfc3339 config existing now).get "blocked_reason".toList =
      some (.str "exhausted") ↔
    ∃ max, Retry.decide now config existing new = .error (.attemptsExhausted max)
  nextAttemptAt : ∀ t, (Retry.standing config existing now).nextAttemptAt = some t ↔
    ∃ retryAfter, Retry.decide now config existing new = .error (.cooldown retryAfter t)
  /-- The status has the text of that time. -/
  nextAttemptText : ∀ text,
    (Retry.buildRetryStatus toRfc3339 config existing now).get "next_attempt_at".toList =
      some (.string text) ↔
    ∃ retryAfter t, Retry.decide now config existing new = .error (.cooldown retryAfter t) ∧
      toRfc3339 t = text

private theorem statusAgrees (toRfc3339 : Instant → Text) (config : Retry.Config)
    (existing : Option Retry.ExistingAttempt) (now : Instant) (new : Retry.NewSubmission) :
    StatusAgrees toRfc3339 config existing now new := by
  obtain ⟨-, hreason, hnext⟩ := get_buildRetryStatus toRfc3339 config existing now
  have hne : "passed".toList ≠ "exhausted".toList := by decide
  refine ⟨?_, ?_, ?_, ?_⟩
  · rw [hreason, Retry.standing_eq, Retry.decide_eq_error]
    rcases existing.bind (Retry.denial now config) with _ | ⟨_ | _ | _⟩ <;>
      simp [Retry.Standing.ofDenial, optionValue, Value.str]
  · rw [hreason, Retry.standing_eq]
    simp only [Retry.decide_eq_error]
    rcases existing.bind (Retry.denial now config) with _ | ⟨_ | _ | _⟩ <;>
      simp [Retry.Standing.ofDenial, optionValue, Value.str]
  · intro t
    rw [Retry.standing_eq]
    simp only [Retry.decide_eq_error]
    rcases existing.bind (Retry.denial now config) with _ |
      ⟨_ | _ | _⟩ <;> simp [Retry.Standing.ofDenial]
  · intro text
    rw [hnext, Retry.standing_eq]
    simp only [Retry.decide_eq_error]
    rcases existing.bind (Retry.denial now config) with _ | ⟨_ | _ | _⟩ <;>
      simp [Retry.Standing.ofDenial, optionValue]

/-- The page of a form that a member is signed in to is unblocked exactly when a submit at that
instant, of the current version and of answers that validate, is accepted; and its retry status says
why a further attempt is denied. -/
theorem page_unblocked_iff (libs : SubmitLibs) {s : SubmitState} (hidle : s.transactions = [])
    {form : Form} {sub : Submission} (hform : s.forms.rows.find? (·.slug = sub.slug) = some form)
    {schema : libs.validator.Schema} (hschema : libs.validator.fromValue form.schema = .ok schema)
    (hversion : sub.body.version = form.version) {verified : List (Text × Value)}
    (hanswers : libs.validator.validate schema sub.body.answers = .ok verified)
    {latest : Option Uuid} {existing : Option CanonicalAttempt}
    (hread : readCanonical (form.id.text, sub.discordId) s.responses latest = some existing)
    {newId : Uuid} (hfresh : newId ∉ s.responses.rows.map FormResponse.id)
    (now ageNow startedAt jobsNow : Instant) (guildIds : Except AppError (List Text)) :
    ((∃ page, getForm libs.toRfc3339 sub.slug (s.forms.rows.find? (·.slug = sub.slug))
          (some (sub.discordId, sub.displayName)) now ageNow guildIds existing = .ok page ∧
            page.Unblocked) ↔
        ∃ t a, (submitSystem libs).exec s
        (postSubmit form sub startedAt now ageNow guildIds latest newId jobsNow) =
          some t ∧ t.accepted = a :: s.accepted ∧ a.form = form ∧ a.submission = sub) ∧
      (form.isRetryGoverned = true → ∀ new,
        StatusAgrees libs.toRfc3339 form.retryConfig (existing.map (·.toExisting)) now new) := by
  refine ⟨?_, fun _ new => statusAgrees ..⟩
  rw [hform, getForm_unblocked, postSubmit_accepted_iff hidle hform hread hfresh,
    ← admitSubmit_isOk libs.toRfc3339 hversion hschema hanswers]
  constructor
  · rintro ⟨⟨g, hg⟩, hfree⟩
    obtain ⟨write, hwrite⟩ := submitWrite_isOk.2 hfree
    exact ⟨g, write, hg, hwrite⟩
  · rintro ⟨g, write, hg, hwrite⟩
    exact ⟨⟨g, hg⟩, submitWrite_isOk.1 ⟨write, hwrite⟩⟩

/-- Ann has not taken the quiz: its page lets her, and her submit is accepted. -/
theorem page_unblocked_iff_quiz :
    ∃ t a, (submitSystem quizLibs).exec quizStart
        (postSubmit quizForm (quizAnswers 2) 10 10 10 (.ok []) none 1 10) = some t ∧
      t.accepted = a :: quizStart.accepted ∧ a.form = quizForm ∧ a.submission = quizAnswers 2 := by
  have hform : quizStart.forms.rows.find? (·.slug = (quizAnswers 2).slug) = some quizForm := rfl
  have hschema : quizLibs.validator.fromValue quizForm.schema = .ok () := rfl
  have hanswers : quizLibs.validator.validate () (quizAnswers 2).body.answers =
      .ok [(Text.ofNat 0, .null), (Text.ofNat 1, .null)] := rfl
  have hread : readCanonical (quizForm.id.text, "ann".toList) quizStart.responses none =
    some none := rfl
  have hfresh : (1 : Uuid) ∉ quizStart.responses.rows.map FormResponse.id := List.not_mem_nil
  have h := page_unblocked_iff quizLibs rfl hform hschema rfl hanswers hread hfresh 10 10 10 10
    (.ok [])
  exact h.1.1 ⟨_, rfl, Or.inr ⟨rfl, rfl⟩⟩

end FormRespondentRole
