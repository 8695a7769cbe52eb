import FormRespondentRole.CanonicalRow

/-!
# Attempt limits

A member's submits to a retry-governed form with a fixed policy, however they interleave: one row,
which counts the accepted submits, and none accepted beyond the limit, after a pass that locks, or
within a cooldown.  The cooldown is measured from the start of the earlier transaction to the clock
reading of the later one's checks.  With no cooldown nothing compares the two times, and a submit
that read the clock early can be accepted after one that began later.
-/

namespace FormRespondentRole

open Foundations

/-- The form is retry-governed with this policy. -/
def Form.governedBy (cfg : Retry.Config) (form : Form) : Bool :=
  form.isRetryGoverned && decide (form.retryConfig = cfg)

/-- Runs in which the form keeps its policy. -/
abbrev GovernedRun (libs : SubmitLibs) (f : Uuid) (cfg : Retry.Config) :
    SubmitState → List SubmitEvent → SubmitState → Prop :=
  (submitSystem libs).Run fun s _ _ => s.FormIs f fun form => form.governedBy cfg = true

structure AttemptLimits (libs : SubmitLibs) (f : Uuid) (d : Text) (cfg : Retry.Config)
    (t : SubmitState) : Prop where
  one_row : (rowsOf (f.text, d) t.responses).length ≤ 1
  no_row : rowsOf (f.text, d) t.responses = [] → attemptsOf (f.text, d) t.accepted = []
  count : ∀ row ∈ rowsOf (f.text, d) t.responses,
    row.attemptCount.toInt = min (attemptsOf (f.text, d) t.accepted).length (2 ^ 31 - 1)
  bound : 0 < cfg.maxAttempts → (attemptsOf (f.text, d) t.accepted).length ≤ cfg.maxAttempts.toInt
  /-- With `lock_on_pass`, nothing is accepted once the row has passed. -/
  locked : cfg.lockOnPass = true →
    (∃ row ∈ rowsOf (f.text, d) t.responses, row.passed = some true) →
    ∀ fs u, GovernedRun libs f cfg t fs u → attemptsOf (f.text, d) u.accepted =
      attemptsOf (f.text, d) t.accepted

/-- Of two consecutive accepted submits, newest first, the later one was admitted a cooldown after
the recorded time of the earlier one. -/
def CooldownKept (f : Uuid) (d : Text) (cfg : Retry.Config) (t : SubmitState) : Prop :=
  (attemptsOf (f.text, d) t.accepted).IsChain fun later earlier =>
    earlier.recordedAt + seconds cfg.cooldownSeconds ≤ later.admittedAt

section

variable {libs : SubmitLibs} {f : Uuid} {d : Text} {cfg : Retry.Config} {s s' t : SubmitState}
  {e : SubmitEvent}

/-- The invariant of a pair: its one row counts the attempts and records the time of the last
one. -/
private structure PairLimits (cfg : Retry.Config) (attempts : List Accepted)
    (rows : List FormResponse) : Prop where
  row : (attempts = [] ∧ rows = []) ∨ ∃ row latest earlier, rows = [row] ∧
    attempts = latest :: earlier ∧
    row.lastEditedAt = latest.recordedAt ∧ row.attemptCount.toInt = min attempts.length (2 ^ 31 - 1)
  bound : 0 < cfg.maxAttempts → attempts.length ≤ cfg.maxAttempts.toInt
  cooldown : 0 < cfg.cooldownSeconds → attempts.IsChain fun later earlier =>
    earlier.recordedAt + seconds cfg.cooldownSeconds ≤ later.admittedAt

private theorem PairLimits.one {attempts : List Accepted} {rows : List FormResponse}
    (h : PairLimits cfg attempts rows) :
    ∀ row ∈ rows, rows = [row] := by
  intro row hrow
  rcases h.row with ⟨-, hnone⟩ | ⟨row', latest, earlier, hrow', -⟩
  · rw [hnone] at hrow
    exact absurd hrow List.not_mem_nil
  · rw [hrow'] at hrow ⊢
    rw [List.mem_singleton.1 hrow]

private theorem PairLimits.first {a : Accepted} (newId : Uuid) :
    PairLimits cfg [a] [a.firstRow newId] where
  row := by
    have hone : Int32.toInt 1 = (min 1 (2 ^ 31 - 1) : Nat) := by decide
    exact Or.inr ⟨_, a, [], rfl, rfl, rfl, hone⟩
  bound hpos := by
    have hpos := Int32.lt_iff_toInt_lt.1 hpos
    rw [Int32.toInt_zero] at hpos
    rw [List.length_singleton]
    omega
  cooldown _ := List.IsChain.singleton a

private theorem Accepted.furtherRow_attempt (a : Accepted) (newId : Uuid) (row : FormResponse) :
    (a.furtherRow newId row).attemptCount = Retry.saturatingSucc row.attemptCount ∧
      (a.furtherRow newId row).lastEditedAt = a.recordedAt := by
  have hcount : (Retry.nextAttempt a.form.retryConfig.policy row.toCanonical.toExisting
      ⟨a.graded.totalScore, a.graded.passed⟩).attemptCount =
          Retry.saturatingSucc row.attemptCount :=
    Retry.nextAttempt_attemptCount _
  unfold Accepted.furtherRow
  dsimp only
  split
  · exact ⟨hcount, rfl⟩
  · exact ⟨hcount, rfl⟩

private theorem PairLimits.further {attempts : List Accepted} {row : FormResponse} {a : Accepted}
    (newId : Uuid) (h : PairLimits cfg attempts [row])
    (hdenial : Retry.denial a.admittedAt cfg row.toCanonical.toExisting = none) :
    PairLimits cfg (a :: attempts) [a.furtherRow newId row] := by
  obtain ⟨-, hexhausted, hcooldown⟩ := Retry.denial_eq_none.1 hdenial
  obtain ⟨hattempt, hedited⟩ := a.furtherRow_attempt newId row
  rcases h.row with ⟨-, hnone⟩ | ⟨row', latest, earlier, hrow, rfl, hlast, hcount⟩
  · cases hnone
  · obtain rfl := List.singleton_inj.1 hrow
    constructor
    · refine Or.inr ⟨_, a, latest :: earlier, rfl, rfl, hedited, ?_⟩
      rw [hattempt, Retry.saturatingSucc_toInt, hcount]
      simp only [List.length_cons]
      omega
    · intro hpos
      have hlt : row.attemptCount.toInt < cfg.maxAttempts.toInt := by
        refine Int32.lt_iff_toInt_lt.1 (Int32.not_le.1 fun hle => hexhausted ⟨hpos, hle⟩)
      have hmax := cfg.maxAttempts.toInt_lt
      simp only [List.length_cons] at hcount ⊢
      omega
    · intro hpos
      refine List.isChain_cons_cons.2 ⟨?_, h.cooldown hpos⟩
      rw [← hlast]
      exact hcooldown hpos

private theorem PairLimits.step (hs : s.Sound libs)
    (hform : s.FormIs f fun form => form.governedBy cfg = true)
    (h : PairLimits cfg (attemptsOf (f.text, d) s.accepted) (rowsOf (f.text, d) s.responses))
    (hstep : submitStep libs s e = some s') :
    PairLimits cfg (attemptsOf (f.text, d) s'.accepted) (rowsOf (f.text, d) s'.responses) := by
  have hgoverned : ∀ form ∈ s.forms.rows, form.id = f → form.isRetryGoverned = true ∧
      form.retryConfig = cfg := by
    intro form hmem hid
    simpa [Form.governedBy] using hform form hmem hid
  rcases pair_step hs (fun form hmem hid => (hgoverned form hmem hid).1) h.one hstep with
    ⟨hsame, haccepted | ⟨a, hne, haccepted⟩⟩ | ⟨a, newId, hmem, hid, hpair, -, haccepted, hattempt⟩
  · rw [hsame, haccepted]
    exact h
  · rw [hsame, haccepted, attemptsOf_cons_ne _ hne]
    exact h
  · rw [haccepted, attemptsOf_cons_self _ hpair]
    rcases hattempt with ⟨hnone, hrow⟩ | ⟨row, hrow, hdenial, hrow'⟩
    · rw [hrow]
      rcases h.row with ⟨hattempts, -⟩ | ⟨row', latest, earlier, hrow', -⟩
      · rw [hattempts]
        exact PairLimits.first newId
      · rw [hnone] at hrow'
        cases hrow'
    · rw [hrow']
      rw [(hgoverned a.form hmem hid).2] at hdenial
      exact PairLimits.further newId (hrow ▸ h) hdenial

/-- Once the row has passed, `lock_on_pass` denies every further attempt. -/
private theorem locked_run {es : List SubmitEvent} (hs : s.Sound libs)
    (hlock : cfg.lockOnPass = true) {row : FormResponse}
    (hrow : rowsOf (f.text, d) s.responses = [row]) (hpassed : row.passed = some true)
    (hrun : GovernedRun libs f cfg s es t) :
    attemptsOf (f.text, d) t.accepted = attemptsOf (f.text, d) s.accepted := by
  have hinv : t.Sound libs ∧ rowsOf (f.text, d) t.responses = [row] ∧
      attemptsOf (f.text, d) t.accepted = attemptsOf (f.text, d) s.accepted := by
    refine hrun.invariant (P := fun u => u.Sound libs ∧ rowsOf (f.text, d) u.responses = [row] ∧
      attemptsOf (f.text, d) u.accepted = attemptsOf (f.text, d) s.accepted) ?_ ⟨hs, hrow, rfl⟩
    rintro u e u' ⟨hsound, hrow, hattempts⟩ hform hstep
    have hgoverned : ∀ form ∈ u.forms.rows, form.id = f → form.isRetryGoverned = true ∧
        form.retryConfig = cfg := by
      intro form hmem hid
      simpa [Form.governedBy] using hform form hmem hid
    have hone : ∀ row' ∈ rowsOf (f.text, d) u.responses, rowsOf (f.text, d) u.responses =
        [row'] := by
      intro row' hrow'
      rw [hrow] at hrow' ⊢
      rw [List.mem_singleton.1 hrow']
    refine ⟨sound_step hsound hstep, ?_⟩
    rcases pair_step hsound (fun form hmem hid => (hgoverned form hmem hid).1) hone hstep with
      ⟨hsame, haccepted | ⟨a, hne, haccepted⟩⟩ | ⟨a, newId, hmem, hid, hpair, -, haccepted,
        hattempt⟩
    · exact ⟨hsame.trans hrow, haccepted ▸ hattempts⟩
    · refine ⟨hsame.trans hrow, ?_⟩
      rw [haccepted, attemptsOf_cons_ne _ hne]
      exact hattempts
    · rcases hattempt with ⟨hnone, -⟩ | ⟨row', hrow', hdenial, -⟩
      · rw [hnone] at hrow
        cases hrow
      · obtain rfl := List.singleton_inj.1 (hrow.symm.trans hrow')
        rw [(hgoverned a.form hmem hid).2] at hdenial
        exact absurd ⟨hlock, hpassed⟩ (Retry.denial_eq_none.1 hdenial).1
  exact hinv.2.2

end

/-- In every state of a run in which the form keeps its policy, from a state without a row of the
member, the limits hold, and consecutive accepted submits keep the cooldown, if there is one. -/
theorem attempts_limited (libs : SubmitLibs) {f : Uuid} {d : Text} {cfg : Retry.Config}
    {s t : SubmitState} {es : List SubmitEvent} (hs : s.transactions = [])
    (hrows : rowsOf (f.text, d) s.responses = [])
    (haccepted : attemptsOf (f.text, d) s.accepted = []) (hrun : GovernedRun libs f cfg s es t) :
    AttemptLimits libs f d cfg t ∧ (0 < cfg.cooldownSeconds → CooldownKept f d cfg t) := by
  have hinit : s.Sound libs := SubmitState.sound_of_idle hs
  have hlimits : PairLimits cfg (attemptsOf (f.text, d) s.accepted)
      (rowsOf (f.text, d) s.responses) := by
    rw [hrows, haccepted]
    refine ⟨Or.inl ⟨rfl, rfl⟩, fun hpos => ?_, fun _ => List.IsChain.nil⟩
    have hpos := Int32.lt_iff_toInt_lt.1 hpos
    rw [Int32.toInt_zero] at hpos
    exact hpos.le
  have hinv : t.Sound libs ∧ PairLimits cfg (attemptsOf (f.text, d) t.accepted)
      (rowsOf (f.text, d) t.responses) :=
    hrun.invariant (P := fun u => u.Sound libs ∧
        PairLimits cfg (attemptsOf (f.text, d) u.accepted) (rowsOf (f.text, d) u.responses))
      (fun u e u' h hform hstep => ⟨sound_step h.1 hstep, PairLimits.step h.1 hform h.2 hstep⟩)
        ⟨hinit, hlimits⟩
  obtain ⟨hsound, hpair⟩ := hinv
  refine ⟨⟨?_, ?_, ?_, hpair.bound, ?_⟩, hpair.cooldown⟩
  · rcases hpair.row with ⟨-, hnone⟩ | ⟨row, latest, earlier, hrow, -⟩
    · rw [hnone]
      exact Nat.zero_le 1
    · rw [hrow]
      exact le_refl 1
  · intro hnone
    rcases hpair.row with ⟨hattempts, -⟩ | ⟨row, latest, earlier, hrow, -⟩
    · exact hattempts
    · rw [hnone] at hrow
      cases hrow
  · intro row hrow
    rcases hpair.row with ⟨-, hnone⟩ | ⟨row', latest, earlier, hrow', -, -, hcount⟩
    · rw [hnone] at hrow
      exact absurd hrow List.not_mem_nil
    · rw [hrow'] at hrow
      rw [List.mem_singleton.1 hrow]
      exact hcount
  · rintro hlock ⟨row, hrow, hpassed⟩ fs u hrun'
    exact locked_run hsound hlock (hpair.one row hrow) hpassed hrun'

/-! ### Two tabs -/

/-- The first tab's submit reads the clock at 1 and then waits; the second tab's begins at 2 and is
accepted first. -/
def twoTabs : List SubmitEvent :=
  [.begin (quizAnswers 1) 0, .advance 0 .load, .advance 0 (.vet 1 1 (.ok [])),
    .begin (quizAnswers 2) 2, .advance 0 .load, .advance 0 (.vet 3 3 (.ok [])), .advance 0 .lock,
    .advance 0 (.read none), .advance 0 (.write 1 4), .commit 0,
    .advance 0 .lock, .advance 0 (.read (some 1)), .advance 0 (.write 2 5), .commit 0]

/-- Without a cooldown, a submit may be accepted after one that began later than its own checks. -/
theorem not_attempts_limited :
    ¬ ∀ (libs : SubmitLibs) (f : Uuid) (d : Text) (cfg : Retry.Config) (s t : SubmitState)
    (es : List SubmitEvent),
      s.transactions = [] → rowsOf (f.text, d) s.responses = [] →
      attemptsOf (f.text, d) s.accepted = [] →
      GovernedRun libs f cfg s es t → AttemptLimits libs f d cfg t ∧ CooldownKept f d cfg t := by
  intro h
  have hrun : ((submitSystem quizLibs).check
      (fun s _ _ => s.forms.rows.all fun form =>
        form.id ≠ quizForm.id || form.governedBy quizForm.retryConfig)
      quizStart twoTabs).any (fun t =>
        (attemptsOf (quizForm.id.text, "ann".toList) t.accepted).map
          (fun a => (a.admittedAt, a.recordedAt)) =
          [(1, 0), (3, 2)]) = true := by decide
  obtain ⟨t, ht, htimes⟩ := (Option.any_eq_true _ _).1 hrun
  have hgoverned : GovernedRun quizLibs quizForm.id quizForm.retryConfig quizStart twoTabs t := by
    refine (System.Run.of_check ht).mono fun s e s' h form hform hid => ?_
    simpa [hid] using List.all_eq_true.1 h form hform
  have hkept := (h quizLibs quizForm.id "ann".toList quizForm.retryConfig quizStart t twoTabs
    rfl rfl rfl hgoverned).2
  obtain ⟨later, rest, hattempts, hlater, hrest⟩ :=
    List.map_eq_cons_iff.1 (of_decide_eq_true htimes)
  obtain ⟨earlier, rest, rfl, hearlier, -⟩ := List.map_eq_cons_iff.1 hrest
  rw [CooldownKept, hattempts] at hkept
  have hle := (List.isChain_cons_cons.1 hkept).1
  rw [(Prod.mk.inj hlater).1, (Prod.mk.inj hearlier).2] at hle
  exact absurd hle (by decide)

/-- Two attempts at a quiz with a cooldown of ten seconds. -/
def cooledForm : Form := { quizForm with maxAttempts := 2, retryCooldownSeconds := 10 }

def cooledStart : SubmitState := { quizStart with forms := ⟨[cooledForm], List.nodup_singleton _⟩ }

/-- The attempt at five seconds is denied. -/
def cooledEvents : List SubmitEvent :=
  quizSubmit 1 0 none ++ (quizSubmit 2 5000000000 (some 1)).dropLast ++
    quizSubmit 2 10000000000 (some 1)

theorem attempts_limited_cooled :
    ∃ t, (submitSystem quizLibs).exec cooledStart cooledEvents = some t ∧
      (attemptsOf (cooledForm.id.text, "ann".toList) t.accepted).map Accepted.score = [2, 1] ∧
      CooldownKept cooledForm.id "ann".toList cooledForm.retryConfig t := by
  have hrun : ((submitSystem quizLibs).check
      (fun s _ _ => s.forms.rows.all fun form =>
        form.id ≠ cooledForm.id || form.governedBy cooledForm.retryConfig)
      cooledStart cooledEvents).any (fun t =>
        (attemptsOf (cooledForm.id.text, "ann".toList) t.accepted).map Accepted.score = [2, 1]) =
          true := by decide
  obtain ⟨t, ht, hscores⟩ := (Option.any_eq_true _ _).1 hrun
  have hgoverned : GovernedRun quizLibs cooledForm.id cooledForm.retryConfig cooledStart
      cooledEvents t := by
    refine (System.Run.of_check ht).mono fun s e s' h form hform hid => ?_
    simpa [hid] using List.all_eq_true.1 h form hform
  have hlimits := attempts_limited (d := "ann".toList) quizLibs rfl rfl rfl hgoverned
  exact ⟨t, hgoverned.exec_eq, of_decide_eq_true hscores, hlimits.2 (by decide)⟩

end FormRespondentRole
