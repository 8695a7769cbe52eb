import FormRespondentRole.SubmitInvariant
import FormRespondentRole.Foundations.FirstMax

/-!
# The canonical row

Every response row holds the answers, the score and the form version of one accepted submit.  While
a form is graded and keeps the best attempt, a member's row holds the earliest attempt of the
greatest score and passes when any attempt did; while it keeps the latest, the row holds the last
attempt.
-/

namespace FormRespondentRole

open Foundations

/-- The row holds the answers, the score and the form version of the submit. -/
def Accepted.Holds (a : Accepted) (row : FormResponse) : Prop :=
  row.answers = a.graded.answers ∧ row.totalScore = a.graded.totalScore ∧
    row.schemaVersion = a.form.version

def Accepted.binds (a : Accepted) (newId : Uuid) : WriteBinds where
  newId := newId
  formId := a.form.id.text
  guildId := a.form.guildId
  discordId := a.submission.discordId
  answers := a.graded.answers
  version := a.form.version
  now := a.recordedAt

/-- The row that a first attempt leaves. -/
def Accepted.firstRow (a : Accepted) (newId : Uuid) : FormResponse :=
  insertedRow (a.binds newId) 1 a.graded.totalScore a.graded.passed

/-- What a further attempt makes of the row. -/
def Accepted.furtherRow (a : Accepted) (newId : Uuid) (row : FormResponse) : FormResponse :=
  let next := Retry.nextAttempt a.form.retryConfig.policy row.toCanonical.toExisting
    ⟨a.graded.totalScore, a.graded.passed⟩
  if next.overwriteAnswers then
    (overwriteSet (a.binds newId) next.attemptCount next.totalScore next.passed).set row
  else (recordSet (a.binds newId) next.attemptCount next.totalScore next.passed).set row

section

variable {libs : SubmitLibs} {s s' : SubmitState} {tx : SubmitTx} {pair : PairKey}
  {t t' : ResponseTable}
  {forms : Table Form.id} {form : Form} {now : Instant} {g : Graded} {write : ResponseWrite}
    {newId : Uuid}
  {jobsNow : Instant}

/-! ### One attempt -/

theorem rowsOf_update {p : FormResponse → Bool} {c : SetClause FormResponse.id}
    (hc : ∀ row, (c.set row).pair = row.pair) :
    rowsOf pair (t.update p c) = (rowsOf pair t).map fun row => if p row then c.set row else row :=
  Table.filter_update t p fun row => by rw [hc]

/-- The commit of a governed submit, for a member with at most one row: the first attempt inserts a
row, and a further one is not denied and updates the row. -/
theorem commit_attempt (a : Accepted) (hs : tx.Sound libs forms t)
    (hphase : tx.phase = .written form now g write newId jobsNow)
    (hgov : form.isRetryGoverned = true) (happly : write.apply (tx.binds form g newId) t = some t')
    (ha : a.form = form ∧ a.submission = tx.submission ∧ a.graded = g ∧ a.recordedAt = tx.startedAt)
    (hone : ∀ row ∈ rowsOf (tx.pair form) t, rowsOf (tx.pair form) t = [row]) :
    (rowsOf (tx.pair form) t = [] ∧ rowsOf (tx.pair form) t' = [a.firstRow newId]) ∨
      ∃ row, rowsOf (tx.pair form) t = [row] ∧
        Retry.denial now form.retryConfig row.toCanonical.toExisting = none ∧
        rowsOf (tx.pair form) t' = [a.furtherRow newId row] := by
  obtain ⟨rfl, hsub, rfl, hrec⟩ := ha
  have hbinds : tx.binds a.form a.graded newId = a.binds newId := by
    rw [SubmitTx.binds, Accepted.binds, hsub, hrec]
  have hgov' : a.form.keepsOne = true ∧ a.form.editable = false := by
    simpa [Form.isRetryGoverned] using hgov
  unfold SubmitTx.Sound at hs
  rw [hphase] at hs
  obtain ⟨-, -, existing, hcanonical, hwrite⟩ := hs
  have hcanonical := hcanonical hgov'.1
  rw [hbinds] at happly
  rcases submitWrite_cases hwrite with ⟨rfl, hnone⟩ | ⟨r, -, -, heditable, -⟩ |
    ⟨r, rfl, -, -, hdenial, rfl⟩
  · left
    rw [hnone hgov'.1] at hcanonical
    simp only [ResponseWrite.apply, Option.dite_none_right_eq_some, Option.some.injEq] at happly
    obtain ⟨hfresh, rfl⟩ := happly
    refine ⟨hcanonical, (rowsOf_insert _ t _ hfresh).trans ?_⟩
    have hpair : (insertedRow (a.binds newId) 1 a.graded.totalScore a.graded.passed).pair =
        tx.pair a.form := by
      rw [SubmitTx.pair, ← hsub]
      rfl
    rw [if_pos hpair, show rowsOf (tx.pair a.form) t = [] from hcanonical]
    rfl
  · rw [hgov'.2] at heditable
    cases heditable
  · right
    obtain ⟨row, hrow, rfl⟩ := hcanonical
    have hid : decide (row.id = row.toCanonical.id) = true := decide_eq_true rfl
    refine ⟨row, hone row hrow, hdenial, ?_⟩
    unfold attemptWrite at happly
    unfold Accepted.furtherRow
    dsimp only at happly ⊢
    split at happly
    · rename_i hover
      simp only [ResponseWrite.apply, Option.some.injEq] at happly
      rw [if_pos hover, ← happly, rowsOf_update fun _ => rfl, hone row hrow, List.map_singleton,
        if_pos hid]
    · rename_i hover
      simp only [ResponseWrite.apply, Option.some.injEq] at happly
      rw [if_neg hover, ← happly, rowsOf_update fun _ => rfl, hone row hrow, List.map_singleton,
        if_pos hid]

/-- A row after a commit is a row from before, with the triple it had, or a row of the pair with the
submit's. -/
theorem commit_rows (a : Accepted) (hs : tx.Sound libs forms t)
    (hphase : tx.phase = .written form now g write newId jobsNow)
    (happly : write.apply (tx.binds form g newId) t = some t')
    (ha : a.form = form ∧ a.submission = tx.submission ∧ a.graded = g ∧
      a.recordedAt = tx.startedAt) :
    ∀ row' ∈ t'.rows, (row'.pair = a.pair ∧ a.Holds row') ∨
      ∃ row ∈ t.rows, row'.pair = row.pair ∧ row'.answers = row.answers ∧
        row'.totalScore = row.totalScore ∧
        row'.schemaVersion = row.schemaVersion := by
  obtain ⟨rfl, hsub, rfl, hrec⟩ := ha
  have hpair : a.pair = tx.pair a.form := by rw [Accepted.pair, SubmitTx.pair, hsub]
  have hbinds : tx.binds a.form a.graded newId = a.binds newId := by
    rw [SubmitTx.binds, Accepted.binds, hsub, hrec]
  have hown := hs.pair_of_rowId hphase happly
  unfold SubmitTx.Sound at hs
  rw [hphase] at hs
  obtain ⟨-, -, existing, hcanonical, hwrite⟩ := hs
  rw [hbinds] at happly hown
  -- what the write does not touch
  have hkept : ∀ row ∈ t.rows, ∃ row₀ ∈ t.rows, row.pair = row₀.pair ∧ row.answers = row₀.answers ∧
      row.totalScore = row₀.totalScore ∧ row.schemaVersion = row₀.schemaVersion :=
    fun row hrow => ⟨row, hrow, rfl, rfl, rfl, rfl⟩
  intro row' hrow'
  rcases submitWrite_cases hwrite with ⟨rfl, -⟩ | ⟨r, rfl, -, -, rfl⟩ |
    ⟨r, rfl, hkeeps, -, -, rfl⟩
  · simp only [ResponseWrite.apply, Option.dite_none_right_eq_some, Option.some.injEq] at happly
    obtain ⟨hfresh, rfl⟩ := happly
    rcases List.mem_append.1 hrow' with hrow' | hrow'
    · exact Or.inr (hkept row' hrow')
    · rw [List.mem_singleton.1 hrow']
      exact Or.inl ⟨rfl, rfl, rfl, rfl⟩
  · simp only [ResponseWrite.apply, Option.some.injEq] at happly
    subst happly
    obtain ⟨row, hrow, rfl⟩ := Table.mem_update.1 hrow'
    split
    · rename_i hid
      left
      rw [hpair, ← hown row hrow (of_decide_eq_true hid)]
      exact ⟨rfl, rfl, rfl, rfl⟩
    · exact Or.inr (hkept row hrow)
  · unfold attemptWrite at happly hown
    dsimp only at happly hown
    split at happly
    · rename_i hover
      rw [if_pos hover] at hown
      simp only [ResponseWrite.apply, Option.some.injEq] at happly
      subst happly
      obtain ⟨row, hrow, rfl⟩ := Table.mem_update.1 hrow'
      split
      · rename_i hid
        left
        rw [hpair, ← hown row hrow (of_decide_eq_true hid)]
        exact ⟨rfl, rfl, Retry.nextAttempt_overwrite hover, rfl⟩
      · exact Or.inr (hkept row hrow)
    · -- the attempt that is recorded is no better than the row it is recorded in
      rename_i hover
      have hover := Bool.eq_false_iff.2 hover
      simp only [ResponseWrite.apply, Option.some.injEq] at happly
      subst happly
      obtain ⟨row, hrow, rfl⟩ := Table.mem_update.1 hrow'
      refine Or.inr ⟨row, hrow, ?_⟩
      split
      · rename_i hid
        obtain ⟨canonical, hmem, hr⟩ := hcanonical hkeeps
        have hids : row.id = canonical.id :=
          (of_decide_eq_true hid).trans (congrArg CanonicalAttempt.id hr).symm
        have hsame : row = canonical := Table.eq_of_key hrow (mem_rowsOf.1 hmem).1 hids
        refine ⟨rfl, rfl, (Retry.nextAttempt_record hover).trans ?_, rfl⟩
        rw [hsame, ← hr]
        rfl
      · exact ⟨rfl, rfl, rfl, rfl⟩

/-- What a commit does to the responses and to the list of accepted submits. -/
theorem commitTx_eq_some {others : List SubmitTx} (h : commitTx libs s others tx = some s') :
    ∃ a form now g write newId jobsNow, tx.phase = .written form now g write newId jobsNow ∧
      (a.form = form ∧ a.submission = tx.submission ∧ a.graded = g ∧ a.recordedAt = tx.startedAt) ∧
      a.admittedAt = now ∧ write.apply (tx.binds form g newId) s.responses = some s'.responses ∧
      s'.accepted = a :: s.accepted := by
  unfold commitTx at h
  split at h
  · rename_i form now g write newId jobsNow hphase
    obtain ⟨t', happly, rfl⟩ := Option.map_eq_some_iff.1 h
    exact ⟨_, form, now, g, write, newId, jobsNow, hphase, ⟨rfl, rfl, rfl, rfl⟩, rfl, happly, rfl⟩
  · cases h

/-! ### Every row is one submit's -/

/-- Some accepted submit of the row's pair has left what the row holds. -/
def Traced (libs : SubmitLibs) (accepted : List Accepted) (row : FormResponse) : Prop :=
  ∃ a ∈ accepted, a.pair = row.pair ∧ GradedBy libs a.form a.submission a.graded ∧ a.Holds row

theorem SubmitTx.Sound.graded (hs : tx.Sound libs forms t)
    (hphase : tx.phase = .written form now g write newId jobsNow) :
    form ∈ forms.rows ∧ GradedBy libs form tx.submission g := by
  unfold SubmitTx.Sound at hs
  rw [hphase] at hs
  exact ⟨hs.1, hs.2.1⟩

theorem traced_step {e : SubmitEvent} (hs : s.Sound libs)
    (htraced : ∀ row ∈ s.responses.rows, Traced libs s.accepted row)
    (hstep : submitStep libs s e = some s') :
    ∀ row ∈ s'.responses.rows, Traced libs s'.accepted row := by
  rcases submitStep_cases hstep with ⟨hresponses, haccepted⟩ | ⟨tx, htx, others, hcommit, -⟩
  · rw [hresponses, haccepted]
    exact htraced
  · obtain ⟨a, form, now, g, write, newId, jobsNow, hphase, ha, -, happly, haccepted⟩ :=
      commitTx_eq_some hcommit
    have hsound := hs.transactions tx htx
    have hgraded := (hsound.graded hphase).2
    intro row' hrow'
    rw [haccepted]
    rcases commit_rows a hsound hphase happly ha row' hrow' with ⟨hpair, hholds⟩ |
      ⟨row, hrow, hpair, hanswers, hscore, hversion⟩
    · refine ⟨a, List.mem_cons_self, hpair.symm, ?_, hholds⟩
      rw [ha.1, ha.2.1, ha.2.2.1]
      exact hgraded
    · obtain ⟨b, hb, hbpair, hbgraded, hholds⟩ := htraced row hrow
      refine ⟨b, List.mem_cons_of_mem _ hb, hbpair.trans hpair.symm, hbgraded, ?_⟩
      exact ⟨hanswers.trans hholds.1, hscore.trans hholds.2.1, hversion.trans hholds.2.2⟩

/-! ### A pair whose form is retry-governed -/

/-- The accepted submits of a pair. -/
def attemptsOf (pair : PairKey) (accepted : List Accepted) : List Accepted :=
  accepted.filter (·.pair = pair)

theorem attemptsOf_cons_self {a : Accepted} (accepted : List Accepted) (h : a.pair = pair) :
    attemptsOf pair (a :: accepted) = a :: attemptsOf pair accepted := by
  rw [attemptsOf, List.filter_cons, if_pos (decide_eq_true h), attemptsOf]

theorem attemptsOf_cons_ne {a : Accepted} (accepted : List Accepted) (h : a.pair ≠ pair) :
    attemptsOf pair (a :: accepted) = attemptsOf pair accepted := by
  rw [attemptsOf, List.filter_cons, if_neg fun h' => h (of_decide_eq_true h'), attemptsOf]

/-- The forms of this id, at most one, have the property. -/
def SubmitState.FormIs (s : SubmitState) (f : Uuid) (P : Form → Prop) : Prop :=
  ∀ form ∈ s.forms.rows, form.id = f → P form

/-- One step, seen from a pair with at most one row: nothing changes for the pair, or one of its
submits is accepted. -/
theorem pair_step {e : SubmitEvent} {f : Uuid} {d : Text} (hs : s.Sound libs)
    (hgov : s.FormIs f fun form => form.isRetryGoverned = true)
    (hone : ∀ row ∈ rowsOf (f.text, d) s.responses, rowsOf (f.text, d) s.responses = [row])
    (hstep : submitStep libs s e = some s') :
    (rowsOf (f.text, d) s'.responses = rowsOf (f.text, d) s.responses ∧
        (s'.accepted = s.accepted ∨ ∃ a, a.pair ≠ (f.text, d) ∧ s'.accepted = a :: s.accepted)) ∨
      ∃ a newId, a.form ∈ s.forms.rows ∧ a.form.id = f ∧ a.pair = (f.text, d) ∧
        GradedBy libs a.form a.submission a.graded ∧ s'.accepted = a :: s.accepted ∧
        ((rowsOf (f.text, d) s.responses = [] ∧
          rowsOf (f.text, d) s'.responses = [a.firstRow newId]) ∨
          ∃ row, rowsOf (f.text, d) s.responses = [row] ∧
            Retry.denial a.admittedAt a.form.retryConfig row.toCanonical.toExisting = none ∧
            rowsOf (f.text, d) s'.responses = [a.furtherRow newId row]) := by
  rcases submitStep_cases hstep with ⟨hresponses, haccepted⟩ | ⟨tx, htx, others, hcommit, -⟩
  · rw [hresponses]
    exact Or.inl ⟨rfl, Or.inl haccepted⟩
  · obtain ⟨a, form, now, g, write, newId, jobsNow, hphase, ha, rfl, happly, haccepted⟩ :=
      commitTx_eq_some hcommit
    have hsound := hs.transactions tx htx
    obtain ⟨hform, hgraded⟩ := hsound.graded hphase
    have hpair : a.pair = tx.pair form := by rw [Accepted.pair, SubmitTx.pair, ha.1, ha.2.1]
    by_cases hown : tx.pair form = (f.text, d)
    · right
      have hid : form.id = f := Uuid.text_injective (congrArg Prod.fst hown)
      have hattempt := commit_attempt a hsound hphase (hgov form hform hid) happly ha
        (hown.symm ▸ hone)
      rw [hown] at hattempt
      refine ⟨a, newId, ha.1 ▸ hform, ha.1 ▸ hid, hpair.trans hown, ?_, haccepted, ?_⟩
      · rw [ha.1, ha.2.1, ha.2.2.1]
        exact hgraded
      · rw [ha.1]
        exact hattempt
    · left
      refine ⟨hsound.rowsOf_ne hphase happly fun h => hown h.symm, Or.inr ⟨a, ?_, haccepted⟩⟩
      rw [hpair]
      exact hown

/-! ### Keeping the best and keeping the latest -/

def Accepted.score (a : Accepted) : Int := (a.graded.totalScore.map Int32.toInt).getD 0

/-- The OR of the pass bits: an absent one counts as not passed, and the result is absent only when
all are. -/
def anyPassed (attempts : List Accepted) : Option Bool :=
  if attempts.all fun a => a.graded.passed = none then none
  else some (attempts.any fun a => a.graded.passed = some true)

/-- Every attempt has a score, and the row, when there is an attempt, is that of the earliest one of
the greatest score, passed when any of them passed. -/
def HoldsBest (attempts : List Accepted) (rows : List FormResponse) : Prop :=
  (∀ a ∈ attempts, a.graded.totalScore ≠ none) ∧
    ((attempts = [] ∧ rows = []) ∨
      ∃ row a, rows = [row] ∧ FirstMax Accepted.score attempts a ∧ a.Holds row ∧
        row.passed = anyPassed attempts)

/-- The row, when there is an attempt, is that of the last one. -/
def HoldsLatest (attempts : List Accepted) (rows : List FormResponse) : Prop :=
  (attempts = [] ∧ rows = []) ∨
    ∃ row a earlier, attempts = a :: earlier ∧ rows = [row] ∧ a.Holds row ∧
      row.passed = a.graded.passed

private theorem anyPassed_cons (a : Accepted) (attempts : List Accepted) :
    anyPassed (a :: attempts) = Retry.combinedPassed (anyPassed attempts) a.graded.passed := by
  unfold anyPassed
  rw [List.all_cons, List.any_cons]
  cases a.graded.passed with
  | none =>
    rw [decide_eq_true rfl, Bool.true_and]
    cases attempts.all fun a => a.graded.passed = none
    · simp [Retry.combinedPassed]
    · simp [Retry.combinedPassed]
  | some b =>
    have hnone : attempts.all (fun a => decide (a.graded.passed = none)) = true →
        attempts.any (fun a => decide (a.graded.passed = some true)) = false := by
      rw [List.all_eq_true, List.any_eq_false]
      intro h c hc
      rw [of_decide_eq_true (h c hc)]
      exact Bool.false_ne_true
    cases hall : attempts.all fun a => a.graded.passed = none
    · cases b <;> simp [Retry.combinedPassed]
    · rw [hnone hall]
      cases b <;> simp [Retry.combinedPassed]

/-- The grade of a quiz: a score, and whether it reaches the threshold, if there is one. -/
theorem GradedBy.quiz {submission : Submission} (h : GradedBy libs form submission g)
    (hquiz : form.isQuiz = true) :
    ∃ score, g.totalScore = some score ∧ g.passed = form.passingScore.map fun t =>
      decide (t ≤ score) := by
  unfold GradedBy grade at h
  rw [hquiz] at h
  cases hschema : libs.validator.fromValue form.schema with
  | error e =>
    rw [hschema] at h
    cases h
  | ok schema =>
    rw [hschema] at h
    cases hverified : libs.validator.validate schema submission.body.answers with
    | error e =>
      simp only [Except.mapError, hverified, bind, Except.bind] at h
      cases h
    | ok verified =>
      simp only [Except.mapError, hverified, bind, Except.bind, if_true] at h
      rw [← Except.ok.inj h]
      refine ⟨_, rfl, ?_⟩
      cases form.passingScore <;> rfl

private theorem GradedBy.totalScore_ne_none {submission : Submission}
    (h : GradedBy libs form submission g) (hquiz : form.isQuiz = true) : g.totalScore ≠ none := by
  obtain ⟨score, hscore, -⟩ := h.quiz hquiz
  rw [hscore]
  exact Option.some_ne_none score

theorem HoldsBest.first {a : Accepted} (newId : Uuid) (hscore : a.graded.totalScore ≠ none) :
    HoldsBest [a] [a.firstRow newId] := by
  refine ⟨fun b hb => List.mem_singleton.1 hb ▸ hscore,
    Or.inr ⟨_, a, rfl, FirstMax.singleton a, ⟨rfl, rfl, rfl⟩, ?_⟩⟩
  rw [anyPassed_cons]
  cases hpassed : a.graded.passed with
  | none => exact hpassed
  | some b =>
    refine hpassed.trans ?_
    cases b <;> rfl

theorem HoldsBest.further {attempts : List Accepted} {row : FormResponse} {a : Accepted}
    (newId : Uuid) (hscore : a.graded.totalScore ≠ none)
    (hpolicy : a.form.retryConfig.policy = .keepBest) (h : HoldsBest attempts [row]) :
    HoldsBest (a :: attempts) [a.furtherRow newId row] := by
  obtain ⟨hscores, ⟨-, hrows⟩ | ⟨row', best, hrows, hmax, hholds, hpassed⟩⟩ := h
  · cases hrows
  · obtain rfl := List.singleton_inj.1 hrows
    refine ⟨fun b hb => ?_, Or.inr ?_⟩
    · rcases List.mem_cons.1 hb with rfl | hb
      · exact hscore
      · exact hscores b hb
    · obtain ⟨x, hx⟩ := Option.ne_none_iff_exists'.1 (hscores best hmax.mem)
      obtain ⟨y, hy⟩ := Option.ne_none_iff_exists'.1 hscore
      have hrow : row.toCanonical.toExisting.totalScore = some x := hholds.2.1.trans hx
      have hnext := Retry.nextAttempt_keepBest hrow
        (show Retry.NewSubmission.totalScore ⟨a.graded.totalScore, a.graded.passed⟩ = some y
          from hy)
      rw [← hpolicy] at hnext
      have hbest : best.score = x.toInt := by rw [Accepted.score, hx, Option.map_some,
        Option.getD_some]
      have hnew : a.score = y.toInt := by rw [Accepted.score, hy, Option.map_some, Option.getD_some]
      have hcombined : Retry.combinedPassed row.passed a.graded.passed =
          anyPassed (a :: attempts) := by
        rw [anyPassed_cons, hpassed]
      have htotal := congrArg Retry.AcceptedAttempt.totalScore hnext
      have hpass := congrArg Retry.AcceptedAttempt.passed hnext
      have hoverwrite := congrArg Retry.AcceptedAttempt.overwriteAnswers hnext
      unfold Accepted.furtherRow
      dsimp only at htotal hpass hoverwrite ⊢
      by_cases hlt : x < y
      · have hover := hoverwrite.trans (decide_eq_true hlt)
        rw [if_pos hover]
        refine ⟨_, a, rfl, hmax.cons_of_lt ?_, ⟨rfl, Retry.nextAttempt_overwrite hover, rfl⟩,
          hpass.trans hcombined⟩
        rw [hbest, hnew]
        exact Int32.lt_iff_toInt_lt.1 hlt
      · have hover := hoverwrite.trans (decide_eq_false hlt)
        rw [if_neg (Bool.eq_false_iff.1 hover)]
        refine ⟨_, best, rfl, hmax.cons_of_le ?_, ⟨hholds.1, ?_, hholds.2.2⟩, hpass.trans hcombined⟩
        · rw [hbest, hnew]
          exact Int.not_lt.1 fun h => hlt (Int32.lt_iff_toInt_lt.2 h)
        · exact (Retry.nextAttempt_record hover).trans hholds.2.1

theorem HoldsLatest.further (attempts : List Accepted) (row : FormResponse) {a : Accepted}
    (newId : Uuid) (hpolicy : a.form.retryConfig.policy = .keepLatest) :
    HoldsLatest (a :: attempts) [a.furtherRow newId row] := by
  refine Or.inr ⟨_, a, attempts, rfl, rfl, ?_⟩
  unfold Accepted.furtherRow
  rw [hpolicy, Retry.nextAttempt_keepLatest]
  exact ⟨⟨rfl, rfl, rfl⟩, rfl⟩

/-- In a run in which the pair's form has a property that governs it, a summary of the attempts that
the first and every further attempt keeps is a summary of all attempts of the run. -/
theorem pair_run {P : Form → Prop} {summary : List Accepted → List FormResponse → Prop} {f : Uuid}
    {d : Text} {es : List SubmitEvent} (hP : ∀ form, P form → form.isRetryGoverned = true)
    (hempty : summary [] [])
    (hsingle : ∀ attempts rows, summary attempts rows → attempts = [] ∧ rows = [] ∨
      ∃ row, rows = [row])
    (hfirst : ∀ a newId, P a.form → GradedBy libs a.form a.submission a.graded →
      summary [a] [a.firstRow newId])
    (hfurther : ∀ a newId attempts row, P a.form → GradedBy libs a.form a.submission a.graded →
      summary attempts [row] → summary (a :: attempts) [a.furtherRow newId row])
    (hs : s.Sound libs) (hrows : rowsOf (f.text, d) s.responses = [])
    (hrun : (submitSystem libs).Run (fun s _ _ => s.FormIs f P) s es s') :
    ∃ new, s'.accepted = new ++ s.accepted ∧
      summary (attemptsOf (f.text, d) new) (rowsOf (f.text, d) s'.responses) := by
  have hinv : s'.Sound libs ∧ ∃ new, s'.accepted = new ++ s.accepted ∧
      summary (attemptsOf (f.text, d) new) (rowsOf (f.text, d) s'.responses) := by
    refine hrun.invariant (P := fun t => t.Sound libs ∧ ∃ new, t.accepted = new ++ s.accepted ∧
      summary (attemptsOf (f.text, d) new) (rowsOf (f.text, d) t.responses)) ?_
        ⟨hs, [], rfl, hrows ▸ hempty⟩
    rintro t e t' ⟨hsound, new, hnew, hsum⟩ hform hstep
    refine ⟨sound_step hsound hstep, ?_⟩
    have hone : ∀ row ∈ rowsOf (f.text, d) t.responses, rowsOf (f.text, d) t.responses = [row] := by
      intro row hrow
      rcases hsingle _ _ hsum with ⟨-, hnone⟩ | ⟨row', hrow'⟩
      · rw [hnone] at hrow
        exact absurd hrow List.not_mem_nil
      · rw [hrow'] at hrow ⊢
        rw [List.mem_singleton.1 hrow]
    rcases pair_step hsound (fun form hmem hid => hP form (hform form hmem hid)) hone hstep with
      ⟨hsame, haccepted | ⟨a, hne, haccepted⟩⟩ | ⟨a, newId, hmem, hid, hpair, hgraded, haccepted,
        hattempt⟩
    · exact ⟨new, haccepted.trans hnew, hsame ▸ hsum⟩
    · refine ⟨a :: new, by rw [haccepted, hnew, List.cons_append], ?_⟩
      rw [attemptsOf_cons_ne new hne, hsame]
      exact hsum
    · refine ⟨a :: new, by rw [haccepted, hnew, List.cons_append], ?_⟩
      rw [attemptsOf_cons_self new hpair]
      have hPa : P a.form := hform a.form hmem hid
      rcases hattempt with ⟨hnone, hrow⟩ | ⟨row, hrow, -, hrow'⟩
      · rw [hrow]
        rcases hsingle _ _ hsum with ⟨hattempts, -⟩ | ⟨row', hrow'⟩
        · rw [hattempts]
          exact hfirst a newId hPa hgraded
        · rw [hnone] at hrow'
          cases hrow'
      · rw [hrow']
        exact hfurther a newId _ row hPa hgraded (hrow ▸ hsum)
  exact hinv.2

end

/-- The form is graded, and keeps the best attempt. -/
def Form.gradedBest (form : Form) : Bool :=
  form.isQuiz && decide (form.retryConfig.policy = .keepBest)

/-- The form is retry-governed, and keeps the latest attempt. -/
def Form.governedLatest (form : Form) : Bool :=
  form.isRetryGoverned && decide (form.retryConfig.policy = .keepLatest)

/-- Every row of a run holds what one accepted submit of its pair left.  From a state in which a
member has no row, while the form is graded and keeps the best, the member's row is the earliest
best attempt; while it keeps the latest, it is the latest. -/
theorem canonical_row (libs : SubmitLibs) {s t : SubmitState} {es : List SubmitEvent}
    (hs : s.transactions = []) (hrows : s.responses.rows = [])
    (hrun : (submitSystem libs).Run (fun _ _ _ => True) s es t) :
    (∀ row ∈ t.responses.rows, Traced libs t.accepted row) ∧
      ∀ (f : Uuid) (d : Text), rowsOf (f.text, d) t.responses = [] →
        ∀ (fs : List SubmitEvent) (u : SubmitState),
        ((submitSystem libs).Run (fun s _ _ => s.FormIs f fun form =>
          form.gradedBest = true) t fs u →
          ∃ new, u.accepted = new ++ t.accepted ∧
            HoldsBest (attemptsOf (f.text, d) new) (rowsOf (f.text, d) u.responses)) ∧
        ((submitSystem libs).Run (fun s _ _ => s.FormIs f fun form =>
          form.governedLatest = true) t fs u →
          ∃ new, u.accepted = new ++ t.accepted ∧
            HoldsLatest (attemptsOf (f.text, d) new) (rowsOf (f.text, d) u.responses)) := by
  have hinit : s.Sound libs := SubmitState.sound_of_idle hs
  have hinv : t.Sound libs ∧ ∀ row ∈ t.responses.rows, Traced libs t.accepted row := by
    refine hrun.invariant (P := fun u => u.Sound libs ∧ ∀ row ∈ u.responses.rows,
      Traced libs u.accepted row)
      (fun u e u' h _ hstep => ⟨sound_step h.1 hstep, traced_step h.1 h.2 hstep⟩) ⟨hinit, ?_⟩
    rw [hrows]
    exact fun row hrow => absurd hrow List.not_mem_nil
  refine ⟨hinv.2, fun f d hnone fs u => ⟨fun hbest => ?_, fun hlatest => ?_⟩⟩
  · refine pair_run ?_ ⟨fun a ha => absurd ha List.not_mem_nil,
      Or.inl ⟨rfl, rfl⟩⟩ ?_ ?_ ?_ hinv.1 hnone hbest
    · intro form hform
      simp only [Form.gradedBest, Bool.and_eq_true] at hform
      simp [Form.isRetryGoverned, Form.keepsOne, Form.editable, hform.1]
    · rintro attempts rows ⟨-, h | ⟨row, a, hrow, -⟩⟩
      · exact Or.inl h
      · exact Or.inr ⟨row, hrow⟩
    · intro a newId hform hgraded
      simp only [Form.gradedBest, Bool.and_eq_true] at hform
      exact HoldsBest.first newId (hgraded.totalScore_ne_none hform.1)
    · intro a newId attempts row hform hgraded h
      simp only [Form.gradedBest, Bool.and_eq_true, decide_eq_true_eq] at hform
      exact h.further newId (hgraded.totalScore_ne_none hform.1) hform.2
  · refine pair_run ?_ (Or.inl ⟨rfl, rfl⟩) ?_ ?_ ?_ hinv.1 hnone hlatest
    · intro form hform
      simp only [Form.governedLatest, Bool.and_eq_true] at hform
      exact hform.1
    · rintro attempts rows (h | ⟨row, a, earlier, -, hrow, -⟩)
      · exact Or.inl h
      · exact Or.inr ⟨row, hrow⟩
    · exact fun a newId _ _ => Or.inr ⟨_, a, [], rfl, rfl, ⟨rfl, rfl, rfl⟩, rfl⟩
    · intro a newId attempts row hform _ _
      simp only [Form.governedLatest, Bool.and_eq_true, decide_eq_true_eq] at hform
      exact HoldsLatest.further attempts row newId hform.2

/-! ### A quiz taken three times -/

/-- The score is the number of answers. -/
def quizLibs : SubmitLibs where
  validator :=
    { Schema := Unit
      fromValue := fun _ => .ok ()
      validate := fun _ answers =>
        match answers with
        | .object fields => .ok fields
        | _ => .ok []
      computeQuizScore := fun _ answers => Int32.ofNat answers.length }
  hashtextextended _ := 0
  toRfc3339 _ := []
  baseUrl := []

def quizForm : Form where
  id := 7
  guildId := "guild".toList
  slug := "quiz".toList
  title := "Quiz".toList
  schema := .null
  isQuiz := true
  passingScore := some 2
  maxAttempts := 0
  lockOnPass := false

def quizStart : SubmitState where
  forms := ⟨[quizForm], List.nodup_singleton _⟩
  responses := Table.empty
  jobs := .empty
  transactions := []
  accepted := []

/-- A submission of the quiz with this many answers. -/
def quizAnswers (n : Nat) : Submission where
  slug := "quiz".toList
  discordId := "ann".toList
  displayName := "Ann".toList
  body := ⟨.object ((List.range n).map fun i => (Text.ofNat i, .null)), 1⟩

/-- A submit without another one in between; `row` is the row it finds. -/
def quizSubmit (n : Nat) (at_ : Instant) (row : Option Uuid) : List SubmitEvent :=
  [.begin (quizAnswers n) at_, .advance 0 .load, .advance 0 (.vet at_ at_ (.ok [])),
    .advance 0 .lock,
    .advance 0 (.read row), .advance 0 (.write 1 at_), .commit 0]

def quizEvents : List SubmitEvent :=
  quizSubmit 1 10 none ++ quizSubmit 2 20 (some 1) ++ quizSubmit 1 30 (some 1)

theorem canonical_row_quiz :
    ∃ t, (submitSystem quizLibs).exec quizStart quizEvents = some t ∧
      t.accepted.map Accepted.score = [1, 2, 1] ∧
      HoldsBest (attemptsOf (quizForm.id.text, "ann".toList) t.accepted)
        (rowsOf (quizForm.id.text, "ann".toList) t.responses) := by
  have hrun : ((submitSystem quizLibs).check
      (fun s _ _ => s.forms.rows.all fun form => form.id ≠ quizForm.id || form.gradedBest)
        quizStart quizEvents).any
      (fun t => t.accepted.map Accepted.score = [1, 2, 1]) = true := by decide
  obtain ⟨t, ht, hscores⟩ := (Option.any_eq_true _ _).1 hrun
  have hstays : (submitSystem quizLibs).Run (fun s _ _ => s.FormIs quizForm.id fun form =>
    form.gradedBest = true)
      quizStart quizEvents t := by
    refine (System.Run.of_check ht).mono fun s e s' h form hform hid => ?_
    simpa [hid] using List.all_eq_true.1 h form hform
  obtain ⟨new, hnew, hbest⟩ :=
    ((canonical_row quizLibs rfl rfl (System.Run.nil quizStart)).2 quizForm.id "ann".toList rfl
      quizEvents t).1 hstays
  rw [show quizStart.accepted = [] from rfl, List.append_nil] at hnew
  exact ⟨t, hstays.exec_eq, of_decide_eq_true hscores, hnew ▸ hbest⟩

end FormRespondentRole
