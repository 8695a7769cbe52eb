import FormRespondentRole.SubmitRuns

/-!
# The invariant of concurrent submits

Every open transaction is sound: its form is the form as it stands, its answers are graded against
that form, and the canonical row it has read is still the member's canonical row.  The last part
needs the advisory lock: the rows of a member on a form that keeps one response change only at the
commit of the transaction that holds the lock.
-/

namespace FormRespondentRole

open Foundations

/-- What was read of the member's rows agrees with the committed rows. -/
def IsCanonical (pair : PairKey) (t : ResponseTable) : Option CanonicalAttempt → Prop
  | none => rowsOf pair t = []
  | some r => ∃ row ∈ rowsOf pair t, row.toCanonical = r

/-- The submission was graded against this form. -/
def GradedBy (libs : SubmitLibs) (form : Form) (submission : Submission) (g : Graded) : Prop :=
  grade libs.validator form submission.body = .ok g

def SubmitTx.Sound (libs : SubmitLibs) (forms : Table Form.id) (t : ResponseTable)
    (tx : SubmitTx) : Prop :=
  match tx.phase with
  | .begun => True
  | .loaded form => form ∈ forms.rows
  | .admitted form _ g => form ∈ forms.rows ∧ GradedBy libs form tx.submission g
  | .locked form _ g => form ∈ forms.rows ∧ GradedBy libs form tx.submission g ∧
    form.keepsOne = true
  | .decided form _ g existing =>
    form ∈ forms.rows ∧ GradedBy libs form tx.submission g ∧ form.keepsOne = true ∧
      IsCanonical (tx.pair form) t existing
  | .written form now g write _ _ =>
    form ∈ forms.rows ∧ GradedBy libs form tx.submission g ∧
      ∃ existing, (form.keepsOne = true → IsCanonical (tx.pair form) t existing) ∧
        submitWrite form now g existing = .ok write

/-- The transactions hold different locks. -/
def LocksApart (libs : SubmitLibs) (a b : SubmitTx) : Prop :=
  ∀ k, a.lock? libs.hashtextextended = some k → b.lock? libs.hashtextextended ≠ some k

structure SubmitState.Sound (libs : SubmitLibs) (s : SubmitState) : Prop where
  transactions : ∀ tx ∈ s.transactions, tx.Sound libs s.forms s.responses
  locks : s.transactions.Pairwise (LocksApart libs)

section

variable {libs : SubmitLibs} {s s' : SubmitState} {tx tx' : SubmitTx} {pair : PairKey}
  {t t' : ResponseTable}
  {forms : Table Form.id}

theorem LocksApart.symm {a b : SubmitTx} (h : LocksApart libs a b) : LocksApart libs b a :=
  fun k hb ha => h k ha hb

/-! ### The rows of a pair -/

theorem mem_rowsOf {row : FormResponse} : row ∈ rowsOf pair t ↔ row ∈ t.rows ∧ row.pair = pair := by
  rw [rowsOf, List.mem_filter, decide_eq_true_iff]

theorem IsCanonical.congr (h : rowsOf pair t' = rowsOf pair t) {existing : Option CanonicalAttempt}
    (hc : IsCanonical pair t existing) : IsCanonical pair t' existing := by
  cases existing with
  | none => exact h.trans hc
  | some r =>
    obtain ⟨row, hrow, hr⟩ := hc
    exact ⟨row, h ▸ hrow, hr⟩

private theorem isCanonical_of_read {latest : Option Uuid} {existing : Option CanonicalAttempt}
    (h : readCanonical pair t latest = some existing) : IsCanonical pair t existing := by
  cases latest with
  | none =>
    simp only [readCanonical, Option.ite_none_right_eq_some, Option.some.injEq] at h
    obtain ⟨hrows, rfl⟩ := h
    exact hrows
  | some id =>
    simp only [readCanonical, Option.map_eq_some_iff] at h
    obtain ⟨row, hrow, rfl⟩ := h
    exact ⟨row, List.mem_of_find?_eq_some hrow, rfl⟩

theorem rowsOf_insert (pair : PairKey) (t : ResponseTable) (row : FormResponse)
    (h : row.id ∉ t.rows.map FormResponse.id) :
    rowsOf pair (t.insert row h) = rowsOf pair t ++ if row.pair = pair then [row] else [] := by
  rw [rowsOf, rowsOf, Table.insert_rows, List.filter_append, List.filter_cons, List.filter_nil]
  simp only [decide_eq_true_eq]

/-- The rows that a write changes are those of its own pair, when the row it updates is. -/
theorem rowsOf_apply_ne {binds : WriteBinds} {write : ResponseWrite}
    (h : write.apply binds t = some t') (hne : pair ≠ (binds.formId, binds.discordId))
    (hid : ∀ row ∈ t.rows, row.id = write.rowId binds →
      row.pair = (binds.formId, binds.discordId)) :
    rowsOf pair t' = rowsOf pair t := by
  have hnot : ∀ id, id = write.rowId binds → ∀ row ∈ t.rows, decide (row.pair = pair) = true →
      decide (row.id = id) = false := by
    intro id hwrite row hrow hpair
    refine decide_eq_false fun hrowId => hne ?_
    rw [← of_decide_eq_true hpair]
    exact hid row hrow (hrowId.trans hwrite)
  cases write with
  | insert attemptCount totalScore passed =>
    simp only [ResponseWrite.apply, Option.dite_none_right_eq_some, Option.some.injEq] at h
    obtain ⟨hfresh, rfl⟩ := h
    have hother : (insertedRow binds attemptCount totalScore passed).pair ≠ pair :=
      fun hpair => hne hpair.symm
    refine (rowsOf_insert pair t _ hfresh).trans ?_
    rw [if_neg hother, List.append_nil]
  | edit id totalScore passed =>
    simp only [ResponseWrite.apply, Option.some.injEq] at h
    subst h
    exact Table.filter_update_of_not (fun _ => rfl) (hnot id rfl)
  | overwrite id attemptCount totalScore passed =>
    simp only [ResponseWrite.apply, Option.some.injEq] at h
    subst h
    exact Table.filter_update_of_not (fun _ => rfl) (hnot id rfl)
  | record id attemptCount totalScore passed =>
    simp only [ResponseWrite.apply, Option.some.injEq] at h
    subst h
    exact Table.filter_update_of_not (fun _ => rfl) (hnot id rfl)

/-! ### What is written -/

/-- The write of a further attempt. -/
def attemptWrite (form : Form) (g : Graded) (r : CanonicalAttempt) : ResponseWrite :=
  let a := Retry.nextAttempt form.retryConfig.policy r.toExisting ⟨g.totalScore, g.passed⟩
  if a.overwriteAnswers then .overwrite r.id a.attemptCount a.totalScore a.passed
  else .record r.id a.attemptCount a.totalScore a.passed

private theorem governedWrite_some {form : Form} {now : Instant} {g : Graded} {r : CanonicalAttempt}
    {write : ResponseWrite} (h : governedWrite form now g (some r) = .ok write) :
    Retry.denial now form.retryConfig r.toExisting = none ∧ write = attemptWrite form g r := by
  rw [governedWrite] at h
  split at h
  · cases h
  · cases h
  · cases h
  · rename_i a ha
    obtain ⟨hdenial, rfl⟩ := Retry.decide_some_eq_ok.1 ha
    refine ⟨hdenial, ?_⟩
    unfold attemptWrite
    dsimp only at h ⊢
    split at h
    · rename_i hover
      rw [if_pos hover]
      exact (Except.ok.inj h).symm
    · rename_i hover
      rw [if_neg hover]
      exact (Except.ok.inj h).symm

/-- What a submit writes: a new row, a free edit of the canonical row, or a further attempt at
it. -/
theorem submitWrite_cases {form : Form} {now : Instant} {g : Graded}
    {existing : Option CanonicalAttempt} {write : ResponseWrite}
    (h : submitWrite form now g existing = .ok write) :
    (write = .insert 1 g.totalScore g.passed ∧ (form.keepsOne = true → existing = none)) ∨
      (∃ r, existing = some r ∧ form.keepsOne = true ∧ form.editable = true ∧
        write = .edit r.id g.totalScore g.passed) ∨
      ∃ r, existing = some r ∧ form.keepsOne = true ∧ form.editable = false ∧
        Retry.denial now form.retryConfig r.toExisting = none ∧ write = attemptWrite form g r := by
  unfold submitWrite at h
  split at h
  · rename_i hkeeps
    refine Or.inl ⟨(Except.ok.inj h).symm, fun hone => ?_⟩
    rw [hone] at hkeeps
    cases hkeeps
  · rename_i hkeeps
    have hkeeps : form.keepsOne = true := by simpa using hkeeps
    split at h
    · rename_i heditable
      cases existing with
      | none => exact Or.inl ⟨(Except.ok.inj h).symm, fun _ => rfl⟩
      | some r => exact Or.inr (Or.inl ⟨r, rfl, hkeeps, heditable, (Except.ok.inj h).symm⟩)
    · rename_i heditable
      cases existing with
      | none => exact Or.inl ⟨(Except.ok.inj h).symm, fun _ => rfl⟩
      | some r =>
        exact Or.inr (Or.inr ⟨r, rfl, hkeeps, Bool.eq_false_iff.2 heditable, governedWrite_some h⟩)

/-- The row that a write updates is the canonical row that was read. -/
theorem rowId_of_submitWrite {form : Form} {now : Instant} {g : Graded}
    {existing : Option CanonicalAttempt} {write : ResponseWrite} (binds : WriteBinds)
    (h : submitWrite form now g existing = .ok write) :
    write = .insert 1 g.totalScore g.passed ∨
      ∃ r, existing = some r ∧ form.keepsOne = true ∧ write.rowId binds = r.id := by
  rcases submitWrite_cases h with ⟨rfl, -⟩ | ⟨r, rfl, hkeeps, -, rfl⟩ | ⟨r, rfl, hkeeps, -, -, rfl⟩
  · exact Or.inl rfl
  · exact Or.inr ⟨r, rfl, hkeeps, rfl⟩
  · refine Or.inr ⟨r, rfl, hkeeps, ?_⟩
    unfold attemptWrite
    dsimp only
    split <;> rfl

/-! ### Steps of a transaction -/

theorem gradedBy_of_admitSubmit {form : Form} {submission : Submission} {now ageNow : Instant}
    {guildIds : Except AppError (List Text)} {g : Graded}
    (h : admitSubmit libs.validator form submission now ageNow guildIds = .ok g) :
    GradedBy libs form submission g := by
  rw [admitSubmit] at h
  cases hcheck : checkSubmit form submission now ageNow guildIds with
  | error e =>
    rw [hcheck] at h
    cases h
  | ok u =>
    rw [hcheck] at h
    exact h

/-- A step of a transaction keeps it sound, and takes no lock that another one holds. -/
theorem txStep_sound {others : List SubmitTx} {e : TxEvent} (hs : tx.Sound libs s.forms s.responses)
    (h : txStep libs s others tx e = some (some tx')) :
    tx'.Sound libs s.forms s.responses ∧ ∀ other ∈ others, LocksApart libs tx other →
      LocksApart libs tx' other := by
  unfold SubmitTx.Sound at hs
  cases e with
  | load =>
    simp only [txStep] at h
    split at h
    · simp only [Option.some.injEq, Option.map_eq_some_iff] at h
      obtain ⟨form, hform, rfl⟩ := h
      exact ⟨List.mem_of_find?_eq_some hform, fun _ _ _ k hk => by cases hk⟩
    · cases h
  | vet now ageNow guildIds =>
    simp only [txStep] at h
    split at h
    · rename_i form hphase
      rw [hphase] at hs
      split at h
      · rename_i g hadmit
        simp only [Option.some.injEq] at h
        subst h
        exact ⟨⟨hs, gradedBy_of_admitSubmit hadmit⟩, fun _ _ _ k hk => by cases hk⟩
      · cases h
    · cases h
  | lock =>
    simp only [txStep] at h
    split at h
    · rename_i form now g hphase
      rw [hphase] at hs
      simp only [Option.ite_none_right_eq_some, Option.some.injEq, Bool.and_eq_true,
        List.all_eq_true,
        decide_eq_true_eq] at h
      obtain ⟨⟨hkeeps, hfree⟩, rfl⟩ := h
      refine ⟨⟨hs.1, hs.2, hkeeps⟩, fun other hother _ k hk => ?_⟩
      rw [← hk]
      exact hfree other hother
    · cases h
  | read latest =>
    simp only [txStep] at h
    split at h
    · rename_i form now g hphase
      rw [hphase] at hs
      simp only [Option.map_eq_some_iff, Option.some.injEq] at h
      obtain ⟨existing, hread, rfl⟩ := h
      refine ⟨⟨hs.1, hs.2.1, hs.2.2, isCanonical_of_read hread⟩, fun other _ hapart k hk =>
        hapart k ?_⟩
      rw [SubmitTx.lock?, hphase]
      exact hk
    · cases h
  | write newId jobsNow =>
    simp only [txStep] at h
    split at h
    · rename_i form now g hphase
      rw [hphase] at hs
      split at h
      · cases h
      · rename_i hkeeps
        split at h
        · rename_i write hwrite
          simp only [Option.some.injEq] at h
          subst h
          refine ⟨⟨hs.1, hs.2, none, fun h => absurd h hkeeps, hwrite⟩, fun _ _ _ k hk => ?_⟩
          simp only [SubmitTx.lock?, SubmitTx.goto, if_neg hkeeps] at hk
          cases hk
        · cases h
    · rename_i form now g existing hphase
      rw [hphase] at hs
      split at h
      · rename_i write hwrite
        simp only [Option.some.injEq] at h
        subst h
        refine ⟨⟨hs.1, hs.2.1, existing, fun _ => hs.2.2.2, hwrite⟩, fun other _ hapart k hk =>
          hapart k ?_⟩
        simp only [SubmitTx.lock?, SubmitTx.goto, if_pos hs.2.2.1] at hk
        rw [SubmitTx.lock?, hphase]
        exact hk
      · cases h
    · cases h

/-! ### Commits -/

/-- The row that a sound transaction has written is new or the canonical row of its pair. -/
theorem SubmitTx.Sound.pair_of_rowId {form : Form} {now : Instant} {g : Graded}
    {write : ResponseWrite} {newId : Uuid} {jobsNow : Instant} (hs : tx.Sound libs forms t)
    (hphase : tx.phase = .written form now g write newId jobsNow)
    (happly : write.apply (tx.binds form g newId) t = some t') :
    ∀ row ∈ t.rows, row.id = write.rowId (tx.binds form g newId) → row.pair = tx.pair form := by
  unfold SubmitTx.Sound at hs
  rw [hphase] at hs
  obtain ⟨-, -, existing, hcanonical, hwrite⟩ := hs
  intro row hrow hid
  rcases rowId_of_submitWrite (tx.binds form g newId) hwrite with rfl | ⟨r, rfl, hkeeps, hr⟩
  · simp only [ResponseWrite.apply, Option.dite_none_right_eq_some] at happly
    obtain ⟨hfresh, -⟩ := happly
    exact absurd (List.mem_map.2 ⟨row, hrow, hid⟩) hfresh
  · obtain ⟨canonical, hmem, hcanonical⟩ := hcanonical hkeeps
    obtain ⟨hmem, hpair⟩ := mem_rowsOf.1 hmem
    have hids : row.id = canonical.id := by
      rw [hid, hr, ← hcanonical]
      rfl
    rw [Table.eq_of_key hrow hmem hids]
    exact hpair

theorem SubmitTx.Sound.rowsOf_ne {form : Form} {now : Instant} {g : Graded} {write : ResponseWrite}
    {newId : Uuid} {jobsNow : Instant} (hs : tx.Sound libs forms t)
    (hphase : tx.phase = .written form now g write newId jobsNow)
    (happly : write.apply (tx.binds form g newId) t = some t') (hne : pair ≠ tx.pair form) :
    rowsOf pair t' = rowsOf pair t :=
  rowsOf_apply_ne happly hne (hs.pair_of_rowId hphase happly)

/-- Forms are determined by the text of their ids. -/
theorem form_eq_of_text {form form' : Form} (h : form ∈ forms.rows) (h' : form' ∈ forms.rows)
    (htext : form.id.text = form'.id.text) : form = form' :=
  Table.eq_of_key h h' (Uuid.text_injective htext)

/-- A commit leaves the canonical rows of the other lock holders alone. -/
theorem rowsOf_lockHolder {other : SubmitTx} {form form' : Form} {now : Instant} {g : Graded}
    {write : ResponseWrite} {newId : Uuid} {jobsNow : Instant} (hs : tx.Sound libs forms t)
    (hphase : tx.phase = .written form now g write newId jobsNow)
    (happly : write.apply (tx.binds form g newId) t = some t') (hform : form ∈ forms.rows)
    (hform' : form' ∈ forms.rows) (hkeeps : form'.keepsOne = true)
    (hapart : LocksApart libs tx other)
    (hlock : other.lock? libs.hashtextextended =
      some (libs.hashtextextended (SubmitTx.lockText (other.pair form')))) :
    rowsOf (other.pair form') t' = rowsOf (other.pair form') t := by
  refine hs.rowsOf_ne hphase happly fun hpair => ?_
  have hsame : form = form' := form_eq_of_text hform hform' (congrArg Prod.fst hpair).symm
  subst hsame
  refine hapart _ ?_ hlock
  rw [SubmitTx.lock?, hphase, hpair]
  exact if_pos hkeeps

theorem SubmitTx.Sound.after_commit {other : SubmitTx} {form : Form} {now : Instant} {g : Graded}
    {write : ResponseWrite} {newId : Uuid} {jobsNow : Instant} (hs : tx.Sound libs forms t)
    (hphase : tx.phase = .written form now g write newId jobsNow)
    (happly : write.apply (tx.binds form g newId) t = some t') (hapart : LocksApart libs tx other)
    (hother : other.Sound libs forms t) : other.Sound libs forms t' := by
  have hform : form ∈ forms.rows := by
    have hs' := hs
    unfold SubmitTx.Sound at hs'
    rw [hphase] at hs'
    exact hs'.1
  unfold SubmitTx.Sound at hother ⊢
  cases hphase' : other.phase with
  | decided form' now' g' existing =>
    rw [hphase'] at hother
    obtain ⟨hform', hgraded, hkeeps, hcanonical⟩ := hother
    refine ⟨hform', hgraded, hkeeps, hcanonical.congr ?_⟩
    refine rowsOf_lockHolder hs hphase happly hform hform' hkeeps hapart ?_
    rw [SubmitTx.lock?, hphase']
  | written form' now' g' write' newId' jobsNow' =>
    rw [hphase'] at hother
    obtain ⟨hform', hgraded, existing, hcanonical, hwrite⟩ := hother
    refine ⟨hform', hgraded, existing, fun hkeeps => (hcanonical hkeeps).congr ?_, hwrite⟩
    refine rowsOf_lockHolder hs hphase happly hform hform' hkeeps hapart ?_
    rw [SubmitTx.lock?, hphase']
    exact if_pos hkeeps
  | begun => trivial
  | _ =>
    rw [hphase'] at hother
    exact hother

/-- Editing a form that no transaction has loaded. -/
theorem SubmitTx.Sound.after_edit {form : Form} (hs : tx.Sound libs forms t)
    (hfree : tx.form?.map (·.id) ≠ some form.id) :
    tx.Sound libs (forms.update (·.id = form.id) (replaceForm form)) t := by
  have hkeep : ∀ form' : Form, tx.form? = some form' → form' ∈ forms.rows →
      form' ∈ (forms.update (·.id = form.id) (replaceForm form)).rows := by
    intro form' hform' hmem
    have hne : form'.id ≠ form.id := fun hid => hfree (by rw [hform', Option.map_some, hid])
    refine Table.mem_update.2 ⟨form', hmem, ?_⟩
    rw [decide_eq_false hne]
    rfl
  unfold SubmitTx.Sound at hs ⊢
  cases hphase : tx.phase with
  | begun => trivial
  | loaded form' =>
    rw [hphase] at hs
    exact hkeep form' (by rw [SubmitTx.form?, hphase]) hs
  | _ =>
    rw [hphase] at hs
    exact ⟨hkeep _ (by rw [SubmitTx.form?, hphase]) hs.1, hs.2⟩

/-! ### Steps of the system -/

theorem locksApart_middle {pre post : List SubmitTx} :
    (pre ++ tx :: post).Pairwise (LocksApart libs) ↔
      (∀ other ∈ pre ++ post, LocksApart libs tx other) ∧
        (pre ++ post).Pairwise (LocksApart libs) := by
  rw [List.pairwise_middle fun h => h.symm, List.pairwise_cons]

theorem mem_middle {α : Type} {pre post : List α} {a b : α} :
    b ∈ pre ++ a :: post ↔ b = a ∨ b ∈ pre ++ post := by
  simp only [List.mem_append, List.mem_cons]
  tauto

theorem sound_step {e : SubmitEvent} (hs : s.Sound libs) (hstep : submitStep libs s e = some s') :
    s'.Sound libs := by
  cases e with
  | begin submission now =>
    simp only [submitStep, Option.some.injEq] at hstep
    subst hstep
    constructor
    · intro tx htx
      rcases List.mem_cons.1 htx with rfl | htx
      · trivial
      · exact hs.transactions tx htx
    · refine List.pairwise_cons.2 ⟨fun other _ k hk => ?_, hs.locks⟩
      cases hk
  | advance i e =>
    simp only [submitStep, Option.bind_eq_some_iff, Option.map_eq_some_iff] at hstep
    obtain ⟨⟨pre, tx, post⟩, hparty, next, hnext, rfl⟩ := hstep
    have hsplit := partyAt_eq_some hparty
    have hall := hs.transactions
    have hlocks := hs.locks
    rw [hsplit] at hall hlocks
    obtain ⟨hapart, hothers⟩ := locksApart_middle.1 hlocks
    cases next with
    | none =>
      rw [Option.toList_none, List.append_nil]
      exact ⟨fun other hother => hall other (mem_middle.2 (Or.inr hother)), hothers⟩
    | some tx' =>
      rw [Option.toList_some, List.append_assoc, List.singleton_append]
      obtain ⟨hsound, hlock⟩ := txStep_sound (hall tx (mem_middle.2 (Or.inl rfl))) hnext
      constructor
      · intro other hother
        rcases mem_middle.1 hother with rfl | hother
        · exact hsound
        · exact hall other (mem_middle.2 (Or.inr hother))
      · exact locksApart_middle.2 ⟨fun other hother => hlock other hother (hapart other hother),
          hothers⟩
  | commit i =>
    simp only [submitStep, Option.bind_eq_some_iff] at hstep
    obtain ⟨⟨pre, tx, post⟩, hparty, hcommit⟩ := hstep
    have hsplit := partyAt_eq_some hparty
    have hall := hs.transactions
    have hlocks := hs.locks
    rw [hsplit] at hall hlocks
    obtain ⟨hapart, hothers⟩ := locksApart_middle.1 hlocks
    simp only [commitTx] at hcommit
    split at hcommit
    · rename_i form now g write newId jobsNow hphase
      obtain ⟨t', happly, rfl⟩ := Option.map_eq_some_iff.1 hcommit
      refine ⟨fun other hother => ?_, hothers⟩
      exact (hall tx (mem_middle.2 (Or.inl rfl))).after_commit hphase happly (hapart other hother)
        (hall other (mem_middle.2 (Or.inr hother)))
    · cases hcommit
  | abort i =>
    simp only [submitStep, Option.map_eq_some_iff] at hstep
    obtain ⟨⟨pre, tx, post⟩, hparty, rfl⟩ := hstep
    have hsplit := partyAt_eq_some hparty
    have hall := hs.transactions
    have hlocks := hs.locks
    rw [hsplit] at hall hlocks
    exact ⟨fun other hother => hall other (mem_middle.2 (Or.inr hother)),
      (locksApart_middle.1 hlocks).2⟩
  | editForm form =>
    simp only [submitStep, Option.ite_none_right_eq_some, Option.some.injEq, List.all_eq_true,
      decide_eq_true_eq] at hstep
    obtain ⟨hfree, rfl⟩ := hstep
    exact ⟨fun tx htx => (hs.transactions tx htx).after_edit (hfree tx htx), hs.locks⟩

/-- Only an edit changes the forms. -/
theorem forms_of_submitStep {e : SubmitEvent} (hstep : submitStep libs s e = some s')
    (hedit : ∀ form, e ≠ .editForm form) : s'.forms = s.forms := by
  cases e with
  | begin submission now =>
    simp only [submitStep, Option.some.injEq] at hstep
    rw [← hstep]
  | advance i e =>
    simp only [submitStep, Option.bind_eq_some_iff, Option.map_eq_some_iff] at hstep
    obtain ⟨-, -, -, -, rfl⟩ := hstep
    rfl
  | commit i =>
    simp only [submitStep, Option.bind_eq_some_iff] at hstep
    obtain ⟨⟨pre, tx, post⟩, -, hcommit⟩ := hstep
    unfold commitTx at hcommit
    split at hcommit
    · obtain ⟨t', -, rfl⟩ := Option.map_eq_some_iff.1 hcommit
      rfl
    · cases hcommit
  | abort i =>
    simp only [submitStep, Option.map_eq_some_iff] at hstep
    obtain ⟨-, -, rfl⟩ := hstep
    rfl
  | editForm form => exact absurd rfl (hedit form)

theorem SubmitState.sound_of_idle (h : s.transactions = []) : s.Sound libs := by
  constructor
  · rw [h]
    exact fun tx htx => absurd htx List.not_mem_nil
  · rw [h]
    exact List.Pairwise.nil

/-- Only a commit changes the responses. -/
theorem submitStep_cases {e : SubmitEvent} (hstep : submitStep libs s e = some s') :
    (s'.responses = s.responses ∧ s'.accepted = s.accepted) ∨
      ∃ tx ∈ s.transactions, ∃ others, commitTx libs s others tx = some s' ∧
        ∃ i pre post, e = .commit i ∧ partyAt s.transactions i = some (pre, tx, post) := by
  cases e with
  | begin submission now =>
    simp only [submitStep, Option.some.injEq] at hstep
    subst hstep
    exact Or.inl ⟨rfl, rfl⟩
  | advance i e =>
    simp only [submitStep, Option.bind_eq_some_iff, Option.map_eq_some_iff] at hstep
    obtain ⟨⟨pre, tx, post⟩, -, next, -, rfl⟩ := hstep
    exact Or.inl ⟨rfl, rfl⟩
  | commit i =>
    simp only [submitStep, Option.bind_eq_some_iff] at hstep
    obtain ⟨⟨pre, tx, post⟩, hparty, hcommit⟩ := hstep
    exact Or.inr ⟨tx, mem_of_partyAt hparty, pre ++ post, hcommit, i, pre, post, rfl, hparty⟩
  | abort i =>
    simp only [submitStep, Option.map_eq_some_iff] at hstep
    obtain ⟨⟨pre, tx, post⟩, -, rfl⟩ := hstep
    exact Or.inl ⟨rfl, rfl⟩
  | editForm form =>
    simp only [submitStep, Option.ite_none_right_eq_some, Option.some.injEq] at hstep
    obtain ⟨-, rfl⟩ := hstep
    exact Or.inl ⟨rfl, rfl⟩

/-- A transaction goes on with its submission, and with the form that it has loaded for it. -/
theorem txStep_goto {others : List SubmitTx} {e : TxEvent}
    (h : txStep libs s others tx e = some (some tx')) :
    (∃ phase, tx' = tx.goto phase) ∧
      (tx'.form? = tx.form? ∨
        e = .load ∧ ∃ form, tx'.form? = some form ∧
          s.forms.rows.find? (·.slug = tx.submission.slug) = some form) := by
  cases e with
  | load =>
    simp only [txStep] at h
    split at h
    · simp only [Option.some.injEq, Option.map_eq_some_iff] at h
      obtain ⟨form, hform, rfl⟩ := h
      exact ⟨⟨_, rfl⟩, Or.inr ⟨rfl, form, rfl, hform⟩⟩
    · cases h
  | vet now ageNow guildIds =>
    simp only [txStep] at h
    split at h
    · rename_i form hphase
      split at h
      · cases h
        exact ⟨⟨_, rfl⟩, Or.inl (by rw [SubmitTx.form?, SubmitTx.form?, hphase]; rfl)⟩
      · cases h
    · cases h
  | lock =>
    simp only [txStep] at h
    split at h
    · rename_i form now g hphase
      obtain ⟨-, hnext⟩ := Option.ite_none_right_eq_some.1 h
      cases hnext
      exact ⟨⟨_, rfl⟩, Or.inl (by rw [SubmitTx.form?, SubmitTx.form?, hphase]; rfl)⟩
    · cases h
  | read latest =>
    simp only [txStep] at h
    split at h
    · rename_i form now g hphase
      simp only [Option.map_eq_some_iff, Option.some.injEq] at h
      obtain ⟨existing, -, rfl⟩ := h
      exact ⟨⟨_, rfl⟩, Or.inl (by rw [SubmitTx.form?, SubmitTx.form?, hphase]; rfl)⟩
    · cases h
  | write newId jobsNow =>
    simp only [txStep] at h
    split at h
    · rename_i form now g hphase
      split at h
      · cases h
      split at h
      · cases h
        exact ⟨⟨_, rfl⟩, Or.inl (by rw [SubmitTx.form?, SubmitTx.form?, hphase]; rfl)⟩
      · cases h
    · rename_i form now g existing hphase
      split at h
      · cases h
        exact ⟨⟨_, rfl⟩, Or.inl (by rw [SubmitTx.form?, SubmitTx.form?, hphase]; rfl)⟩
      · cases h
    · cases h

/-- What holds of every form that is loaded for a submission. -/
theorem loaded_of_submitStep {P : Submission → Form → Prop} {e : SubmitEvent}
    (hload : ∀ i pre tx post form, e = .advance i .load →
      partyAt s.transactions i = some (pre, tx, post) →
      s.forms.rows.find? (·.slug = tx.submission.slug) = some form → P tx.submission form)
    (h : ∀ tx ∈ s.transactions, ∀ form, tx.form? = some form → P tx.submission form)
    (hstep : submitStep libs s e = some s') :
    ∀ tx ∈ s'.transactions, ∀ form, tx.form? = some form → P tx.submission form := by
  cases e with
  | begin submission now =>
    simp only [submitStep, Option.some.injEq] at hstep
    subst hstep
    intro tx htx
    rcases List.mem_cons.1 htx with rfl | htx
    · intro form hform
      cases hform
    · exact h tx htx
  | advance i e =>
    simp only [submitStep, Option.bind_eq_some_iff, Option.map_eq_some_iff] at hstep
    obtain ⟨⟨pre, tx, post⟩, hparty, next, hnext, rfl⟩ := hstep
    rw [partyAt_eq_some hparty] at h
    intro other hother
    cases next with
    | none =>
      rw [Option.toList_none, List.append_nil] at hother
      exact h other (mem_middle.2 (Or.inr hother))
    | some tx' =>
      rw [Option.toList_some, List.append_assoc, List.singleton_append] at hother
      rcases mem_middle.1 hother with rfl | hother
      · obtain ⟨⟨phase, hgoto⟩, hform⟩ := txStep_goto hnext
        intro form hsome
        have hsubmission : other.submission = tx.submission := by
          rw [hgoto]
          rfl
        rw [hsubmission]
        rcases hform with hsame | ⟨rfl, form', hloaded, hfound⟩
        · exact h tx (mem_middle.2 (Or.inl rfl)) form (hsame ▸ hsome)
        · obtain rfl := Option.some.inj (hsome.symm.trans hloaded)
          exact hload i pre tx post form rfl hparty hfound
      · exact h other (mem_middle.2 (Or.inr hother))
  | commit i =>
    simp only [submitStep, Option.bind_eq_some_iff] at hstep
    obtain ⟨⟨pre, tx, post⟩, hparty, hcommit⟩ := hstep
    rw [partyAt_eq_some hparty] at h
    simp only [commitTx] at hcommit
    split at hcommit
    · obtain ⟨t', -, rfl⟩ := Option.map_eq_some_iff.1 hcommit
      exact fun other hother => h other (mem_middle.2 (Or.inr hother))
    · cases hcommit
  | abort i =>
    simp only [submitStep, Option.map_eq_some_iff] at hstep
    obtain ⟨⟨pre, tx, post⟩, hparty, rfl⟩ := hstep
    rw [partyAt_eq_some hparty] at h
    exact fun other hother => h other (mem_middle.2 (Or.inr hother))
  | editForm form =>
    simp only [submitStep, Option.ite_none_right_eq_some, Option.some.injEq] at hstep
    obtain ⟨-, rfl⟩ := hstep
    exact h

/-- The form for which the transaction has inserted a response. -/
def SubmitTx.inserts? (tx : SubmitTx) : Option Form :=
  match tx.phase with
  | .written form _ _ (.insert ..) .. => some form
  | _ => none

theorem SubmitTx.form?_of_inserts? {form : Form} (h : tx.inserts? = some form) :
    tx.form? = some form := by
  rw [inserts?] at h
  split at h
  · rename_i hphase
    rw [form?, hphase]
    exact h
  · cases h

/-- A response after a step is one before, in the same form and guild, or the one that a submit
inserts for the form that it has loaded. -/
theorem mem_responses_of_submitStep {e : SubmitEvent} (hstep : submitStep libs s e = some s')
    {row : FormResponse} (hrow : row ∈ s'.responses.rows) :
    (∃ row₀ ∈ s.responses.rows, row₀.id = row.id ∧ row₀.formId = row.formId ∧
      row₀.guildId = row.guildId) ∨
      ∃ i pre tx post form, e = .commit i ∧ partyAt s.transactions i = some (pre, tx, post) ∧
        tx.inserts? = some form ∧
        form.id.text = row.formId ∧ form.guildId = row.guildId := by
  rcases submitStep_cases hstep with ⟨hsame, -⟩ |
    ⟨tx, -, others, hcommit, i, pre, post, rfl, hparty⟩
  · exact Or.inl ⟨row, hsame ▸ hrow, rfl, rfl, rfl⟩
  simp only [commitTx] at hcommit
  split at hcommit
  · rename_i form now g write newId jobsNow hphase
    obtain ⟨t', happly, rfl⟩ := Option.map_eq_some_iff.1 hcommit
    -- the updates keep the form and the guild of their row
    have hupdate : ∀ (p : FormResponse → Bool) (set : SetClause FormResponse.id),
        (∀ row, (set.set row).formId = row.formId ∧ (set.set row).guildId = row.guildId) →
          s.responses.update p set = t' →
          ∃ row₀ ∈ s.responses.rows, row₀.id = row.id ∧ row₀.formId = row.formId ∧
              row₀.guildId = row.guildId := by
      rintro p set hset rfl
      obtain ⟨row₀, hrow₀, rfl⟩ := Table.mem_update.1 hrow
      refine ⟨row₀, hrow₀, ?_⟩
      split
      · exact ⟨(set.key_set row₀).symm, (hset row₀).1.symm, (hset row₀).2.symm⟩
      · exact ⟨rfl, rfl, rfl⟩
    cases write with
    | insert attemptCount totalScore passed =>
      simp only [ResponseWrite.apply, Option.dite_none_right_eq_some, Option.some.injEq] at happly
      obtain ⟨hfresh, rfl⟩ := happly
      rcases List.mem_append.1 hrow with hrow | hrow
      · exact Or.inl ⟨row, hrow, rfl, rfl, rfl⟩
      · obtain rfl := List.mem_singleton.1 hrow
        exact Or.inr ⟨i, pre, tx, post, form, rfl, hparty,
          by rw [SubmitTx.inserts?, hphase], rfl, rfl⟩
    | edit id totalScore passed =>
      exact Or.inl (hupdate _ _ (fun _ => ⟨rfl, rfl⟩) (Option.some.inj happly))
    | overwrite id attemptCount totalScore passed =>
      exact Or.inl (hupdate _ _ (fun _ => ⟨rfl, rfl⟩) (Option.some.inj happly))
    | record id attemptCount totalScore passed =>
      exact Or.inl (hupdate _ _ (fun _ => ⟨rfl, rfl⟩) (Option.some.inj happly))
  · cases hcommit

end

end FormRespondentRole
