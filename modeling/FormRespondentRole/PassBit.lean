import FormRespondentRole.QuizMachine
import FormRespondentRole.Foundations.Observation

/-!
# What a quiz tells its member

Of a member's answers to a quiz, the replies to the submits and the retry status of the page tell
which are valid and which pass, and nothing else (`quiz_tells_pass_bits`): they are those of a
machine that knows no more (`react_explains`), in every interleaving with the submits of
others. -/

namespace FormRespondentRole

open Foundations

/-! ### The row that is read -/

/-- What is found of the member's rows: none, or the one row that was last edited.  The others were
edited before `since`, and it was not. -/
def IsLatest (since : Instant) (pair : PairKey) (t : ResponseTable) : Option CanonicalAttempt → Prop
  | none => rowsOf pair t = []
  | some r => ∃ row ∈ rowsOf pair t, row.toCanonical = r ∧ since ≤ row.lastEditedAt ∧
      ∀ other ∈ rowsOf pair t, other.id ≠ row.id → other.lastEditedAt < since

section

variable {since : Instant} {pair : PairKey} {t t' : ResponseTable}
  {existing existing' : Option CanonicalAttempt}

theorem IsLatest.congr (h : rowsOf pair t' = rowsOf pair t) (hl : IsLatest since pair t existing) :
    IsLatest since pair t' existing := by
  cases existing with
  | none => exact h.trans hl
  | some r =>
    rw [IsLatest, h]
    exact hl

/-- The query has nothing else to give. -/
theorem IsLatest.eq_of_read {latest : Option Uuid} (hl : IsLatest since pair t existing)
    (h : readCanonical pair t latest = some existing') : existing' = existing := by
  cases existing with
  | none =>
    cases latest with
    | none =>
      simp only [readCanonical, Option.ite_none_right_eq_some, Option.some.injEq] at h
      exact h.2.symm
    | some id =>
      have hrows : rowsOf pair t = [] := hl
      simp only [readCanonical, hrows, List.find?_nil, Option.map_none] at h
      cases h
  | some r =>
    obtain ⟨row, hrow, rfl, hsince, hothers⟩ := hl
    cases latest with
    | none =>
      simp only [readCanonical, Option.ite_none_right_eq_some, Option.some.injEq] at h
      rw [h.1] at hrow
      exact absurd hrow List.not_mem_nil
    | some id =>
      simp only [readCanonical, Option.map_eq_some_iff] at h
      obtain ⟨found, hfound, rfl⟩ := h
      have hmem := List.mem_of_find?_eq_some hfound
      have hmax := List.find?_some hfound
      simp only [Bool.and_eq_true, decide_eq_true_eq, List.all_eq_true] at hmax
      by_cases hid : found.id = row.id
      · rw [Table.eq_of_key (mem_rowsOf.1 hmem).1 (mem_rowsOf.1 hrow).1 hid]
      · have hbefore := hothers found hmem hid
        have hafter := hmax.2 row hrow
        exact absurd (hsince.trans hafter) (not_le.2 hbefore)

/-- An update of the latest row that is not older than `since` leaves it the latest one. -/
theorem IsLatest.update {row : FormResponse} {c : SetClause FormResponse.id}
    (hrow : row ∈ rowsOf pair t)
    (hothers : ∀ other ∈ rowsOf pair t, other.id ≠ row.id → other.lastEditedAt < since)
    (hpair : ∀ row, (c.set row).pair = row.pair) (hsince : since ≤ (c.set row).lastEditedAt) :
    IsLatest since pair (t.update (·.id = row.id) c) (some (c.set row).toCanonical) := by
  have hrows : rowsOf pair (t.update (·.id = row.id) c) =
      (rowsOf pair t).map fun other => if decide (other.id = row.id) then c.set other else other :=
        rowsOf_update hpair
  refine ⟨c.set row, ?_, rfl, hsince, fun other hother hne => ?_⟩
  · rw [hrows]
    exact List.mem_map.2 ⟨row, hrow, if_pos (decide_eq_true rfl)⟩
  · rw [hrows] at hother
    obtain ⟨row', hrow', rfl⟩ := List.mem_map.1 hother
    rw [c.key_set] at hne
    split at hne
    · rename_i hid
      rw [c.key_set] at hne
      exact absurd (of_decide_eq_true hid) hne
    · rename_i hid
      rw [if_neg hid]
      exact hothers row' hrow' hne

/-- The row that an attempt has written is the one that was last edited. -/
theorem IsLatest.after_write {form : Form} {now : Instant} {g : Graded} {write : ResponseWrite}
    {binds : WriteBinds} (hgov : form.isRetryGoverned = true)
    (hl : IsLatest since (binds.formId, binds.discordId) t existing) (hsince : since ≤ binds.now)
    (hwrite : submitWrite form now g existing = .ok write)
    (happly : write.apply binds t = some t') :
    ∃ r, IsLatest since (binds.formId, binds.discordId) t' (some r) ∧
      write.blind.leaves binds.now = some r.blind := by
  have hgov' : form.keepsOne = true ∧ form.editable = false := by
    simpa [Form.isRetryGoverned] using hgov
  rcases submitWrite_cases hwrite with ⟨rfl, hnone⟩ | ⟨r, -, -, heditable, -⟩ |
    ⟨r, rfl, -, -, -, rfl⟩
  · rw [hnone hgov'.1] at hl
    simp only [ResponseWrite.apply, Option.dite_none_right_eq_some, Option.some.injEq] at happly
    obtain ⟨hfresh, rfl⟩ := happly
    let row := insertedRow binds 1 g.totalScore g.passed
    have hrows : rowsOf (binds.formId, binds.discordId) (t.insert row hfresh) = [row] := by
      refine (rowsOf_insert _ t row hfresh).trans ?_
      rw [show rowsOf (binds.formId, binds.discordId) t = [] from hl]
      exact if_pos rfl
    refine ⟨row.toCanonical, ⟨row, ?_, rfl, hsince, ?_⟩, rfl⟩
    · rw [hrows]
      exact List.mem_singleton_self row
    · rw [hrows]
      intro other hother hne
      exact absurd (congrArg FormResponse.id (List.mem_singleton.1 hother)) hne
  · rw [hgov'.2] at heditable
    cases heditable
  · obtain ⟨row, hrow, rfl, -, hothers⟩ := hl
    unfold attemptWrite at happly ⊢
    dsimp only at happly ⊢
    split at happly
    · rename_i hover
      simp only [ResponseWrite.apply, Option.some.injEq] at happly
      subst happly
      rw [if_pos hover]
      exact ⟨_, IsLatest.update hrow hothers (fun _ => rfl) hsince, rfl⟩
    · rename_i hover
      simp only [ResponseWrite.apply, Option.some.injEq] at happly
      subst happly
      rw [if_neg hover]
      exact ⟨_, IsLatest.update hrow hothers (fun _ => rfl) hsince, rfl⟩

end

/-! ### What the machine keeps up with -/

/-- The form that a transaction has loaded is the one that it was opened for. -/
def SubmitTx.Addressed (tx : SubmitTx) : Prop :=
  ∀ form, tx.form? = some form → form.slug = tx.submission.slug

/-- A phase of a member's transaction, and what is known of it. -/
inductive PhaseOf (form : Form) (since : Instant) (pair : PairKey) (t : ResponseTable) :
    SubmitPhase → PendingPhase → Prop
  | begun : PhaseOf form since pair t .begun .begun
  | loaded : PhaseOf form since pair t (.loaded form) .loaded
  | admitted (now : Instant) (g : Graded) :
    PhaseOf form since pair t (.admitted form now g) (.admitted now g.passed)
  | locked (now : Instant) (g : Graded) :
    PhaseOf form since pair t (.locked form now g) (.locked now g.passed)
  | decided {now : Instant} {g : Graded} {existing : Option CanonicalAttempt}
    (h : IsLatest since pair t existing) :
    PhaseOf form since pair t (.decided form now g existing)
      (.decided now g.passed (existing.map (·.blind)))
  | written {now : Instant} {g : Graded} {existing : Option CanonicalAttempt}
    {write : ResponseWrite}
      (newId : Uuid) (jobsNow : Instant) (h : IsLatest since pair t existing)
      (hwrite : submitWrite form now g existing = .ok write) :
    PhaseOf form since pair t (.written form now g write newId jobsNow)
      (.written now g.passed write.blind)

theorem PhaseOf.congr {form : Form} {since : Instant} {pair : PairKey} {t t' : ResponseTable}
    {phase : SubmitPhase} {phase' : PendingPhase} (hrows : rowsOf pair t' = rowsOf pair t)
    (h : PhaseOf form since pair t phase phase') :
    PhaseOf form since pair t' phase phase' := by
  cases h with
  | begun => exact .begun
  | loaded => exact .loaded
  | admitted now g => exact .admitted now g
  | locked now g => exact .locked now g
  | decided h => exact .decided (h.congr hrows)
  | written newId jobsNow h hwrite => exact .written newId jobsNow (h.congr hrows) hwrite

section

variable (libs : SubmitLibs) (form : Form) (member : Text) (since : Instant)

/-- What is known of a transaction of the member. -/
structure PendingSubmit.Of (t : ResponseTable) (p : PendingSubmit) (tx : SubmitTx) : Prop where
  startedAt_eq : p.startedAt = tx.startedAt
  since_le : since ≤ tx.startedAt
  version_eq : p.version = tx.submission.body.version
  verdict_eq : p.verdict = verdictOn libs form tx.submission.body
  phaseOf : PhaseOf form since (form.id.text, member) t tx.phase p.phase

structure KeepsUp (k : Known) (s : SubmitState) : Prop where
  sound : s.Sound libs
  addressed : ∀ tx ∈ s.transactions, tx.Addressed
  found : s.forms.rows.find? (·.slug = form.slug) = some form
  row : ∃ existing, IsLatest since (form.id.text, member) s.responses existing ∧
    k.row = existing.map (·.blind)
  pending :
    List.Forall₂ (PendingSubmit.Of libs form member since s.responses) k.pending
      (membersOf form member s.transactions)

/-- The form stays as it is, and the member's submits begin no earlier than `since`. -/
def Unedited (_ : SubmitState) (e : QuizEvent) (s' : SubmitState) : Prop :=
  s'.forms.rows.find? (·.slug = form.slug) = some form ∧
    ∀ submission now, e = .submit (.begin submission now) → submission.isFor form member = true →
      since ≤ now

end

section

variable {libs : SubmitLibs} {form : Form} {member : Text} {since : Instant} {s s' : SubmitState}
  {tx : SubmitTx}
  {others : List SubmitTx} {next : Option SubmitTx} {p : PendingSubmit}
    {existing : Option CanonicalAttempt}

private theorem Submission.isFor_iff {submission : Submission} :
    submission.isFor form member = true ↔ submission.slug = form.slug ∧
      submission.discordId = member := by
  rw [Submission.isFor, Bool.and_eq_true, decide_eq_true_iff, decide_eq_true_iff]

private theorem Form.governed_of_isQuiz (form : Form) (hquiz : form.isQuiz = true) :
    form.keepsOne = true ∧ form.editable = false := by
  simp [Form.keepsOne, Form.editable, hquiz]

/-- The checks go by the slug, the member and the version of a submission. -/
theorem checkSubmit_congr {sub sub' : Submission} (hslug : sub.slug = sub'.slug)
    (hmember : sub.discordId = sub'.discordId) (hversion : sub.body.version = sub'.body.version)
    (now ageNow : Instant) (guildIds : Except AppError (List Text)) :
    checkSubmit form sub now ageNow guildIds = checkSubmit form sub' now ageNow guildIds := by
  unfold checkSubmit
  rw [hslug, hmember, hversion]

/-- The machine takes a step of the member's transaction with it, and ends with its error. -/
theorem PendingSubmit.Of.step {e : TxEvent} (hquiz : form.isQuiz = true)
    (hp : p.Of libs form member since s.responses tx) (hs : tx.Sound libs s.forms s.responses)
    (hfor : tx.submission.isFor form member = true)
    (hfound : s.forms.rows.find? (·.slug = form.slug) = some form)
    (hrow : IsLatest since (form.id.text, member) s.responses existing)
    (hstep : txStep libs s others tx e = some next) :
    (∃ phase phase', next = some (tx.goto phase) ∧
        p.react form member (existing.map (·.blind)) e.statement = .ok phase' ∧
        PhaseOf form since (form.id.text, member) s.responses phase phase') ∨
      ∃ error, next = none ∧ p.react form member (existing.map (·.blind)) e.statement =
        .error error ∧
        txError libs s tx e = some error := by
  obtain ⟨hslug, hmember⟩ := Submission.isFor_iff.1 hfor
  obtain ⟨-, -, hversion, hverdict, hphase⟩ := hp
  obtain ⟨submission, startedAt, phase⟩ := tx
  obtain ⟨startedAt', version', verdict', phase'⟩ := p
  obtain rfl : version' = submission.body.version := hversion
  obtain rfl : verdict' = verdictOn libs form submission.body := hverdict
  dsimp only at hphase hslug hmember
  cases e with
  | load =>
    cases hphase with
    | begun =>
      simp only [txStep, hslug, hfound, Option.map_some, Option.some.injEq] at hstep
      exact Or.inl ⟨.loaded form, .loaded, hstep.symm, rfl, .loaded⟩
    | _ => cases hstep
  | vet now ageNow guildIds =>
    cases hphase with
    | loaded =>
      -- the checks look at the slug, the member and the version, which the machine knows
      have hcheck : checkSubmit form ⟨form.slug, member, [],
        ⟨.null, submission.body.version⟩⟩ now ageNow guildIds =
          checkSubmit form submission now ageNow guildIds := by
        refine checkSubmit_congr ?_ ?_ ?_ now ageNow guildIds
        · exact hslug.symm
        · exact hmember.symm
        · rfl
      simp only [txStep, admitSubmit] at hstep
      simp only [TxEvent.statement, PendingSubmit.react, txError, admitSubmit, verdictOn, hcheck]
      cases hvet : checkSubmit form submission now ageNow guildIds with
      | error error =>
        rw [hvet] at hstep
        cases hstep
        exact Or.inr ⟨error, rfl, rfl, rfl⟩
      | ok u =>
        rw [hvet] at hstep
        simp only [bind, Except.bind] at hstep ⊢
        cases hgrade : grade libs.validator form submission.body with
        | error error =>
          rw [hgrade] at hstep
          cases hstep
          exact Or.inr ⟨error, rfl, rfl, rfl⟩
        | ok g =>
          rw [hgrade] at hstep
          cases hstep
          exact Or.inl ⟨.admitted form now g, .admitted now g.passed, rfl, rfl, .admitted now g⟩
    | _ => cases hstep
  | lock =>
    cases hphase with
    | admitted now g =>
      obtain ⟨-, hnext⟩ := Option.ite_none_right_eq_some.1 hstep
      cases hnext
      exact Or.inl ⟨.locked form now g, .locked now g.passed, rfl, rfl, .locked now g⟩
    | _ => cases hstep
  | read latest =>
    cases hphase with
    | locked now g =>
      obtain ⟨found, hread, rfl⟩ := Option.map_eq_some_iff.1 hstep
      have hpair : SubmitTx.pair ⟨submission, startedAt, .locked form now g⟩ form =
          (form.id.text, member) := by
        rw [SubmitTx.pair, hmember]
      rw [hpair] at hread
      obtain rfl := hrow.eq_of_read hread
      exact Or.inl ⟨.decided form now g found, _, rfl, rfl, .decided hrow⟩
    | _ => cases hstep
  | write newId jobsNow =>
    have hgov := form.governed_of_isQuiz hquiz
    cases hphase with
    | admitted now g =>
      simp only [txStep, hgov.1, if_true] at hstep
      cases hstep
    | decided hlatest =>
      rename_i now g existing
      have hgraded : GradedBy libs form submission g := by
        unfold SubmitTx.Sound at hs
        exact hs.2.1
      obtain ⟨score, hscore, -⟩ := hgraded.quiz hquiz
      -- of a grade the decision looks at the pass bit only
      have hblind : g.blind = ⟨.null, some 0, g.passed⟩ := by rw [Graded.blind, hscore, hideScore,
        Option.map_some]
      have hgoverned : submitWrite form now g existing = governedWrite form now g existing := by
        unfold submitWrite
        rw [hgov.1, hgov.2]
        rfl
      have hmap := governedWrite_blind form now g existing
      rw [hblind, ← hgoverned] at hmap
      simp only [txStep] at hstep
      simp only [TxEvent.statement, PendingSubmit.react, txError]
      cases hwrite : submitWrite form now g existing with
      | error error =>
        rw [hwrite] at hstep hmap
        cases hstep
        cases hknown : governedWrite form now ⟨.null, some 0, g.passed⟩
            (existing.map (·.blind)) with
        | error error' =>
          rw [hknown] at hmap
          cases hmap
          exact Or.inr ⟨error, rfl, rfl, rfl⟩
        | ok write' =>
          rw [hknown] at hmap
          cases hmap
      | ok write =>
        rw [hwrite] at hstep hmap
        cases hstep
        cases hknown : governedWrite form now ⟨.null, some 0, g.passed⟩
            (existing.map (·.blind)) with
        | error error =>
          rw [hknown] at hmap
          cases hmap
        | ok write' =>
          rw [hknown] at hmap
          have hsame : write.blind = write'.blind := Except.ok.inj hmap
          refine Or.inl ⟨.written form now g write newId jobsNow,
            .written now g.passed write'.blind, rfl, rfl, ?_⟩
          rw [← hsame]
          exact .written newId jobsNow hlatest hwrite
    | _ => cases hstep

/-! ### Steps beside the member's -/

theorem membersOf_middle {pre post : List SubmitTx}
    (hfor : tx.submission.isFor form member = true) :
    membersOf form member (pre ++ tx :: post) = membersOf form member pre ++ tx ::
      membersOf form member post := by
  simp [membersOf, hfor]

private theorem membersOf_middle_not {pre post : List SubmitTx}
    (hfor : tx.submission.isFor form member ≠ true) :
    membersOf form member (pre ++ tx :: post) = membersOf form member (pre ++ post) := by
  simp [membersOf, hfor]

private theorem membersOf_append (txs txs' : List SubmitTx) :
    membersOf form member (txs ++ txs') = membersOf form member txs ++ membersOf form member txs' :=
  List.filter_append txs txs'

private theorem addressed_step {e : SubmitEvent} (h : ∀ tx ∈ s.transactions, tx.Addressed)
    (hstep : submitStep libs s e = some s') : ∀ tx ∈ s'.transactions, tx.Addressed :=
  loaded_of_submitStep (P := fun submission form => form.slug = submission.slug)
    (fun _ _ _ _ _ _ _ hform => by simpa using List.find?_some hform) h hstep

variable {k : Known}

private theorem memberIndex_of_partyAt {i : Nat} {pre post : List SubmitTx}
    (h : partyAt s.transactions i = some (pre, tx, post)) :
    memberIndex form member s i =
      if tx.submission.isFor form member then some (membersOf form member pre).length
        else none := by
  rw [memberIndex, h]
  rfl

theorem PendingSubmit.Of.congr {t t' : ResponseTable}
    (hrows : rowsOf (form.id.text, member) t' = rowsOf (form.id.text, member) t)
    (h : p.Of libs form member since t tx) : p.Of libs form member since t' tx :=
  { h with phaseOf := h.phaseOf.congr hrows }

/-- Nothing is to be learnt from a step that leaves the member's rows and submits as they are. -/
theorem KeepsUp.beside (hk : KeepsUp libs form member since k s) (hsound : s'.Sound libs)
    (haddressed : ∀ tx ∈ s'.transactions, tx.Addressed)
    (hfound : s'.forms.rows.find? (·.slug = form.slug) = some form)
    (hrows : rowsOf (form.id.text, member) s'.responses = rowsOf (form.id.text, member) s.responses)
    (hmembers : membersOf form member s'.transactions = membersOf form member s.transactions) :
    KeepsUp libs form member since k s' where
  sound := hsound
  addressed := haddressed
  found := hfound
  row := by
    obtain ⟨existing, hlatest, hrow⟩ := hk.row
    exact ⟨existing, hlatest.congr hrows, hrow⟩
  pending := by
    rw [hmembers]
    exact hk.pending.imp fun _ _ h => h.congr hrows

private theorem transactions_of_commitTx (h : commitTx libs s others tx = some s') :
    s'.transactions = others := by
  unfold commitTx at h
  split at h
  · obtain ⟨t', -, rfl⟩ := Option.map_eq_some_iff.1 h
    rfl
  · cases h

/-- A commit that leaves the member's rows alone: it is another member's, or one for another
form. -/
theorem KeepsUp.rowsOf_commit {i : Nat} {pre post : List SubmitTx}
    (hk : KeepsUp libs form member since k s)
    (hparty : partyAt s.transactions i = some (pre, tx, post))
    (hcommit : commitTx libs s (pre ++ post) tx = some s')
    (hfor : tx.submission.isFor form member ≠ true) :
    rowsOf (form.id.text, member) s'.responses = rowsOf (form.id.text, member) s.responses := by
  have htx : tx ∈ s.transactions := mem_of_partyAt hparty
  have hsound := hk.sound.transactions tx htx
  obtain ⟨a, form', now, g, write, newId, jobsNow, hphase, -, -, happly, -⟩ :=
    commitTx_eq_some hcommit
  refine hsound.rowsOf_ne hphase happly fun hpair => hfor ?_
  obtain rfl : form' = form :=
    form_eq_of_text (hsound.graded hphase).1 (List.mem_of_find?_eq_some hk.found)
      (congrArg Prod.fst hpair).symm
  refine Submission.isFor_iff.2 ⟨(hk.addressed tx htx form' ?_).symm,
    (congrArg Prod.snd hpair).symm⟩
  rw [SubmitTx.form?, hphase]

theorem KeepsUp.unseen {e : QuizEvent} (hk : KeepsUp libs form member since k s)
    (hstep : quizStep libs s e = some s') (hunedited : Unedited form member since s e s')
    (hcue : cue libs form member s e = none) :
    KeepsUp libs form member since k s' := by
  cases e with
  | page load latest =>
    obtain ⟨answer, -, rfl⟩ := Option.map_eq_some_iff.1 hstep
    exact hk
  | submit e =>
    have hsubmit : submitStep libs s e = some s' := hstep
    have hbeside : rowsOf (form.id.text, member) s'.responses =
      rowsOf (form.id.text, member) s.responses ∧
        membersOf form member s'.transactions = membersOf form member s.transactions := by
      -- a step of one of the member's submits would give a cue
      have hnotFor : ∀ {i : Nat} {pre post : List SubmitTx} {tx : SubmitTx} {c : Nat → Cue},
          partyAt s.transactions i = some (pre, tx, post) →
            (memberIndex form member s i).map c = none →
            tx.submission.isFor form member ≠ true := by
        intro i pre post tx c hparty hnone hfor
        rw [memberIndex_of_partyAt hparty, if_pos hfor] at hnone
        cases hnone
      cases e with
      | begin submission now =>
        simp only [submitStep, Option.some.injEq] at hsubmit
        subst hsubmit
        refine ⟨rfl, List.filter_cons_of_neg fun hfor => ?_⟩
        rw [cue, if_pos hfor] at hcue
        cases hcue
      | advance i e =>
        simp only [submitStep, Option.bind_eq_some_iff, Option.map_eq_some_iff] at hsubmit
        obtain ⟨⟨pre, tx, post⟩, hparty, next, hnext, rfl⟩ := hsubmit
        have hfor := hnotFor hparty hcue
        refine ⟨rfl, ?_⟩
        rw [partyAt_eq_some hparty, membersOf_middle_not hfor]
        cases next with
        | none => rw [Option.toList_none, List.append_nil]
        | some tx' =>
          obtain ⟨⟨phase, rfl⟩, -⟩ := txStep_goto hnext
          rw [Option.toList_some, List.append_assoc, List.singleton_append]
          exact membersOf_middle_not hfor
      | commit i =>
        simp only [submitStep, Option.bind_eq_some_iff] at hsubmit
        obtain ⟨⟨pre, tx, post⟩, hparty, hcommit⟩ := hsubmit
        have hfor := hnotFor hparty hcue
        refine ⟨hk.rowsOf_commit hparty hcommit hfor, ?_⟩
        rw [transactions_of_commitTx hcommit, partyAt_eq_some hparty, membersOf_middle_not hfor]
      | abort i =>
        simp only [submitStep, Option.map_eq_some_iff] at hsubmit
        obtain ⟨⟨pre, tx, post⟩, hparty, rfl⟩ := hsubmit
        refine ⟨rfl, ?_⟩
        rw [partyAt_eq_some hparty, membersOf_middle_not (hnotFor hparty hcue)]
      | editForm form =>
        simp only [submitStep, Option.ite_none_right_eq_some, Option.some.injEq] at hsubmit
        obtain ⟨-, rfl⟩ := hsubmit
        exact ⟨rfl, rfl⟩
    exact hk.beside (sound_step hk.sound hsubmit)
      (addressed_step hk.addressed hsubmit) hunedited.1 hbeside.1 hbeside.2

/-! ### The member's steps -/

/-- The cue of a step of one of the member's submits, and where the machine has that submit. -/
theorem KeepsUp.pending_of_cue {i : Nat} {pre post : List SubmitTx} {c : Nat → Cue} {cue : Cue}
    (hk : KeepsUp libs form member since k s)
    (hparty : partyAt s.transactions i = some (pre, tx, post))
    (hcue : (memberIndex form member s i).map c = some cue) :
    tx.submission.isFor form member = true ∧
      ∃ n pre' p post', cue = c n ∧ partyAt k.pending n = some (pre', p, post') ∧
        List.Forall₂ (PendingSubmit.Of libs form member since s.responses) pre'
        (membersOf form member pre) ∧
        p.Of libs form member since s.responses tx ∧
        List.Forall₂ (PendingSubmit.Of libs form member since s.responses) post'
        (membersOf form member post) := by
  rw [memberIndex_of_partyAt hparty] at hcue
  obtain ⟨n, hn, rfl⟩ := Option.map_eq_some_iff.1 hcue
  obtain ⟨hfor, hindex⟩ := Option.ite_none_right_eq_some.1 hn
  have hpending := hk.pending
  rw [partyAt_eq_some hparty, membersOf_middle hfor] at hpending
  obtain ⟨pre', p, post', hpartyK, hpre, hp, hpost⟩ := partyAt_of_forall₂ hpending
  rw [Option.some.inj hindex] at hpartyK
  exact ⟨hfor, n, pre', p, post', rfl, hpartyK, hpre, hp, hpost⟩

private theorem KeepsUp.seen_advance {i : Nat} {e : TxEvent} {c : Cue} (hquiz : form.isQuiz = true)
    (hk : KeepsUp libs form member since k s) (hstep : submitStep libs s (.advance i e) = some s')
    (hfound : s'.forms.rows.find? (·.slug = form.slug) = some form)
    (hcue : cue libs form member s (.submit (.advance i e)) = some c) :
    KeepsUp libs form member since (react libs form member k c).1 s' ∧
      quizAnswer libs s (.submit (.advance i e)) = (react libs form member k c).2 := by
  have hsound := sound_step hk.sound hstep
  have haddressed := addressed_step hk.addressed hstep
  simp only [submitStep, Option.bind_eq_some_iff, Option.map_eq_some_iff] at hstep
  obtain ⟨⟨pre, tx, post⟩, hparty, next, hnext, rfl⟩ := hstep
  obtain ⟨hfor, n, pre', p, post', rfl, hpartyK, hpre, hp, hpost⟩ := hk.pending_of_cue hparty hcue
  have htx : tx ∈ s.transactions := mem_of_partyAt hparty
  obtain ⟨existing, hlatest, hrow⟩ := hk.row
  have hanswer : quizAnswer libs s (.submit (.advance i e)) =
      (txError libs s tx e).map fun error => .submitted (.error error) := by
    rw [quizAnswer, submitAnswer, hparty, Option.bind_some, Option.map_map]
    rfl
  have hstep := hp.step hquiz (hk.sound.transactions tx htx) hfor hk.found hlatest hnext
  rw [← hrow] at hstep
  rw [hanswer, react, hpartyK]
  rcases hstep with ⟨phase, phase', rfl, hreact, hphase⟩ | ⟨error, rfl, hreact, herror⟩
  · have hnone : txError libs s tx e = none := by
      by_contra hsome
      obtain ⟨error, herror⟩ := Option.ne_none_iff_exists'.1 hsome
      cases (txStep_rollback hnext).2 ⟨error, herror⟩
    dsimp only
    rw [hreact, hnone]
    refine ⟨⟨hsound, haddressed, hfound, ⟨existing, hlatest, hrow⟩, ?_⟩, rfl⟩
    dsimp only
    rw [Option.toList_some, List.append_assoc, List.singleton_append]
    have hfor' : (tx.goto phase).submission.isFor form member = true := hfor
    rw [membersOf_middle hfor']
    exact List.rel_append hpre
      (.cons ⟨hp.startedAt_eq, hp.since_le, hp.version_eq, hp.verdict_eq, hphase⟩ hpost)
  · dsimp only
    rw [hreact, herror]
    refine ⟨⟨hsound, haddressed, hfound, ⟨existing, hlatest, hrow⟩, ?_⟩, rfl⟩
    dsimp only
    rw [Option.toList_none, List.append_nil, membersOf_append]
    exact List.rel_append hpre hpost

/-- A commit leaves what is known of the member's other submits as it is: it has held the lock
alone. -/
theorem PhaseOf.after_commit {other : SubmitTx} {phase : PendingPhase} {t t' : ResponseTable}
    {now : Instant} {g : Graded} {write : ResponseWrite} {newId : Uuid} {jobsNow : Instant}
    (hquiz : form.isQuiz = true) (hs : tx.Sound libs s.forms t)
    (hphase : tx.phase = .written form now g write newId jobsNow)
    (happly : write.apply (tx.binds form g newId) t = some t') (hapart : LocksApart libs tx other)
    (hfor : other.submission.isFor form member = true)
    (h : PhaseOf form since (form.id.text, member) t other.phase phase) :
    PhaseOf form since (form.id.text, member) t' other.phase phase := by
  have hform := (hs.graded hphase).1
  have hkeeps := (form.governed_of_isQuiz hquiz).1
  have hpair : other.pair form = (form.id.text, member) := by
    rw [SubmitTx.pair, (Submission.isFor_iff.1 hfor).2]
  have hholds : other.lock? libs.hashtextextended =
    some (libs.hashtextextended (SubmitTx.lockText (other.pair form))) →
      rowsOf (form.id.text, member) t' = rowsOf (form.id.text, member) t := by
    intro hlock
    rw [← hpair]
    exact rowsOf_lockHolder hs hphase happly hform hform hkeeps hapart hlock
  generalize hother : other.phase = phase₀ at h ⊢
  cases h with
  | begun => exact .begun
  | loaded => exact .loaded
  | admitted now g => exact .admitted now g
  | locked now g => exact .locked now g
  | decided hlatest => exact .decided (hlatest.congr (hholds (by rw [SubmitTx.lock?, hother])))
  | written newId jobsNow hlatest hwrite =>
    refine .written newId jobsNow (hlatest.congr (hholds ?_)) hwrite
    rw [SubmitTx.lock?, hother]
    exact if_pos hkeeps

private theorem KeepsUp.seen_commit {i : Nat} {c : Cue} (hquiz : form.isQuiz = true)
    (hk : KeepsUp libs form member since k s) (hstep : submitStep libs s (.commit i) = some s')
    (hfound : s'.forms.rows.find? (·.slug = form.slug) = some form)
    (hcue : cue libs form member s (.submit (.commit i)) = some c) :
    KeepsUp libs form member since (react libs form member k c).1 s' ∧
      quizAnswer libs s (.submit (.commit i)) = (react libs form member k c).2 := by
  have hsound := sound_step hk.sound hstep
  have haddressed := addressed_step hk.addressed hstep
  simp only [submitStep, Option.bind_eq_some_iff] at hstep
  obtain ⟨⟨pre, tx, post⟩, hparty, hcommit⟩ := hstep
  obtain ⟨hfor, n, pre', p, post', rfl, hpartyK, hpre, hp, hpost⟩ := hk.pending_of_cue hparty hcue
  have htxs := transactions_of_commitTx hcommit
  have hall := hk.sound.transactions
  have hlocks := hk.sound.locks
  rw [partyAt_eq_some hparty] at hall hlocks
  have htx := hall tx (mem_middle.2 (Or.inl rfl))
  obtain ⟨hapart, -⟩ := locksApart_middle.1 hlocks
  obtain ⟨-, form', now, g, write, newId, jobsNow, hphase, -, -, happly, -⟩ :=
    commitTx_eq_some hcommit
  have hanswer : quizAnswer libs s (.submit (.commit i)) = (tx.reply libs).map fun reply =>
    .submitted (.ok reply) := by
    rw [quizAnswer, submitAnswer, hparty, Option.bind_some, Option.map_map]
    rfl
  have hphaseK := hp.phaseOf
  generalize hknown : p.phase = phase at hphaseK
  rw [hphase] at hphaseK
  cases hphaseK with
  | written newId jobsNow hlatest hwrite =>
    have hbinds : (form.id.text, member) = ((tx.binds form g newId).formId,
        (tx.binds form g newId).discordId) := by
      rw [← (Submission.isFor_iff.1 hfor).2]
      rfl
    have hgov : form.isRetryGoverned = true := by simp [Form.isRetryGoverned,
      form.governed_of_isQuiz hquiz]
    rw [hbinds] at hlatest
    obtain ⟨r, hlatest', hleaves⟩ := hlatest.after_write hgov hp.since_le hwrite happly
    rw [← hbinds] at hlatest'
    have hothers : ∀ {ps : List PendingSubmit} {txs : List SubmitTx},
      (∀ other ∈ txs, other ∈ pre ++ post) →
        List.Forall₂ (PendingSubmit.Of libs form member since s.responses) ps
          (membersOf form member txs) →
          List.Forall₂ (PendingSubmit.Of libs form member since s'.responses) ps
              (membersOf form member txs) := by
      intro ps txs hmem hps
      refine ((List.forall₂_and_left _ _).2 ⟨fun other hother => List.mem_filter.1 hother,
        hps.flip⟩).flip.imp ?_
      rintro q other ⟨⟨hother, hforOther⟩, hq⟩
      exact { hq with
        phaseOf := hq.phaseOf.after_commit hquiz htx hphase happly
          (hapart other (hmem other hother)) hforOther }
    rw [hanswer, react, hpartyK]
    dsimp only
    rw [hknown]
    refine ⟨⟨hsound, haddressed, hfound, ⟨some r, hlatest', ?_⟩, ?_⟩, ?_⟩
    · exact (congrArg write.blind.leaves hp.startedAt_eq).trans hleaves
    · rw [htxs, membersOf_append]
      exact List.rel_append (hothers (fun other h => List.mem_append_left _ h) hpre)
        (hothers (fun other h => List.mem_append_right _ h) hpost)
    · rw [SubmitTx.reply, hphase]
      dsimp only
      rw [submitReply_quiz (htx.graded hphase).2 hquiz]
      rfl

private theorem KeepsUp.seen_page {load : PageLoad} {latest : Option Uuid} {c : Cue}
    (hk : KeepsUp libs form member since k s)
    (hstep : quizStep libs s (.page load latest) = some s')
    (hcue : cue libs form member s (.page load latest) = some c) :
    KeepsUp libs form member since (react libs form member k c).1 s' ∧
      quizAnswer libs s (.page load latest) = (react libs form member k c).2 := by
  obtain ⟨page, hpage, rfl⟩ := Option.map_eq_some_iff.1 hstep
  obtain ⟨⟨hslug, hmember⟩, hc⟩ := Option.ite_none_right_eq_some.1 hcue
  cases hc
  refine ⟨hk, ?_⟩
  obtain ⟨existing, hlatest, hrow⟩ := hk.row
  rw [quizAnswer, hpage, react]
  rw [PageLoad.answer, hslug, hk.found, hmember] at hpage
  obtain ⟨found, hread, rfl⟩ := Option.map_eq_some_iff.1 hpage
  obtain rfl := hlatest.eq_of_read hread
  rw [hrow, hslug, hmember, Option.map_some, getForm_blind]

theorem KeepsUp.seen {e : QuizEvent} {c : Cue} (hquiz : form.isQuiz = true)
    (hk : KeepsUp libs form member since k s) (hstep : quizStep libs s e = some s')
    (hunedited : Unedited form member since s e s') (hcue : cue libs form member s e = some c) :
    KeepsUp libs form member since (react libs form member k c).1 s' ∧
      quizAnswer libs s e = (react libs form member k c).2 := by
  cases e with
  | page load latest => exact hk.seen_page hstep hcue
  | submit e =>
    have hsubmit : submitStep libs s e = some s' := hstep
    cases e with
    | begin submission now =>
      have hsound := sound_step hk.sound hsubmit
      have haddressed := addressed_step hk.addressed hsubmit
      simp only [submitStep, Option.some.injEq] at hsubmit
      subst hsubmit
      obtain ⟨hfor, hc⟩ := Option.ite_none_right_eq_some.1 hcue
      cases hc
      refine ⟨⟨hsound, haddressed, hunedited.1, hk.row, ?_⟩, rfl⟩
      have hmembers : membersOf form member (⟨submission, now, .begun⟩ :: s.transactions) =
          ⟨submission, now, .begun⟩ :: membersOf form member s.transactions :=
            List.filter_cons_of_pos hfor
      rw [hmembers]
      exact .cons ⟨rfl, hunedited.2 submission now rfl hfor, rfl, rfl, .begun⟩ hk.pending
    | advance i e => exact hk.seen_advance hquiz hsubmit hunedited.1 hcue
    | commit i => exact hk.seen_commit hquiz hsubmit hunedited.1 hcue
    | abort i =>
      have hsound := sound_step hk.sound hsubmit
      have haddressed := addressed_step hk.addressed hsubmit
      simp only [submitStep, Option.map_eq_some_iff] at hsubmit
      obtain ⟨⟨pre, tx, post⟩, hparty, rfl⟩ := hsubmit
      obtain ⟨-, n, pre', p, post', rfl, hpartyK, hpre, -, hpost⟩ := hk.pending_of_cue hparty hcue
      rw [react, hpartyK]
      refine ⟨⟨hsound, haddressed, hunedited.1, hk.row, ?_⟩, rfl⟩
      dsimp only
      rw [membersOf_append]
      exact List.rel_append hpre hpost
    | editForm form' => cases hcue

/-- The machine gives the member the answers that the program gives. -/
theorem react_explains (libs : SubmitLibs) (member : Text) (since : Instant)
    (hquiz : form.isQuiz = true) :
    Explains (quizSystem libs) (Unedited form member since) (cue libs form member)
    (shown libs form member)
      (react libs form member) (KeepsUp libs form member since) where
  unseen hk hstep hunedited hcue := by
    refine ⟨hk.unseen hstep hunedited hcue, ?_⟩
    rw [shown, hcue]
    exact if_neg Bool.false_ne_true
  seen hk hstep hunedited hcue := by
    obtain ⟨hk', hanswer⟩ := hk.seen hquiz hstep hunedited hcue
    refine ⟨hk', ?_⟩
    rw [shown, hcue, ← hanswer]
    exact if_pos rfl

end

/-! ### Two runs -/

/-- The submits so far have come from nowhere but submits. -/
def SubmitState.Reachable (libs : SubmitLibs) (s : SubmitState) : Prop :=
  ∃ s₀ es, s₀.transactions = [] ∧ (submitSystem libs).Run (fun _ _ _ => True) s₀ es s

/-- A run in which the member begins with this canonical row, on a form that nobody edits. -/
structure MemberRun (libs : SubmitLibs) (form : Form) (member : Text) (since : Instant)
    (existing : Option CanonicalAttempt) (s : SubmitState) (es : List QuizEvent)
    (t : SubmitState) : Prop where
  reachable : s.Reachable libs
  /-- None of the member's submits is under way. -/
  idle : ∀ tx ∈ s.transactions, tx.submission.isFor form member = false
  found : s.forms.rows.find? (·.slug = form.slug) = some form
  row : IsLatest since (form.id.text, member) s.responses existing
  run : (quizSystem libs).Run (Unedited form member since) s es t

private theorem MemberRun.knows {libs : SubmitLibs} {form : Form} {member : Text} {since : Instant}
    {existing : Option CanonicalAttempt} {s t : SubmitState} {es : List QuizEvent}
    (h : MemberRun libs form member since existing s es t) :
    KeepsUp libs form member since ⟨existing.map (·.blind), []⟩ s := by
  obtain ⟨s₀, es₀, hidle, hrun⟩ := h.reachable
  have hinv : s.Sound libs ∧ ∀ tx ∈ s.transactions, tx.Addressed := by
    refine hrun.invariant (P := fun s => s.Sound libs ∧ ∀ tx ∈ s.transactions, tx.Addressed)
      (fun u e u' hu _ hstep => ⟨sound_step hu.1 hstep, addressed_step hu.2 hstep⟩)
      ⟨SubmitState.sound_of_idle hidle, ?_⟩
    rw [hidle]
    exact fun tx htx => absurd htx List.not_mem_nil
  refine ⟨hinv.1, hinv.2, h.found, ⟨existing, h.row, rfl⟩, ?_⟩
  have hnone : membersOf form member s.transactions = [] := by
    rw [membersOf, List.filter_eq_nil_iff]
    exact fun tx htx => Bool.eq_false_iff.1 (h.idle tx htx)
  rw [hnone]
  exact .nil

/-- Of two runs on a quiz in which a member begins with the same canonical row and does the same,
with answers that may differ but come to the same verdicts, the member is given the same answers. -/
theorem quiz_tells_pass_bits (libs : SubmitLibs) {form : Form} (hquiz : form.isQuiz = true)
    {member : Text} {since : Instant} {existing : Option CanonicalAttempt}
    {s₁ t₁ s₂ t₂ : SubmitState} {es₁ es₂ : List QuizEvent}
    (h₁ : MemberRun libs form member since existing s₁ es₁ t₁)
    (h₂ : MemberRun libs form member since existing s₂ es₂ t₂)
    (hcues : (quizSystem libs).notes (cue libs form member) s₁ es₁ =
      (quizSystem libs).notes (cue libs form member) s₂ es₂) :
    (quizSystem libs).notes (shown libs form member) s₁ es₁ =
      (quizSystem libs).notes (shown libs form member) s₂ es₂ :=
  (react_explains libs member since hquiz).shown_eq h₁.run h₂.run h₁.knows h₂.knows hcues

/-! ### A quiz taken twice -/

/-- Only an edit changes the forms. -/
theorem forms_of_quizStep {libs : SubmitLibs} {s s' : SubmitState} {e : QuizEvent}
    (hstep : quizStep libs s e = some s') (hedit : ∀ form, e ≠ .submit (.editForm form)) :
    s'.forms = s.forms := by
  cases e with
  | page load latest =>
    obtain ⟨page, -, rfl⟩ := Option.map_eq_some_iff.1 hstep
    rfl
  | submit e =>
    exact forms_of_submitStep hstep fun form heq => hedit form (congrArg QuizEvent.submit heq)

/-- A form is unedited while no form is edited. -/
theorem unedited_run {libs : SubmitLibs} {form : Form} {member : Text} {since : Instant}
    {s t : SubmitState} {es : List QuizEvent} (hexec : (quizSystem libs).exec s es = some t)
    (hfound : s.forms.rows.find? (·.slug = form.slug) = some form)
    (hedit : ∀ form', .submit (.editForm form') ∉ es)
    (hsince : ∀ submission now, .submit (.begin submission now) ∈ es → since ≤ now) :
    (quizSystem libs).Run (Unedited form member since) s es t := by
  induction es generalizing s with
  | nil =>
    simp only [System.exec, Option.some.injEq] at hexec
    exact hexec ▸ System.Run.nil s
  | cons e es ih =>
    simp only [System.exec, Option.bind_eq_some_iff] at hexec
    obtain ⟨s', hstep, hexec⟩ := hexec
    have hforms : s'.forms = s.forms :=
      forms_of_quizStep hstep fun form' heq => hedit form' (heq ▸ List.mem_cons_self)
    have hfound' : s'.forms.rows.find? (·.slug = form.slug) = some form := hforms ▸ hfound
    refine .cons hstep ⟨hfound', fun submission now heq _ =>
      hsince submission now (heq ▸ List.mem_cons_self)⟩ ?_
    exact ih hexec hfound' (fun form' hmem => hedit form' (List.mem_cons_of_mem e hmem))
      fun submission now hmem => hsince submission now (List.mem_cons_of_mem e hmem)

/-- Two attempts with these numbers of answers, and the page between them. -/
def quizTwice (n m : Nat) : List QuizEvent :=
  (quizSubmit n 10 none).map .submit ++
    .page ⟨"quiz".toList, "ann".toList, "Ann".toList, 15, 15, .ok []⟩ (some 1) ::
      (quizSubmit m 20 (some 1)).map .submit

private theorem memberRun_quizTwice (n m : Nat)
    (h : ((quizSystem quizLibs).exec quizStart (quizTwice n m)).isSome = true) :
    ∃ t, MemberRun quizLibs quizForm "ann".toList 0 none quizStart (quizTwice n m) t := by
  obtain ⟨t, ht⟩ := Option.isSome_iff_exists.1 h
  refine ⟨t, ⟨quizStart, [], rfl, .nil quizStart⟩, fun tx htx => absurd htx List.not_mem_nil, rfl, rfl,
    unedited_run ht rfl (fun form' hmem => ?_) fun submission now hmem => ?_⟩
  · simp [quizTwice, quizSubmit] at hmem
  · simp only [quizTwice, quizSubmit] at hmem
    simp at hmem
    rcases hmem with ⟨-, rfl⟩ | ⟨-, rfl⟩ <;> decide

/-- An attempt that fails and one that passes, with one and two answers, or with none and three. -/
theorem quiz_tells_pass_bits_twice :
    (quizSystem quizLibs).notes (shown quizLibs quizForm "ann".toList) quizStart (quizTwice 1 2) =
      (quizSystem quizLibs).notes (shown quizLibs quizForm "ann".toList) quizStart
      (quizTwice 0 3) := by
  obtain ⟨t₁, h₁⟩ := memberRun_quizTwice 1 2 (by decide)
  obtain ⟨t₂, h₂⟩ := memberRun_quizTwice 0 3 (by decide)
  exact quiz_tells_pass_bits quizLibs rfl h₁ h₂ rfl

end FormRespondentRole
