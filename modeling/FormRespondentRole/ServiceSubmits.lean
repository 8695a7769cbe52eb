import FormRespondentRole.CanonicalRow
import FormRespondentRole.FormVersions

/-!
# Submits beside requests

What is known of concurrent submits holds beside the requests of the admin pages too, which edit and
delete forms and delete responses.  A submit holds its form and the row that it is to update, and no
request holds what a submit holds (`Service.SubmitsSound`); so what it has read is still there when
it writes.

Hence every response is what one accepted submit has left (`service_responses_traced`), and a
response of the version that its form has now was graded against the form as it is now
(`current_version_graded`).
-/

namespace FormRespondentRole

open Foundations

/-! ### What submits hold -/

section

variable {libs : SubmitLibs} {s s' : SubmitState} {tx tx' : SubmitTx} {t t' : ResponseTable}
  {forms forms' : Table Form.id}

/-- The row that a submit updates is the canonical row that it has read. -/
theorem updated?_of_submitWrite {form : Form} {now : Instant} {g : Graded}
    {existing : Option CanonicalAttempt} {write : ResponseWrite}
    (h : submitWrite form now g existing = .ok write) :
    write.updated? = if form.keepsOne then existing.map (·.id) else none := by
  rcases submitWrite_cases h with ⟨rfl, hnone⟩ | ⟨r, rfl, hkeeps, -, rfl⟩ |
    ⟨r, rfl, hkeeps, -, -, rfl⟩
  · split
    · rename_i hkeeps
      rw [hnone hkeeps]
      rfl
    · rfl
  · rw [if_pos hkeeps]
    rfl
  · rw [if_pos hkeeps]
    unfold attemptWrite
    dsimp only
    split <;> rfl

/-- What a step of a submit comes to hold is the form that it loads or the row that it reads. -/
theorem locks_of_txStep {others : List SubmitTx} {e : TxEvent}
    (h : txStep libs s others tx e = some (some tx')) :
    ∀ ref ∈ tx'.locks, ref ∈ tx.locks ∨
      (e = .load ∧ ∃ form, s.forms.rows.find? (·.slug = tx.submission.slug) = some form ∧
        ref = .form form.id) ∨
      ∃ id, e = .read (some id) ∧ ref = .response id := by
  intro ref href
  cases e with
  | load =>
    simp only [txStep] at h
    split at h
    · simp only [Option.some.injEq, Option.map_eq_some_iff] at h
      obtain ⟨form, hform, rfl⟩ := h
      exact Or.inr (Or.inl ⟨rfl, form, hform, List.mem_singleton.1 href⟩)
    · cases h
  | vet now ageNow guildIds =>
    simp only [txStep] at h
    split at h
    · rename_i form hphase
      split at h
      · cases h
        exact Or.inl (by rw [SubmitTx.locks, hphase]; exact href)
      · cases h
    · cases h
  | lock =>
    simp only [txStep] at h
    split at h
    · rename_i form now g hphase
      obtain ⟨-, hnext⟩ := Option.ite_none_right_eq_some.1 h
      cases hnext
      exact Or.inl (by rw [SubmitTx.locks, hphase]; exact href)
    · cases h
  | read latest =>
    simp only [txStep] at h
    split at h
    · rename_i form now g hphase
      simp only [Option.map_eq_some_iff, Option.some.injEq] at h
      obtain ⟨existing, hread, rfl⟩ := h
      rcases List.mem_cons.1 href with rfl | href
      · exact Or.inl (by rw [SubmitTx.locks, hphase]; exact List.mem_singleton_self _)
      · right
        right
        cases latest with
        | none =>
          simp only [readCanonical, Option.ite_none_right_eq_some, Option.some.injEq] at hread
          obtain ⟨-, rfl⟩ := hread
          exact absurd href List.not_mem_nil
        | some id =>
          simp only [readCanonical, Option.map_eq_some_iff] at hread
          obtain ⟨row, hrow, rfl⟩ := hread
          have hfound := List.find?_some hrow
          rw [Bool.and_eq_true] at hfound
          refine ⟨id, rfl, ?_⟩
          rw [← of_decide_eq_true hfound.1]
          exact List.mem_singleton.1 href
    · cases h
  | write newId jobsNow =>
    left
    simp only [txStep] at h
    split at h
    · rename_i form now g hphase
      split at h
      · cases h
      · rename_i hkeeps
        split at h
        · rename_i write hwrite
          cases h
          rw [SubmitTx.locks, hphase]
          simpa [SubmitTx.locks, SubmitTx.goto, updated?_of_submitWrite hwrite, hkeeps] using href
        · cases h
    · rename_i form now g existing hphase
      split at h
      · rename_i write hwrite
        cases h
        rw [SubmitTx.locks, hphase]
        have hupdated := updated?_of_submitWrite hwrite
        by_cases hkeeps : form.keepsOne = true
        · rw [if_pos hkeeps] at hupdated
          simp only [SubmitTx.locks, SubmitTx.goto, hupdated, Option.map_map] at href
          exact href
        · rw [if_neg hkeeps] at hupdated
          simp only [SubmitTx.locks, SubmitTx.goto, hupdated, Option.map_none,
            Option.toList_none] at href
          exact List.mem_cons.2 (Or.inl (List.mem_singleton.1 href))
      · cases h
    · cases h

/-- A submit after a step is one before, has just begun, or has made the step. -/
theorem transactions_of_submitStep {e : SubmitEvent} (hstep : submitStep libs s e = some s')
    (h : tx' ∈ s'.transactions) :
    tx' ∈ s.transactions ∨ (∃ submission now, tx' = ⟨submission, now, .begun⟩) ∨
      ∃ i pre tx post txe, e = .advance i txe ∧ partyAt s.transactions i = some (pre, tx, post) ∧
        txStep libs s (pre ++ post) tx txe = some (some tx') := by
  cases e with
  | begin submission now =>
    simp only [submitStep, Option.some.injEq] at hstep
    subst hstep
    rcases List.mem_cons.1 h with rfl | h
    · exact Or.inr (Or.inl ⟨submission, now, rfl⟩)
    · exact Or.inl h
  | advance i txe =>
    simp only [submitStep, Option.bind_eq_some_iff, Option.map_eq_some_iff] at hstep
    obtain ⟨⟨pre, tx, post⟩, hparty, next, hnext, rfl⟩ := hstep
    cases next with
    | none =>
      rw [Option.toList_none, List.append_nil] at h
      exact Or.inl (mem_of_partyAt_others hparty h)
    | some next =>
      rw [Option.toList_some, List.append_assoc, List.singleton_append] at h
      rcases mem_middle.1 h with rfl | h
      · exact Or.inr (Or.inr ⟨i, pre, tx, post, txe, rfl, hparty, hnext⟩)
      · exact Or.inl (mem_of_partyAt_others hparty h)
  | commit i =>
    simp only [submitStep, Option.bind_eq_some_iff] at hstep
    obtain ⟨⟨pre, tx, post⟩, hparty, hcommit⟩ := hstep
    unfold commitTx at hcommit
    split at hcommit
    · obtain ⟨t', -, rfl⟩ := Option.map_eq_some_iff.1 hcommit
      exact Or.inl (mem_of_partyAt_others hparty h)
    · cases hcommit
  | abort i =>
    simp only [submitStep, Option.map_eq_some_iff] at hstep
    obtain ⟨⟨pre, tx, post⟩, hparty, rfl⟩ := hstep
    exact Or.inl (mem_of_partyAt_others hparty h)
  | editForm form =>
    simp only [submitStep, Option.ite_none_right_eq_some, Option.some.injEq] at hstep
    obtain ⟨-, rfl⟩ := hstep
    exact Or.inl h

/-- The form that a submit holds is there. -/
theorem SubmitTx.Sound.form_mem {form : Form} (hs : tx.Sound libs forms t)
    (h : tx.form? = some form) : form ∈ forms.rows := by
  unfold SubmitTx.Sound at hs
  unfold SubmitTx.form? at h
  cases hphase : tx.phase with
  | begun =>
    rw [hphase] at h
    cases h
  | loaded f =>
    rw [hphase] at hs h
    exact Option.some.inj h ▸ hs
  | admitted f now g =>
    rw [hphase] at hs h
    exact Option.some.inj h ▸ hs.1
  | locked f now g =>
    rw [hphase] at hs h
    exact Option.some.inj h ▸ hs.1
  | decided f now g existing =>
    rw [hphase] at hs h
    exact Option.some.inj h ▸ hs.1
  | written f now g write newId jobsNow =>
    rw [hphase] at hs h
    exact Option.some.inj h ▸ hs.1

/-- What others do to rows that the submit does not hold. -/
theorem SubmitTx.Sound.beside (hs : tx.Sound libs forms t)
    (hforms : ∀ form ∈ forms.rows, .form form.id ∈ tx.locks → form ∈ forms'.rows)
    (hsub : t'.rows ⊆ t.rows)
    (hrows : ∀ row ∈ t.rows, .response row.id ∈ tx.locks → row ∈ t'.rows) :
    tx.Sound libs forms' t' := by
  have hcanonical : ∀ {pair : PairKey} {existing : Option CanonicalAttempt},
    IsCanonical pair t existing →
      (∀ r, existing = some r → RowRef.response r.id ∈ tx.locks) →
          IsCanonical pair t' existing := by
    intro pair existing h hheld
    cases existing with
    | none =>
      refine List.filter_eq_nil_iff.2 fun row hrow => ?_
      exact List.filter_eq_nil_iff.1 (show t.rows.filter (·.pair = pair) = [] from h) row
        (hsub hrow)
    | some r =>
      obtain ⟨row, hrow, hr⟩ := h
      obtain ⟨hmem, hpair⟩ := mem_rowsOf.1 hrow
      refine ⟨row, mem_rowsOf.2 ⟨hrows row hmem ?_, hpair⟩, hr⟩
      rw [show row.id = r.id from congrArg CanonicalAttempt.id hr]
      exact hheld r rfl
  have hform : ∀ {form : Form}, tx.form? = some form → form ∈ forms.rows → form ∈ forms'.rows :=
    fun h hmem => hforms _ hmem (tx.form_mem_locks h)
  unfold SubmitTx.Sound at hs ⊢
  cases hphase : tx.phase with
  | begun => trivial
  | loaded form =>
    rw [hphase] at hs
    exact hform (by rw [SubmitTx.form?, hphase]) hs
  | admitted form now g =>
    rw [hphase] at hs
    exact ⟨hform (by rw [SubmitTx.form?, hphase]) hs.1, hs.2⟩
  | locked form now g =>
    rw [hphase] at hs
    exact ⟨hform (by rw [SubmitTx.form?, hphase]) hs.1, hs.2⟩
  | decided form now g existing =>
    rw [hphase] at hs
    obtain ⟨hmem, hgraded, hkeeps, hread⟩ := hs
    refine ⟨hform (by rw [SubmitTx.form?, hphase]) hmem, hgraded, hkeeps,
      hcanonical hread fun r hr => ?_⟩
    rw [SubmitTx.locks, hphase, hr]
    exact List.mem_cons_of_mem _ (List.mem_singleton_self _)
  | written form now g write newId jobsNow =>
    rw [hphase] at hs
    obtain ⟨hmem, hgraded, existing, hread, hwrite⟩ := hs
    refine ⟨hform (by rw [SubmitTx.form?, hphase]) hmem, hgraded, existing, fun hkeeps =>
      hcanonical (hread hkeeps) fun r hr => ?_, hwrite⟩
    have hupdated := updated?_of_submitWrite hwrite
    rw [if_pos hkeeps, hr] at hupdated
    rw [SubmitTx.locks, hphase]
    dsimp only
    rw [hupdated]
    exact List.mem_cons_of_mem _ (List.mem_singleton_self _)

end

/-! ### What requests leave alone -/

/-- These rows stay, and no response is added. -/
structure Database.Spares (kept : RowRef → Prop) (d d' : Database) : Prop where
  forms : ∀ form ∈ d.forms.rows, kept (.form form.id) → form ∈ d'.forms.rows
  responses : ∀ row ∈ d.responses.rows, kept (.response row.id) → row ∈ d'.responses.rows
  subset : d'.responses.rows ⊆ d.responses.rows

section

variable {kept : RowRef → Prop} {d d' d'' : Database} {rows : List RowRef} {now : Instant}
  {c : AdminCall}
  {conn next : Connection Reply}

theorem Database.Spares.of_eq (hforms : d'.forms = d.forms)
    (hresponses : d'.responses = d.responses) : d.Spares kept d' where
  forms _ hform _ := hforms ▸ hform
  responses _ hrow _ := hresponses ▸ hrow
  subset _ hrow := hresponses ▸ hrow

theorem Database.Spares.trans (h : d.Spares kept d') (h' : d'.Spares kept d'') :
    d.Spares kept d'' where
  forms form hform hkept := h'.forms form (h.forms form hform hkept) hkept
  responses row hrow hkept := h'.responses row (h.responses row hrow hkept) hkept
  subset := List.Subset.trans h'.subset h.subset

/-- A statement changes rows that it has found. -/
theorem spares_effectOn (h : ∀ ref ∈ rows, ¬kept ref) : d.Spares kept (d.effectOn rows now c) := by
  have hnot : ∀ {ref : RowRef} {p : Prop} [Decidable p], kept ref →
      decide (ref ∈ rows ∧ p) = false :=
    fun hkept => decide_eq_false fun hfound => h _ hfound.1 hkept
  cases c with
  | insertForm form =>
    dsimp only [Database.effectOn, Database.effect]
    split
    · split
      · exact ⟨fun _ hform _ => List.mem_append_left _ hform, fun _ hrow _ => hrow,
          List.Subset.refl _⟩
      · exact .of_eq rfl rfl
    · exact .of_eq rfl rfl
  | updateForm id guildId version edit =>
    refine ⟨fun form hform hkept => Table.mem_update.2 ⟨form, hform, ?_⟩, fun _ hrow _ => hrow,
      List.Subset.refl _⟩
    rw [hnot hkept]
    rfl
  | deleteForm id guildId =>
    exact ⟨fun form hform hkept => Table.mem_delete.2 ⟨hform, hnot hkept⟩, fun _ hrow _ => hrow,
      List.Subset.refl _⟩
  | deleteResponse id formId =>
    exact ⟨fun _ hform _ => hform, fun row hrow hkept => Table.mem_delete.2 ⟨hrow, hnot hkept⟩,
      List.filter_subset_self _⟩
  | deleteResponses formId =>
    exact ⟨fun _ hform _ => hform, fun row hrow hkept => Table.mem_delete.2 ⟨hrow, hnot hkept⟩,
      List.filter_subset_self _⟩
  | _ => exact .of_eq rfl rfl

private theorem spares_applyWrites {ws : List Write} (h : ∀ w ∈ ws, ∀ ref ∈ w.rows, ¬kept ref) :
    d.Spares kept (applyWrites ws d) := by
  induction ws with
  | nil => exact .of_eq rfl rfl
  | cons w ws ih =>
    exact (ih fun w hw => h w (List.mem_cons_of_mem _ hw)).trans
      (spares_effectOn (h w List.mem_cons_self))

/-- The end of a statement spares what another transaction holds, and holds none of it
afterwards. -/
theorem spares_finish {held : RowRef → Bool} {outcome : Outcome}
    (hlocks : ∀ ref ∈ conn.locks, ¬kept ref) (hheld : ∀ ref, kept ref → held ref = true)
    (hfinish : conn.finish held outcome now d = some (next, d')) :
    d.Spares kept d' ∧ ∀ ref ∈ next.locks, ¬kept ref := by
  obtain ⟨c, k, rows, hprogram, -, hcases⟩ := Connection.finish_cases hfinish
  rcases hcases with ⟨-, ⟨e, rfl⟩, rfl⟩ | ⟨hfree, -, r, -, rfl, rfl⟩
  · exact ⟨.of_eq rfl rfl, hlocks⟩
  · have hrows : ∀ ref ∈ rows, ¬kept ref := by
      intro ref href hkept
      exact List.any_eq_false.1 hfree ref href (hheld ref hkept)
    have hchange : d.Spares kept (conn.change rows now d c).2 ∧
        ∀ ref ∈ ((conn.change rows now d c).1.getD []).flatMap Write.rows, ¬kept ref := by
      rw [Connection.change]
      cases htx : conn.tx with
      | none => exact ⟨spares_effectOn hrows, fun ref href => absurd href List.not_mem_nil⟩
      | some ws =>
        refine ⟨.of_eq rfl rfl, fun ref href => ?_⟩
        obtain ⟨w, hw, href⟩ := List.mem_flatMap.1 href
        rcases List.mem_cons.1 hw with rfl | hw
        · exact hrows ref (of_decide_eq_true (List.mem_filter.1 href).2)
        · refine hlocks ref (List.mem_flatMap.2 ⟨w, ?_, href⟩)
          rw [htx]
          exact hw
    cases c with
    | begin => exact ⟨.of_eq rfl rfl, fun ref href => absurd href List.not_mem_nil⟩
    | commit =>
      refine ⟨spares_applyWrites fun w hw ref href => ?_, fun ref href =>
        absurd href List.not_mem_nil⟩
      exact hlocks ref (List.mem_flatMap.2 ⟨w, hw, href⟩)
    | _ => exact hchange

private theorem spares_link (c : LinkCall) : d.Spares kept (d.link c) := by
  cases c with
  | register guildId roleId apiToken =>
    rw [Database.link]
    split <;> exact .of_eq rfl rfl
  | insertSettings guildId =>
    rw [Database.link]
    split <;> exact .of_eq rfl rfl
  | _ => exact .of_eq rfl rfl

end

/-! ### Steps of the service -/

/-- The submits are sound, and hold nothing that a request holds. -/
structure Service.SubmitsSound (submitLibs : SubmitLibs) (s : Service) : Prop where
  sound : s.submitState.Sound submitLibs
  apart : ∀ tx ∈ s.submits, ∀ ref ∈ tx.locks, ∀ task ∈ s.requests, ref ∉ task.conn.locks

section

variable {libs : AdminLibs} {submitLibs : SubmitLibs} {s s' t : Service} {e : ServiceEvent}

private theorem Service.SubmitsSound.of_spares (h : s.SubmitsSound submitLibs) {d' : Database}
    {requests : List AdminTask} (hspares : ∀ tx ∈ s.submits, s.db.Spares (· ∈ tx.locks) d')
    (hlocks : ∀ tx ∈ s.submits, ∀ ref ∈ tx.locks, ∀ task ∈ requests, ref ∉ task.conn.locks) :
    Service.SubmitsSound submitLibs { s with db := d', requests := requests } := by
  refine ⟨⟨fun tx htx => ?_, h.sound.locks⟩, hlocks⟩
  obtain ⟨hforms, hresponses, hsub⟩ := hspares tx htx
  exact (h.sound.transactions tx htx).beside hforms hsub hresponses

/-- A submit does not come to hold what a request holds. -/
theorem apart_submit {e : SubmitEvent} {state : SubmitState} (h : s.SubmitsSound submitLibs)
    (hwaits : s.waits e = false) (hstep : submitStep submitLibs s.submitState e = some state) :
    ∀ tx ∈ state.transactions, ∀ ref ∈ tx.locks, ∀ task ∈ s.requests, ref ∉ task.conn.locks := by
  intro tx' htx' ref href
  rcases transactions_of_submitStep hstep htx' with htx | ⟨submission, now, rfl⟩ |
    ⟨i, pre, tx, post, txe, rfl, hparty, hnext⟩
  · exact h.apart tx' htx ref href
  · exact absurd href List.not_mem_nil
  · have hparty : partyAt s.submits i = some (pre, tx, post) := hparty
    rcases locks_of_txStep hnext ref href with hheld | ⟨rfl, form, hform, rfl⟩ | ⟨id, rfl, rfl⟩
    · exact h.apart tx (mem_of_partyAt hparty) ref hheld
    · have hform : s.db.forms.rows.find? (·.slug = tx.submission.slug) = some form := hform
      simp only [Service.waits, hparty, Option.any_some, hform] at hwaits
      exact heldBy_eq_false.1 hwaits
    · exact heldBy_eq_false.1 hwaits

theorem submitsSound_step (h : s.SubmitsSound submitLibs)
    (hstep : serviceStep libs submitLibs s e = some s') :
    s'.SubmitsSound submitLibs := by
  cases e with
  | submit e =>
    rw [serviceStep] at hstep
    split at hstep
    · cases hstep
    · rename_i hwaits
      obtain ⟨state, hstate, rfl⟩ := Option.map_eq_some_iff.1 hstep
      have hapart := apart_submit h (Bool.eq_false_iff.2 hwaits) hstate
      exact ⟨sound_step h.sound hstate, hapart⟩
  | request guildId req =>
    obtain rfl := Option.some.inj hstep
    refine h.of_spares (fun _ _ => .of_eq rfl rfl) fun tx htx ref href task htask => ?_
    rcases List.mem_cons.1 htask with rfl | htask
    · exact List.not_mem_nil
    · exact h.apart tx htx ref href task htask
  | start i =>
    simp only [serviceStep, Option.bind_eq_some_iff, Option.map_eq_some_iff] at hstep
    obtain ⟨⟨pre, task, post⟩, hparty, conn, hstart, rfl⟩ := hstep
    refine h.of_spares (fun _ _ => .of_eq rfl rfl) fun tx htx ref href task' htask' => ?_
    rcases mem_middle.1 htask' with rfl | htask'
    · obtain ⟨c, k, -, -, rfl⟩ := Connection.start_eq_some hstart
      exact h.apart tx htx ref href task (mem_of_partyAt hparty)
    · exact h.apart tx htx ref href task' (mem_of_partyAt_others hparty htask')
  | finish i outcome now =>
    simp only [serviceStep, Option.bind_eq_some_iff, Option.ite_none_left_eq_some,
      Option.map_eq_some_iff] at hstep
    obtain ⟨⟨pre, task, post⟩, hparty, -, ⟨conn, d'⟩, hfinish, rfl⟩ := hstep
    -- the statement waits for what the submits hold
    have hspares : ∀ tx ∈ s.submits, s.db.Spares (· ∈ tx.locks) d' ∧
        ∀ ref ∈ conn.locks, ref ∉ tx.locks := by
      refine fun tx htx => spares_finish (fun ref href hheld => ?_) (fun ref hheld => ?_) hfinish
      · exact h.apart tx htx ref hheld task (mem_of_partyAt hparty) href
      · rw [Service.held, Bool.or_eq_true]
        exact Or.inr (List.any_eq_true.2 ⟨tx, htx, decide_eq_true hheld⟩)
    have hlocks : ∀ tx ∈ s.submits, ∀ ref ∈ tx.locks, ∀ task' ∈ pre ++ { task with conn := conn } ::
      post,
        ref ∉ task'.conn.locks := by
      intro tx htx ref href task' htask'
      rcases mem_middle.1 htask' with rfl | htask'
      · exact fun hheld => (hspares tx htx).2 ref hheld href
      · exact h.apart tx htx ref href task' (mem_of_partyAt_others hparty htask')
    have hnext := h.of_spares (fun tx htx => (hspares tx htx).1) hlocks
    exact ⟨hnext.sound, hnext.apart⟩
  | close i =>
    simp only [serviceStep, Option.map_eq_some_iff] at hstep
    obtain ⟨⟨pre, task, post⟩, hparty, rfl⟩ := hstep
    refine h.of_spares (fun _ _ => .of_eq rfl rfl) fun tx htx ref href task' htask' => ?_
    exact h.apart tx htx ref href task' (mem_of_partyAt_others hparty htask')
  | link c =>
    simp only [serviceStep] at hstep
    split at hstep
    · cases hstep
    · obtain rfl := Option.some.inj hstep
      exact h.of_spares (fun _ _ => spares_link c) h.apart

theorem Service.Quiet.submitsSound (hquiet : s.Quiet) : s.SubmitsSound submitLibs := by
  refine ⟨SubmitState.sound_of_idle hquiet.1, fun tx htx => ?_⟩
  rw [hquiet.1] at htx
  exact absurd htx List.not_mem_nil

/-- What a step makes of the responses and the accepted submits: a step of a submit, or some of the
rows are gone. -/
theorem responses_of_serviceStep (hstep : serviceStep libs submitLibs s e = some s') :
    (∃ e state, submitStep submitLibs s.submitState e = some state ∧ s' = s.withSubmitState state) ∨
      s'.db.responses.rows ⊆ s.db.responses.rows ∧ s'.accepted = s.accepted := by
  cases e with
  | submit e =>
    rw [serviceStep] at hstep
    split at hstep
    · cases hstep
    · obtain ⟨state, hstate, rfl⟩ := Option.map_eq_some_iff.1 hstep
      exact Or.inl ⟨e, state, hstate, rfl⟩
  | request guildId req =>
    obtain rfl := Option.some.inj hstep
    exact Or.inr ⟨List.Subset.refl _, rfl⟩
  | start i =>
    simp only [serviceStep, Option.bind_eq_some_iff, Option.map_eq_some_iff] at hstep
    obtain ⟨-, -, conn, -, rfl⟩ := hstep
    exact Or.inr ⟨List.Subset.refl _, rfl⟩
  | finish i outcome now =>
    simp only [serviceStep, Option.bind_eq_some_iff, Option.ite_none_left_eq_some,
      Option.map_eq_some_iff] at hstep
    obtain ⟨⟨pre, task, post⟩, -, -, ⟨conn, d'⟩, hfinish, rfl⟩ := hstep
    have hspares : s.db.Spares (fun _ => False) d' ∧ _ :=
      spares_finish (fun _ _ hfalse => hfalse) (fun _ hfalse => hfalse.elim) hfinish
    exact Or.inr ⟨hspares.1.subset, rfl⟩
  | close i =>
    simp only [serviceStep, Option.map_eq_some_iff] at hstep
    obtain ⟨-, -, rfl⟩ := hstep
    exact Or.inr ⟨List.Subset.refl _, rfl⟩
  | link c =>
    simp only [serviceStep] at hstep
    split at hstep
    · cases hstep
    · obtain rfl := Option.some.inj hstep
      have hspares : s.db.Spares (fun _ => False) (s.db.link c) := spares_link c
      exact Or.inr ⟨hspares.subset, rfl⟩

/-! ### Runs -/

theorem service_traced_step (h : s.SubmitsSound submitLibs)
    (htraced : ∀ row ∈ s.db.responses.rows, Traced submitLibs s.accepted row)
    (hstep : serviceStep libs submitLibs s e = some s') :
    ∀ row ∈ s'.db.responses.rows, Traced submitLibs s'.accepted row := by
  rcases responses_of_serviceStep hstep with ⟨e, state, hstate, rfl⟩ | ⟨hsub, haccepted⟩
  · exact traced_step h.sound htraced hstate
  · intro row hrow
    rw [haccepted]
    exact htraced row (hsub hrow)

private theorem service_traced_run {es : List ServiceEvent} (hquiet : s.Quiet)
    (htraced : ∀ row ∈ s.db.responses.rows, Traced submitLibs s.accepted row)
    (hrun : (serviceSystem libs submitLibs).Run (fun _ _ _ => True) s es t) :
    t.SubmitsSound submitLibs ∧ ∀ row ∈ t.db.responses.rows, Traced submitLibs t.accepted row :=
  hrun.invariant (P := fun t => t.SubmitsSound submitLibs ∧
    ∀ row ∈ t.db.responses.rows, Traced submitLibs t.accepted row)
    (fun _ _ _ h _ hstep => ⟨submitsSound_step h.1 hstep, service_traced_step h.1 h.2 hstep⟩)
    ⟨hquiet.submitsSound, htraced⟩

/-- In any run of the service every response is what one accepted submit has left: its answers and
its score, under the version of the form that it was graded against. -/
theorem service_responses_traced {es : List ServiceEvent} (hquiet : s.Quiet)
    (htraced : ∀ row ∈ s.db.responses.rows, Traced submitLibs s.accepted row)
    (hrun : (serviceSystem libs submitLibs).Run (fun _ _ _ => True) s es t) :
    ∀ row ∈ t.db.responses.rows, Traced submitLibs t.accepted row :=
  (service_traced_run hquiet htraced hrun).2

/-- A submit that is accepted holds a form that is there. -/
theorem knew_accepted_step (h : s.SubmitsSound submitLibs) (hs : s.Remembers)
    (hknew : ∀ a ∈ s.accepted, s.Knew a.form) (hstep : serviceStep libs submitLibs s e = some s') :
    ∀ a ∈ s'.accepted, s'.Knew a.form := by
  have hkept : ∀ a ∈ s.accepted, s'.Knew a.form := fun a ha => knew_step hs (hknew a ha) hstep
  rcases responses_of_serviceStep hstep with ⟨e, state, hstate, rfl⟩ | ⟨-, haccepted⟩
  · rcases submitStep_cases hstate with ⟨-, haccepted⟩ | ⟨tx, htx, others, hcommit, -⟩
    · exact fun a ha => hkept a ((congrArg (a ∈ ·) haccepted).mp ha)
    · obtain ⟨a, form, now, g, write, newId, jobsNow, hphase, ⟨rfl, -⟩, -, -, haccepted⟩ :=
        commitTx_eq_some hcommit
      have hform := ((h.sound.transactions tx htx).graded hphase).1
      intro b hb
      rcases List.mem_cons.1 ((congrArg (b ∈ ·) haccepted).mp hb) with rfl | hb
      · exact knew_step hs (hs.knew hform) hstep
      · exact hkept b hb
  · exact fun a ha => hkept a (haccepted ▸ ha)

/-- In a run with no responses at its start, each response is what an accepted submit has left, and
the forms that submits were accepted for are known. -/
theorem traced_known_run {es : List ServiceEvent} (hquiet : s.Quiet)
    (hhomes : ∀ form ∈ s.db.forms.rows, (s.homes form.id).isSome)
    (hresponses : s.db.responses.rows = []) (haccepted : s.accepted = [])
    (hrun : (serviceSystem libs submitLibs).Run (fun _ _ _ => True) s es t) :
    (∀ row ∈ t.db.responses.rows, Traced submitLibs t.accepted row) ∧
      ∀ a ∈ t.accepted, t.Knew a.form := by
  constructor
  · exact (service_traced_run hquiet (fun row hrow =>
      absurd (hresponses ▸ hrow) List.not_mem_nil) hrun).2
  · have hinv : (t.SubmitsSound submitLibs ∧ t.Remembers) ∧ ∀ a ∈ t.accepted, t.Knew a.form := by
      refine hrun.invariant (P := fun t => (t.SubmitsSound submitLibs ∧ t.Remembers) ∧
        ∀ a ∈ t.accepted, t.Knew a.form)
        (fun _ _ _ h _ hstep => ⟨⟨submitsSound_step h.1.1 hstep, remembers_step h.1.2 hstep⟩,
          knew_accepted_step h.1.1 h.1.2 h.2 hstep⟩)
            ⟨⟨hquiet.submitsSound, hquiet.remembers hhomes⟩, fun a ha => ?_⟩
      rw [haccepted] at ha
      exact absurd ha List.not_mem_nil
    exact hinv.2

/-- A form that has the version of a response has graded it. -/
theorem graded_of_version {row : FormResponse} {form : Form}
    (htraced : Traced submitLibs t.accepted row) (hknew : ∀ a ∈ t.accepted, t.Knew a.form)
    (hform : form ∈ t.db.forms.rows) (hid : form.id.text = row.formId) :
    row.schemaVersion ≤ form.version ∧ (row.schemaVersion = form.version →
      ∃ a ∈ t.accepted, a.form = form ∧ a.submission.discordId = row.discordId ∧
        GradedBy submitLibs form a.submission a.graded ∧ row.answers = a.graded.answers ∧
        row.totalScore = a.graded.totalScore) := by
  obtain ⟨a, ha, hpair, hgraded, hanswers, hscore, hversion⟩ := htraced
  have hids : form.id = a.form.id := Uuid.text_injective (hid.trans (congrArg Prod.fst hpair).symm)
  have hbecomes := (hknew a ha).2 form hform hids
  refine ⟨hversion ▸ hbecomes.version, fun hsame => ?_⟩
  -- the form has not changed since the submit
  obtain rfl := hbecomes.same (hsame.symm.trans hversion)
  exact ⟨a, ha, rfl, congrArg Prod.snd hpair, hgraded, hanswers, hscore⟩

/-- A response of the version that its form has now was graded against the form as it is now: an
accepted submit of the member to the form as it is has the answers and the score of the row.  No
response has a later version. -/
theorem current_version_graded {es : List ServiceEvent} (hquiet : s.Quiet)
    (hhomes : ∀ form ∈ s.db.forms.rows, (s.homes form.id).isSome)
    (hresponses : s.db.responses.rows = []) (haccepted : s.accepted = [])
    (hrun : (serviceSystem libs submitLibs).Run (fun _ _ _ => True) s es t) :
    ∀ row ∈ t.db.responses.rows, ∀ form ∈ t.db.forms.rows, form.id.text = row.formId →
      row.schemaVersion ≤ form.version ∧ (row.schemaVersion = form.version →
        ∃ a ∈ t.accepted, a.form = form ∧ a.submission.discordId = row.discordId ∧
          GradedBy submitLibs form a.submission a.graded ∧ row.answers = a.graded.answers ∧
          row.totalScore = a.graded.totalScore) := by
  obtain ⟨htraced, hknew⟩ := traced_known_run hquiet hhomes hresponses haccepted hrun
  exact fun row hrow form hform hid => graded_of_version (htraced row hrow) hknew hform hid

end

/-! ### A submit and a save -/

/-- The small guild before anyone has responded. -/
def freshSurvey : Service := quietService { surveyDatabase with responses := Table.empty }

/-- A submit, and a save of the form that follows it or not. -/
def submitThenSave (saves : Bool) : List ServiceEvent :=
  lateSubmit ++ .submit (.commit 0) ::
    if saves then .request ['g'] (.updateForm surveyId.text (titled "mine" 1)) :: stepsOf 0 4
      else []

private theorem submitThenSave_runs (saves : Bool) :
    ∃ t, (serviceSystem tabLibs quizLibs).Run (fun _ _ _ => True) freshSurvey
    (submitThenSave saves) t ∧
    t.db.responses.rows.map (fun row => (row.formId, row.schemaVersion)) = [(surveyId.text, 1)] ∧
    t.db.forms.rows.map (fun form => (form.id, form.version)) =
      [(surveyId, if saves then 2 else 1)] := by
  have hexec : ((serviceSystem tabLibs quizLibs).exec freshSurvey (submitThenSave saves)).any
      (fun t =>
        t.db.responses.rows.map (fun row => (row.formId, row.schemaVersion)) = [(surveyId.text, 1)] ∧
          t.db.forms.rows.map (fun form => (form.id, form.version)) =
              [(surveyId, if saves then 2 else 1)]) := by
    revert saves
    decide +kernel
  obtain ⟨t, ht, hrows⟩ := (Option.any_eq_true _ _).1 hexec
  exact ⟨t, System.Run.of_exec ht fun _ _ _ _ => trivial, of_decide_eq_true hrows⟩

private theorem freshSurvey_remembered :
    ∀ form ∈ freshSurvey.db.forms.rows, (freshSurvey.homes form.id).isSome :=
  surveyDatabase_remembered

theorem service_responses_traced_survey :
    ∃ t : Service, ∃ row ∈ t.db.responses.rows, Traced quizLibs t.accepted row := by
  obtain ⟨t, hrun, hresponses, -⟩ := submitThenSave_runs true
  obtain ⟨row, hrow, -⟩ := List.map_eq_singleton_iff.1 hresponses
  have hmem : row ∈ t.db.responses.rows := hrow ▸ List.mem_singleton_self row
  have hnone : ∀ row ∈ freshSurvey.db.responses.rows, Traced quizLibs freshSurvey.accepted row :=
    fun row hrow => absurd hrow List.not_mem_nil
  exact ⟨t, row, hmem, service_responses_traced ⟨rfl, rfl⟩ hnone hrun row hmem⟩

theorem current_version_graded_survey : ∃ (t : Service) (row : FormResponse), ∃ a ∈ t.accepted,
    row.schemaVersion = a.form.version ∧ GradedBy quizLibs a.form a.submission a.graded ∧
      row.answers = a.graded.answers := by
  obtain ⟨t, hrun, hresponses, hforms⟩ := submitThenSave_runs false
  obtain ⟨row, hrow, hrowId⟩ := List.map_eq_singleton_iff.1 hresponses
  obtain ⟨form, hform, hformId⟩ := List.map_eq_singleton_iff.1 hforms
  obtain ⟨hid, hversion⟩ := Prod.mk.inj hrowId
  obtain ⟨hid', hversion'⟩ := Prod.mk.inj hformId
  have hsame : row.schemaVersion = form.version := hversion.trans hversion'.symm
  obtain ⟨-, hgraded⟩ := current_version_graded ⟨rfl, rfl⟩ freshSurvey_remembered rfl rfl hrun row
    (hrow ▸ List.mem_singleton_self row) form (hform ▸ List.mem_singleton_self form)
      (hid' ▸ hid.symm)
  obtain ⟨a, ha, rfl, -, hg, hanswers, -⟩ := hgraded hsame
  exact ⟨t, row, a, ha, hsame, hg, hanswers⟩

end FormRespondentRole
