import FormRespondentRole.AdminRuns
import FormRespondentRole.SubmitInvariant

/-!
# Re-syncs after a change

A change that can alter who qualifies should come with its job.  A submit enqueues the member's job
in the transaction of its write.  The admin handlers enqueue after they have committed, one
statement for each link, so a crash, a lost answer or a failed statement in between leaves a change
that nothing re-syncs.
-/

namespace FormRespondentRole

open Foundations Admin

/-! ### What a change asks for -/

def Pending (kind : JobKind) (payload : Value) (t : JobTable) : Prop :=
  ∃ row ∈ t.rows, row.status = .pending ∧ row.kind = kind.asStr ∧ row.payload = payload

def ConfigPending (key : LinkKey) (t : JobTable) : Prop :=
  Pending .configSync (configSyncPayload key.1 key.2) t

def PlayerPending (discordId : Text) (t : JobTable) : Prop :=
  Pending .playerSync (PlayerSyncPayload.updated discordId).toValue t

namespace Database

/-- The form that a stored text names. -/
def formOf (d : Database) (formId : Text) : Option Form := d.forms.rows.find? (·.id.text = formId)

end Database

/-- A change reaches a link through its row, its form, or the responses of its form. -/
def RoleLink.Affected (link : RoleLink) (d d' : Database) : Prop :=
  link ∈ d.roleLinks.rows ∧ (link ∉ d'.roleLinks.rows ∨
    ∃ formId, link.formId = some formId ∧
      (d'.formOf formId ≠ d.formOf formId ∨ d'.formResponses formId ≠ d.formResponses formId))

inductive ChangeRequest
  | deleteResponse (formId responseId : Text)
  | deleteAllResponses (formId : Text)
  | deleteForm (formId : Text)
  | updateForm (formId : Text) (body : UpdateBody)
  | roleConfigSave (roleId : Text) (body : RoleConfigBody)

namespace ChangeRequest

def program (libs : AdminLibs) (guildId : Text) : ChangeRequest → AdminM Value
  | deleteResponse formId responseId => Admin.deleteResponse libs guildId formId responseId
  | deleteAllResponses formId => Admin.deleteAllResponses libs guildId formId
  | deleteForm formId => Admin.deleteForm libs guildId formId
  | updateForm formId body => Admin.updateForm libs guildId formId body
  | roleConfigSave roleId body => Admin.roleConfigSave libs guildId roleId body

/-- What is committed when the handler is over. -/
def leaves (libs : AdminLibs) (weather : Weather) (guildId : Text) (req : ChangeRequest)
    (d : Database) : Database :=
  ((req.program libs guildId).exec weather ⟨d, none, 0⟩).2.db

/-- A deleted response asks for its member's job, any other change for the jobs of the links it
affects. -/
def Resynced (req : ChangeRequest) (d d' : Database) : Prop :=
  match req with
  | deleteResponse .. => ∀ row ∈ d.responses.rows, row ∉ d'.responses.rows →
    PlayerPending row.discordId d'.jobs
  | deleteAllResponses _ | deleteForm _ | updateForm .. | roleConfigSave .. =>
    ∀ link : RoleLink, link.Affected d d' → ConfigPending link.key d'.jobs

end ChangeRequest

/-! ### The queue -/

section

variable {weather : Weather} {key : LinkKey} {keys : List LinkKey} {n : Nat} {t : JobTable}

private theorem pending_enqueue {now : Instant} {kind kind' : JobKind} {payload payload' : Value}
    {delay : Nat} :
    Pending kind payload (t.enqueue now kind' payload' delay) ↔
      Pending kind payload t ∨ kind.asStr = kind'.asStr ∧ payload = payload' := by
  constructor
  · rintro ⟨row, hrow, hpending, hkind, hpayload⟩
    rcases List.mem_append.1 hrow with hrow | hrow
    · exact Or.inl ⟨row, hrow, hpending, hkind, hpayload⟩
    · rw [List.mem_singleton.1 hrow] at hkind hpayload
      exact Or.inr ⟨hkind.symm, hpayload.symm⟩
  · rintro (⟨row, hrow, hpending⟩ | ⟨hkind, rfl⟩)
    · exact ⟨row, List.mem_append_left _ hrow, hpending⟩
    · exact ⟨_, List.mem_append_right _ (List.mem_singleton_self _), rfl, hkind.symm, rfl⟩

private theorem configSyncPayload_inj {key key' : LinkKey}
    (h : configSyncPayload key.1 key.2 = configSyncPayload key'.1 key'.2) :
    key = key' := by
  simp only [configSyncPayload, Value.object.injEq, List.cons.injEq, Prod.mk.injEq,
    Value.string.injEq, true_and,
    and_true] at h
  exact Prod.ext h.1 h.2

private theorem configPending_resynced {key' : LinkKey} :
    ConfigPending key (t.resynced weather n key') ↔
      ConfigPending key t ∨ key = key' ∧ (weather.outcome n).carried = true := by
  rw [JobTable.resynced]
  split
  · rename_i hcarried
    rw [ConfigPending, pending_enqueue, hcarried]
    refine or_congr Iff.rfl ⟨fun h => ⟨configSyncPayload_inj h.2, rfl⟩, ?_⟩
    rintro ⟨rfl, -⟩
    exact ⟨rfl, rfl⟩
  · rename_i hfailed
    exact ⟨Or.inl, fun h => h.resolve_right fun hkey => hfailed hkey.2⟩

/-- The statement for this link, among those for the links from the n-th on, is carried out. -/
def Enqueues (weather : Weather) (n : Nat) (keys : List LinkKey) (key : LinkKey) : Prop :=
  ∃ i, keys[i]? = some key ∧ (weather.outcome (n + i)).carried = true

private theorem configPending_resyncedEach :
    ConfigPending key (t.resyncedEach weather n keys) ↔ ConfigPending key t ∨
      Enqueues weather n keys key := by
  induction keys generalizing n t with
  | nil => simp [JobTable.resyncedEach, Enqueues]
  | cons key' keys ih =>
    rw [JobTable.resyncedEach, ih, configPending_resynced, or_assoc]
    refine or_congr Iff.rfl ⟨?_, ?_⟩
    · rintro (⟨rfl, hcarried⟩ | ⟨i, hi, hcarried⟩)
      · exact ⟨0, rfl, hcarried⟩
      · exact ⟨i + 1, hi, by rw [← Nat.add_assoc, Nat.add_right_comm]; exact hcarried⟩
    · rintro ⟨i, hi, hcarried⟩
      cases i with
      | zero => exact Or.inl ⟨(Option.some.inj hi).symm, hcarried⟩
      | succ i => exact Or.inr ⟨i, hi, by rw [Nat.add_right_comm]; exact hcarried⟩

/-- The same for the loop of a save, in which each link is read first, and a failed read ends the
loop. -/
def EnqueuesSaved (weather : Weather) (n : Nat) (keys : List LinkKey) (key : LinkKey) : Prop :=
  ∃ i, keys[i]? = some key ∧ (∀ j ≤ i, weather.outcome (n + 2 * j) = .done) ∧
    (weather.outcome (n + 2 * i + 1)).carried = true

private theorem configPending_resyncedSaved :
    ConfigPending key (t.resyncedSaved weather n keys) ↔ ConfigPending key t ∨
      EnqueuesSaved weather n keys key := by
  induction keys generalizing n t with
  | nil => simp [JobTable.resyncedSaved, EnqueuesSaved]
  | cons key' keys ih =>
    by_cases hread : weather.outcome n = .done
    · rw [JobTable.resyncedSaved, hread]
      simp only
      rw [ih, configPending_resynced, or_assoc]
      refine or_congr Iff.rfl ⟨?_, ?_⟩
      · rintro (⟨rfl, hcarried⟩ | ⟨i, hi, hreads, hcarried⟩)
        · refine ⟨0, rfl, fun j hj => ?_, hcarried⟩
          rw [Nat.le_zero.1 hj]
          exact hread
        · refine ⟨i + 1, hi, fun j hj => ?_, ?_⟩
          · cases j with
            | zero => exact hread
            | succ j =>
              have hj := hreads j (by omega)
              rw [show n + 2 * (j + 1) = n + 2 + 2 * j by omega]
              exact hj
          · rw [show n + 2 * (i + 1) + 1 = n + 2 + 2 * i + 1 by omega]
            exact hcarried
      · rintro ⟨i, hi, hreads, hcarried⟩
        cases i with
        | zero => exact Or.inl ⟨(Option.some.inj hi).symm, hcarried⟩
        | succ i =>
          refine Or.inr ⟨i, hi, fun j hj => ?_, ?_⟩
          · have hj := hreads (j + 1) (by omega)
            rw [show n + 2 + 2 * j = n + 2 * (j + 1) by omega]
            exact hj
          · rw [show n + 2 + 2 * i + 1 = n + 2 * (i + 1) + 1 by omega]
            exact hcarried
    · have hended : t.resyncedSaved weather n (key' :: keys) = t := by
        rw [JobTable.resyncedSaved]
        split
        · rename_i hdone
          exact absurd hdone hread
        · rfl
      rw [hended]
      refine ⟨Or.inl, fun h => h.resolve_right ?_⟩
      rintro ⟨i, _, hreads, _⟩
      exact hread (hreads 0 (Nat.zero_le i))

end

/-! ### What is committed -/

section

variable {libs : AdminLibs} {weather : Weather} {guildId formId : Text} {u : Uuid} {d : Database}

/-- A handler whose statement fails leaves what it found, if the statement commits nothing. -/
theorem db_of_not_done {α : Type} {s : Session} {c : AdminCall} {f : c.Answer → AdminM α}
    (h : weather.outcome s.calls ≠ .done) (hc : (s.after weather c).db = s.db) :
    ((query c >>= f).exec weather s).2.db = s.db := by
  rw [exec_query_bind]
  cases houtcome : weather.outcome s.calls with
  | done => exact absurd houtcome h
  | failed e => rw [serveSql_failed houtcome]
  | lost e =>
    cases hrefusal : s.current.refusal c with
    | none => rw [serveSql_lost houtcome hrefusal]; exact hc
    | some e => simp only [serveSql, houtcome, hrefusal]

private theorem db_of_quiet {α : Type} {s : Session} {c : AdminCall} {f : c.Answer → AdminM α}
    (hc : (s.after weather c).db = s.db)
    (hf : ∀ a s', s'.db = s.db → ((f a).exec weather s').2.db = s.db) :
    ((query c >>= f).exec weather s).2.db = s.db := by
  by_cases h : weather.outcome s.calls = .done
  · rw [exec_query_bind]
    cases hrefusal : s.current.refusal c with
    | none => rw [serveSql_done h hrefusal]; exact hf _ _ hc
    | some e => rw [serveSql_refused (by rw [h]; rfl) hrefusal]
  · exact db_of_not_done h hc

/-- The deletion of a form commits. -/
def DeletesForm (weather : Weather) (d : Database) (id : Uuid) (guildId : Text) : Prop :=
  (d.form? id guildId).isSome ∧ (∀ n < 6, weather.outcome n = .done) ∧
    (weather.outcome 6).carried = true

private theorem db_deleteForm (h : libs.parseUuid formId = some u) :
    (¬DeletesForm weather d u guildId ∧
      ((deleteForm libs guildId formId).exec weather ⟨d, none, 0⟩).2.db = d) ∨
    (DeletesForm weather d u guildId ∧ weather.outcome 6 = .done ∧
      ((deleteForm libs guildId formId).exec weather ⟨d, none, 0⟩).2.db =
        { d.cascade u guildId formId with jobs := d.jobs.resyncedEach weather 7
                                            (d.boundKeys formId) }) ∨
    (DeletesForm weather d u guildId ∧ weather.outcome 6 ≠ .done ∧
      ((deleteForm libs guildId formId).exec weather ⟨d, none, 0⟩).2.db =
          d.cascade u guildId formId) := by
  -- a statement before the `COMMIT` that fails ends the transaction
  have quiet : ∀ n < 6, weather.outcome n ≠ .done → ¬DeletesForm weather d u guildId :=
    fun n hn hfails hdeletes => hfails (hdeletes.2.1 n hn)
  simp only [deleteForm, formUuid, h, pure_bind, throw_bind]
  by_cases h0 : weather.outcome 0 = .done
  swap
  · exact Or.inl ⟨quiet 0 (by decide) h0, db_of_not_done h0 rfl⟩
  rw [exec_query_of_done h0 rfl, ownsForm_answer]
  cases hform : d.form? u guildId with
  | none =>
    refine Or.inl ⟨fun hdeletes => ?_, rfl⟩
    rw [DeletesForm, hform] at hdeletes
    exact Bool.false_ne_true hdeletes.1
  | some form =>
    simp only [Option.isSome_some, Bool.not_true, Bool.false_eq_true, if_false]
    by_cases h1 : weather.outcome 1 = .done
    swap
    · exact Or.inl ⟨quiet 1 (by decide) h1, db_of_not_done h1 rfl⟩
    rw [exec_query_of_done h1 rfl]
    by_cases h2 : weather.outcome 2 = .done
    swap
    · exact Or.inl ⟨quiet 2 (by decide) h2, db_of_not_done h2 rfl⟩
    rw [exec_query_of_done h2 rfl]
    by_cases h3 : weather.outcome 3 = .done
    swap
    · exact Or.inl ⟨quiet 3 (by decide) h3, db_of_not_done h3 rfl⟩
    rw [exec_query_of_done h3 rfl]
    by_cases h4 : weather.outcome 4 = .done
    swap
    · exact Or.inl ⟨quiet 4 (by decide) h4, db_of_not_done h4 rfl⟩
    rw [exec_query_of_done h4 rfl]
    by_cases h5 : weather.outcome 5 = .done
    swap
    · exact Or.inl ⟨quiet 5 (by decide) h5, db_of_not_done h5 rfl⟩
    rw [exec_query_of_done h5 rfl]
    split
    · rename_i hzero
      -- the form is there, so that it is deleted
      obtain ⟨hmem, hkey⟩ := Database.form?_eq_some hform
      have hnone := List.filter_eq_nil_iff.1 (List.length_eq_zero_iff.1 hzero) form hmem
      exact absurd (decide_eq_true hkey) hnone
    have hdone : ∀ n < 6, weather.outcome n = .done := by
      intro n hn
      have hcases : n = 0 ∨ n = 1 ∨ n = 2 ∨ n = 3 ∨ n = 4 ∨ n = 5 := by omega
      rcases hcases with rfl | rfl | rfl | rfl | rfl | rfl
      exacts [h0, h1, h2, h3, h4, h5]
    cases h6 : weather.outcome 6 with
    | done =>
      refine Or.inr (Or.inl ⟨⟨by rw [hform]; rfl, hdone, by rw [h6]; rfl⟩, rfl, ?_⟩)
      rw [exec_query_of_done h6 rfl]
      exact congrArg (fun r : Except AppError Value × Session => r.2.db)
        (exec_bind_of_ok (exec_enqueueEach _))
    | lost e =>
      refine Or.inr (Or.inr ⟨⟨by rw [hform]; rfl, hdone, by rw [h6]; rfl⟩, Outcome.noConfusion, ?_⟩)
      rw [exec_query_bind, serveSql_lost h6 rfl]
      rfl
    | failed e =>
      refine Or.inl ⟨fun hdeletes => ?_, ?_⟩
      · rw [DeletesForm, h6] at hdeletes
        exact Bool.false_ne_true hdeletes.2.2
      · rw [exec_query_bind, serveSql_failed h6]
        rfl

/-- The deletion of all responses commits. -/
def DeletesResponses (weather : Weather) (d : Database) (id : Uuid) (guildId : Text) : Prop :=
  (d.form? id guildId).isSome ∧ weather.outcome 0 = .done ∧ weather.outcome 1 = .done ∧
    (weather.outcome 2).carried = true

private theorem db_deleteAllResponses (h : libs.parseUuid formId = some u) :
    (¬DeletesResponses weather d u guildId ∧
      ((deleteAllResponses libs guildId formId).exec weather ⟨d, none, 0⟩).2.db = d) ∨
    (DeletesResponses weather d u guildId ∧ weather.outcome 2 = .done ∧
      ((deleteAllResponses libs guildId formId).exec weather ⟨d, none, 0⟩).2.db =
        { d with
          responses := d.responses.delete (·.formId = formId)
          jobs := d.jobs.resyncedEach weather 3 (d.boundKeys formId) }) ∨
    (DeletesResponses weather d u guildId ∧ weather.outcome 2 ≠ .done ∧
      ((deleteAllResponses libs guildId formId).exec weather ⟨d, none, 0⟩).2.db =
        { d with responses := d.responses.delete (·.formId = formId) }) := by
  simp only [deleteAllResponses, formUuid, h, pure_bind, throw_bind]
  by_cases h0 : weather.outcome 0 = .done
  swap
  · exact Or.inl ⟨fun hdeletes => h0 hdeletes.2.1, db_of_not_done h0 rfl⟩
  rw [exec_query_of_done h0 rfl, ownsForm_answer]
  cases hform : d.form? u guildId with
  | none =>
    refine Or.inl ⟨fun hdeletes => ?_, rfl⟩
    rw [DeletesResponses, hform] at hdeletes
    exact Bool.false_ne_true hdeletes.1
  | some form =>
    simp only [Option.isSome_some, Bool.not_true, Bool.false_eq_true, if_false]
    by_cases h1 : weather.outcome 1 = .done
    swap
    · exact Or.inl ⟨fun hdeletes => h1 hdeletes.2.2.1, db_of_not_done h1 rfl⟩
    rw [exec_query_of_done h1 rfl]
    cases h2 : weather.outcome 2 with
    | done =>
      refine Or.inr (Or.inl ⟨⟨by rw [hform]; rfl, h0, h1, by rw [h2]; rfl⟩, rfl, ?_⟩)
      rw [exec_query_of_done h2 rfl]
      exact congrArg (fun r : Except AppError Value × Session => r.2.db)
        (exec_bind_of_ok (exec_enqueueEach _))
    | lost e =>
      refine Or.inr (Or.inr ⟨⟨by rw [hform]; rfl, h0, h1, by rw [h2]; rfl⟩, Outcome.noConfusion,
        ?_⟩)
      rw [exec_query_bind, serveSql_lost h2 rfl]
      rfl
    | failed e =>
      refine Or.inl ⟨fun hdeletes => ?_, ?_⟩
      · rw [DeletesResponses, h2] at hdeletes
        exact Bool.false_ne_true hdeletes.2.2.2
      · rw [exec_query_bind, serveSql_failed h2]
        rfl

private theorem Database.find_response {row : FormResponse} (h : row ∈ d.responses.rows)
    (hform : row.formId = formId) :
    (d.responses.rows.find? fun other => decide (other.id = row.id ∧ other.formId = formId)) =
      some row := by
  have hsome : (d.responses.rows.find? fun other =>
    decide (other.id = row.id ∧ other.formId = formId)).isSome :=
    List.find?_isSome.2 ⟨row, h, decide_eq_true ⟨rfl, hform⟩⟩
  obtain ⟨other, hother⟩ := Option.isSome_iff_exists.1 hsome
  have hkey := List.find?_some (p := fun other : FormResponse =>
    decide (other.id = row.id ∧ other.formId = formId)) hother
  rw [hother, Table.eq_of_key (List.mem_of_find?_eq_some hother) h (of_decide_eq_true hkey).1]

/-- The deletion of a response commits. -/
def DeletesResponse (weather : Weather) (d : Database) (id : Uuid) (guildId : Text) : Prop :=
  (d.form? id guildId).isSome ∧ weather.outcome 0 = .done ∧ (weather.outcome 1).carried = true

private theorem db_deleteResponse {responseId : Text} {row : FormResponse}
    (h : libs.parseUuid formId = some u) (hr : libs.parseUuid responseId = some row.id)
    (hrow : row ∈ d.responses.rows) (hform : row.formId = formId) :
    (¬DeletesResponse weather d u guildId ∧
      ((deleteResponse libs guildId formId responseId).exec weather ⟨d, none, 0⟩).2.db = d) ∨
    (DeletesResponse weather d u guildId ∧
      (weather.outcome 1 = .done ∧ (weather.outcome 2).carried = true) ∧
      ((deleteResponse libs guildId formId responseId).exec weather ⟨d, none, 0⟩).2.db =
        { d with
          responses := d.responses.delete fun other => other.id = row.id ∧ other.formId = formId
          jobs := d.jobs.enqueue (weather.clock 2) .playerSync
            (PlayerSyncPayload.updated row.discordId).toValue 0 }) ∨
    (DeletesResponse weather d u guildId ∧
      ¬(weather.outcome 1 = .done ∧ (weather.outcome 2).carried = true) ∧
      ((deleteResponse libs guildId formId responseId).exec weather ⟨d, none, 0⟩).2.db =
        { d with responses := d.responses.delete fun other => other.id = row.id ∧
            other.formId = formId }) := by
  simp only [deleteResponse, formUuid, h, hr, pure_bind, throw_bind]
  by_cases h0 : weather.outcome 0 = .done
  swap
  · exact Or.inl ⟨fun hdeletes => h0 hdeletes.2.1, db_of_not_done h0 rfl⟩
  rw [exec_query_of_done h0 rfl, ownsForm_answer]
  cases hform' : d.form? u guildId with
  | none =>
    refine Or.inl ⟨fun hdeletes => ?_, rfl⟩
    rw [DeletesResponse, hform'] at hdeletes
    exact Bool.false_ne_true hdeletes.1
  | some form =>
    simp only [Option.isSome_some, Bool.not_true, Bool.false_eq_true, if_false]
    have howned : (d.form? u guildId).isSome := by rw [hform']; rfl
    have hanswer : (Session.current
      (Session.after weather (.ownsForm u guildId) ⟨d, none, 0⟩)).answer
        (.deleteResponse row.id formId) = some row.discordId :=
      congrArg (Option.map FormResponse.discordId) (Database.find_response hrow hform)
    cases h1 : weather.outcome 1 with
    | failed e =>
      refine Or.inl ⟨fun hdeletes => ?_, ?_⟩
      · rw [DeletesResponse, h1] at hdeletes
        exact Bool.false_ne_true hdeletes.2.2
      · rw [exec_query_bind, serveSql_failed h1]
        rfl
    | lost e =>
      refine Or.inr (Or.inr ⟨⟨howned, h0, by rw [h1]; rfl⟩, fun hdone =>
        Outcome.noConfusion hdone.1, ?_⟩)
      rw [exec_query_bind, serveSql_lost h1 rfl]
      rfl
    | done =>
      rw [exec_query_of_done h1 rfl, hanswer]
      simp only
      rw [exec_tryQuery_bind]
      have hdeletes : DeletesResponse weather d u guildId := ⟨howned, h0, by rw [h1]; rfl⟩
      cases h2 : weather.outcome 2 with
      | done =>
        refine Or.inr (Or.inl ⟨hdeletes, ⟨trivial, rfl⟩, ?_⟩)
        rw [serveSql_done h2 rfl]
        rfl
      | lost e =>
        refine Or.inr (Or.inl ⟨hdeletes, ⟨trivial, rfl⟩, ?_⟩)
        rw [serveSql_lost h2 rfl]
        rfl
      | failed e =>
        refine Or.inr (Or.inr ⟨hdeletes, fun hcarried => Bool.false_ne_true hcarried.2, ?_⟩)
        rw [serveSql_failed h2]
        rfl

/-- Without the row there is nothing to delete. -/
theorem db_deleteResponse_of_missing {responseId : Text} {r : Uuid}
    (h : libs.parseUuid formId = some u) (hr : libs.parseUuid responseId = some r)
    (hmissing : ¬∃ row ∈ d.responses.rows, row.id = r ∧ row.formId = formId) :
    ((deleteResponse libs guildId formId responseId).exec weather ⟨d, none, 0⟩).2.db = d := by
  have hsame : ({ d with responses := d.responses.delete fun row => row.id = r ∧
      row.formId = formId } : Database) = d := by
    rw [Table.delete_of_not fun row hrow => decide_eq_false fun hfound =>
      hmissing ⟨row, hrow, hfound⟩]
  simp only [deleteResponse, formUuid, h, hr, pure_bind, throw_bind]
  by_cases h0 : weather.outcome 0 = .done
  swap
  · exact db_of_not_done h0 rfl
  rw [exec_query_of_done h0 rfl, ownsForm_answer]
  cases d.form? u guildId with
  | none => rfl
  | some form =>
    simp only [Option.isSome_some, Bool.not_true, Bool.false_eq_true, if_false]
    have hanswer : (Session.current
      (Session.after weather (.ownsForm u guildId) ⟨d, none, 0⟩)).answer
        (.deleteResponse r formId) = none :=
      Option.map_eq_none_iff.2 (List.find?_eq_none.2 fun row hrow hfound =>
        hmissing ⟨row, hrow, of_decide_eq_true hfound⟩)
    by_cases h1 : weather.outcome 1 = .done
    · rw [exec_query_of_done h1 rfl, hanswer]
      exact hsame
    · exact db_of_not_done h1 hsame

/-- The save of a form commits. -/
def SavesForm (libs : AdminLibs) (weather : Weather) (d : Database) (id : Uuid) (guildId : Text)
    (body : UpdateBody) :
    Prop :=
  ¬turnedAway libs d id guildId body ∧ (weather.outcome 0).carried = true

private theorem db_updateForm {body : UpdateBody} (h : libs.parseUuid formId = some u) :
    (¬SavesForm libs weather d u guildId body ∧
      ((updateForm libs guildId formId body).exec weather ⟨d, none, 0⟩).2.db = d) ∨
    ∃ edit parsed, checkUpdate libs body = .ok (edit, parsed) ∧
      SavesForm libs weather d u guildId body ∧
      (((weather.outcome 0 = .done ∧ weather.outcome 1 = .done) ∧
        ((updateForm libs guildId formId body).exec weather ⟨d, none, 0⟩).2.db =
          { d.effect (weather.clock 0) (.updateForm u guildId body.version edit) with
            jobs := d.jobs.resyncedSaved weather 2 (d.boundKeys formId) }) ∨
      (¬(weather.outcome 0 = .done ∧ weather.outcome 1 = .done) ∧
        ((updateForm libs guildId formId body).exec weather ⟨d, none, 0⟩).2.db =
          d.effect (weather.clock 0) (.updateForm u guildId body.version edit))) := by
  cases hcheck : checkUpdate libs body with
  | error e =>
    refine Or.inl ⟨fun hsaves => hsaves.1 ?_, ?_⟩
    · rw [turnedAway, hcheck]
      trivial
    · simp only [updateForm, formUuid, h, hcheck, Admin.liftExcept, pure_bind]
      rfl
  | ok checked =>
    obtain ⟨edit, parsed⟩ := checked
    simp only [updateForm, formUuid, h, hcheck, Admin.liftExcept, pure_bind]
    -- a save is turned away when it is refused or matches no row
    have haway : turnedAway libs d u guildId body ↔
        (d.refusal (.updateForm u guildId body.version edit)).isSome ∨
          d.answer (.updateForm u guildId body.version edit) = (0 : Nat) := by
      rw [turnedAway, hcheck]
    cases hrefusal : d.refusal (.updateForm u guildId body.version edit) with
    | some e =>
      refine Or.inl ⟨fun hsaves => hsaves.1 (haway.2 (Or.inl (by rw [hrefusal]; rfl))), ?_⟩
      rw [exec_query_bind]
      cases h0 : weather.outcome 0 with
      | done => rw [serveSql_refused (s := ⟨d, none, 0⟩) (by rw [h0]; rfl) hrefusal]
      | failed e => rw [serveSql_failed h0]
      | lost e => simp only [serveSql, h0, Session.current, Option.getD_none, hrefusal]
    | none =>
      -- an update of no row leaves the tables as they are
      have hcount : (d.answer (.updateForm u guildId body.version edit) : Nat) = 0 →
          d.effect (weather.clock 0) (.updateForm u guildId body.version edit) = d :=
              fun hzero => by
        have hnone := List.filter_eq_nil_iff.1 (List.length_eq_zero_iff.1 hzero)
        rw [Database.effect, Table.update_of_not fun form hform =>
          Bool.eq_false_iff.2 (hnone form hform)]
      cases h0 : weather.outcome 0 with
      | failed e =>
        refine Or.inl ⟨fun hsaves => ?_, ?_⟩
        · rw [SavesForm, h0] at hsaves
          exact Bool.false_ne_true hsaves.2
        · rw [exec_query_bind, serveSql_failed h0]
      | lost e =>
        rw [exec_query_bind, serveSql_lost (s := ⟨d, none, 0⟩) h0 hrefusal]
        by_cases hzero : (d.answer (.updateForm u guildId body.version edit) : Nat) = 0
        · exact Or.inl ⟨fun hsaves => hsaves.1 (haway.2 (Or.inr hzero)), hcount hzero⟩
        · refine Or.inr ⟨edit, parsed, rfl, ⟨fun h => ?_, by rw [h0]; rfl⟩,
            Or.inr ⟨fun h => Outcome.noConfusion h.1, rfl⟩⟩
          exact (haway.1 h).elim (fun h => by rw [hrefusal] at h; exact Bool.false_ne_true h) hzero
      | done =>
        rw [exec_query_of_done (s := ⟨d, none, 0⟩) h0 hrefusal]
        split
        · rename_i hzero
          refine Or.inl ⟨fun hsaves => hsaves.1 (haway.2 (Or.inr hzero)), ?_⟩
          refine (db_of_quiet rfl fun version s' hs' => ?_).trans (hcount hzero)
          cases version <;> exact hs'
        · rename_i hzero
          refine Or.inr ⟨edit, parsed, rfl, ⟨fun h => ?_, by rw [h0]; rfl⟩, ?_⟩
          · exact (haway.1 h).elim (fun h => by rw [hrefusal] at h; exact Bool.false_ne_true h)
              hzero
          · by_cases h1 : weather.outcome 1 = .done
            · refine Or.inl ⟨⟨rfl, h1⟩, ?_⟩
              let saved := d.effect (weather.clock 0) (.updateForm u guildId body.version edit)
              obtain ⟨r, m, hloop⟩ := exec_resyncLinks weather 2 parsed
                (Database.find_boundKeys saved formId)
              rw [exec_query_of_done h1 rfl]
              cases r with
              | error e =>
                exact congrArg (fun p : Except AppError Value × Session => p.2.db)
                  (exec_bind_of_error hloop)
              | ok warnings =>
                refine (congrArg (fun p : Except AppError Value × Session => p.2.db)
                  (exec_bind_of_ok hloop)).trans ?_
                refine db_of_quiet rfl fun version s' hs' => ?_
                cases version <;> exact hs'
            · exact Or.inr ⟨fun h => h1 h.2, db_of_not_done h1 rfl⟩

/-- The schema of the form that a payload chooses, as the save of a role configuration finds it. -/
def chosenSchema (libs : AdminLibs) (d : Database) (guildId : Text) (body : RoleConfigBody) :
    Option (Option FormSchema × Bool) :=
  match body.boundFormId with
  | none => some (none, false)
  | some formId => (libs.parseUuid formId).bind fun id =>
      (d.form? id guildId).map fun form =>
        ((libs.schemaFromValue form.schema).toOption, form.isQuiz)

/-- What the save makes of its payload, if it accepts it. -/
def acceptedConfig (libs : AdminLibs) (d : Database) (guildId roleId : Text)
    (body : RoleConfigBody) :
    Option ParsedConfig :=
  if (d.answer (.selectLink guildId roleId)).isSome then
    (chosenSchema libs d guildId body).bind fun chosen =>
      (parseRoleConfig libs.libs body chosen.1 chosen.2).toOption
  else none

/-- The number of the statement that opens the transaction. -/
def beginAt (body : RoleConfigBody) : Nat := if body.boundFormId.isSome then 2 else 1

/-- The number of the `COMMIT`. -/
def commitAt (body : RoleConfigBody) (parsed : ParsedConfig) : Nat :=
  beginAt body + (if parsed.viewPermission.isSome then 3 else 2)

/-- The save of a role configuration commits. -/
def SavesLink (libs : AdminLibs) (weather : Weather) (d : Database) (guildId roleId : Text)
    (body : RoleConfigBody) (parsed : ParsedConfig) : Prop :=
  acceptedConfig libs d guildId roleId body = some parsed ∧
    (∀ n < commitAt body parsed, weather.outcome n = .done) ∧
    (weather.outcome (commitAt body parsed)).carried = true

/-- The row of the link after an accepted save. -/
def savedLinks (d : Database) (guildId roleId : Text) (parsed : ParsedConfig) :
    Table RoleLink.key :=
  d.roleLinks.update (·.key = (guildId, roleId)) (saveSet parsed.formId parsed.grantOnAnySubmission
    (.array (parsed.conditions.map Condition.toValue)))

/-- The `COMMIT` of a save, and the job after it. -/
theorem db_commitLink (weather : Weather) (d d' : Database) (guildId roleId : Text) (m : Nat) :
    let db := ((do
      query .commit
      let _ ← tryQuery (.enqueueConfigSync guildId roleId)
      return json [("success", .bool true)] : AdminM Value).exec weather ⟨d, some d', m⟩).2.db
    (weather.outcome m = .done ∧
      db = { d' with jobs := d'.jobs.resynced weather (m + 1) (guildId, roleId) }) ∨
    ((weather.outcome m).carried = true ∧ weather.outcome m ≠ .done ∧ db = d') ∨
    ((weather.outcome m).carried = false ∧ db = d) := by
  intro db
  cases h : weather.outcome m with
  | done =>
    refine Or.inl ⟨rfl, ?_⟩
    change Session.db (Prod.snd (AdminM.exec weather _ _)) = _
    rw [exec_query_of_done h rfl, exec_tryQuery_bind]
    exact congrArg Session.db (serveSql_resync guildId roleId)
  | lost e =>
    refine Or.inr (Or.inl ⟨rfl, Outcome.noConfusion, ?_⟩)
    change Session.db (Prod.snd (AdminM.exec weather _ _)) = _
    rw [exec_query_bind, serveSql_lost h rfl]
    rfl
  | failed e =>
    refine Or.inr (Or.inr ⟨rfl, ?_⟩)
    change Session.db (Prod.snd (AdminM.exec weather _ _)) = _
    rw [exec_query_bind, serveSql_failed h]

/-- The statements of a save from its `BEGIN` on. -/
def saveTail (guildId roleId : Text) (parsed : ParsedConfig) : AdminM Value := do
  query .begin
  query (.saveLink guildId roleId parsed.formId parsed.grantOnAnySubmission
    (.array (parsed.conditions.map Condition.toValue)))
  saveViewPermission guildId parsed.viewPermission
  query .commit
  let _ ← tryQuery (.enqueueConfigSync guildId roleId)
  return json [("success", .bool true)]

/-- Up to its `COMMIT` a save leaves everything as it was. -/
theorem exec_saveTail (weather : Weather) (d : Database) (guildId roleId : Text)
    (parsed : ParsedConfig) {n m : Nat}
    (hm : m = n + if parsed.viewPermission.isSome then 3 else 2) :
    (∃ k, n ≤ k ∧ k < m ∧ weather.outcome k ≠ .done ∧
      ((saveTail guildId roleId parsed).exec weather ⟨d, none, n⟩).2.db = d) ∨
    (∀ k, n ≤ k → k < m → weather.outcome k = .done) ∧ ∃ settings,
      (saveTail guildId roleId parsed).exec weather ⟨d, none, n⟩ =
        (do
          query .commit
          let _ ← tryQuery (.enqueueConfigSync guildId roleId)
          return json [("success", .bool true)] : AdminM Value).exec weather
          ⟨d, some { d with roleLinks := savedLinks d guildId roleId parsed,
                            guildSettings := settings }, m⟩ := by
  rw [saveTail]
  by_cases h0 : weather.outcome n = .done
  swap
  · exact Or.inl ⟨n, le_refl n, by split at hm <;> omega, h0, db_of_not_done h0 rfl⟩
  rw [exec_query_of_done h0 rfl]
  by_cases h1 : weather.outcome (n + 1) = .done
  swap
  · exact Or.inl ⟨n + 1, by omega, by split at hm <;> omega, h1, db_of_not_done h1 rfl⟩
  rw [exec_query_of_done h1 rfl]
  cases hview : parsed.viewPermission with
  | none =>
    rw [hview] at hm
    refine Or.inr ⟨fun k hn hk => ?_, d.guildSettings, by rw [hm]; rfl⟩
    have hcases : k = n ∨ k = n + 1 := by
      simp at hm
      omega
    rcases hcases with rfl | rfl
    exacts [h0, h1]
  | some viewPermission =>
    rw [hview] at hm
    have hm : m = n + 3 := hm
    by_cases h2 : weather.outcome (n + 2) = .done
    · refine Or.inr ⟨fun k hn hk => ?_, d.upsertViewPermission guildId viewPermission, ?_⟩
      · have hcases : k = n ∨ k = n + 1 ∨ k = n + 2 := by omega
        rcases hcases with rfl | rfl | rfl
        exacts [h0, h1, h2]
      · rw [saveViewPermission, exec_query_of_done h2 rfl, hm]
        rfl
    · exact Or.inl ⟨n + 2, by omega, by omega, h2, db_of_not_done h2 rfl⟩

/-- A save whose outcome `db` is as its statements had it. -/
def SavedLink (libs : AdminLibs) (weather : Weather) (d : Database) (guildId roleId : Text)
    (body : RoleConfigBody) (db : Database) : Prop :=
  ((¬∃ parsed, SavesLink libs weather d guildId roleId body parsed) ∧ db = d) ∨
  ∃ parsed settings, SavesLink libs weather d guildId roleId body parsed ∧
    ((weather.outcome (commitAt body parsed) = .done ∧ db = { d with
      roleLinks := savedLinks d guildId roleId parsed
      guildSettings := settings
      jobs := d.jobs.resynced weather (commitAt body parsed + 1) (guildId, roleId) }) ∨
    (weather.outcome (commitAt body parsed) ≠ .done ∧
      db = { d with roleLinks := savedLinks d guildId roleId parsed, guildSettings := settings }))

private theorem savedLink_of_rejected {roleId : Text} {body : RoleConfigBody}
    (h : acceptedConfig libs d guildId roleId body = none) :
    SavedLink libs weather d guildId roleId body d := by
  refine Or.inl ⟨fun ⟨parsed, hsaves⟩ => ?_, rfl⟩
  rw [SavesLink, h] at hsaves
  cases hsaves.1

private theorem savedLink_of_not_done {roleId : Text} {body : RoleConfigBody} {n : Nat}
    (hn : n < beginAt body) (h : weather.outcome n ≠ .done) :
    SavedLink libs weather d guildId roleId body d := by
  refine Or.inl ⟨fun ⟨parsed, hsaves⟩ => h (hsaves.2.1 n ?_), rfl⟩
  rw [commitAt]
  omega

/-- A save from the parsing of its payload on. -/
theorem savedLink_chosen {roleId : Text} {body : RoleConfigBody} {chosen : Option FormSchema × Bool}
    (hlink : (d.answer (.selectLink guildId roleId)).isSome)
    (hchosen : chosenSchema libs d guildId body = some chosen)
    (hdone : ∀ n < beginAt body, weather.outcome n = .done) :
    SavedLink libs weather d guildId roleId body
      ((do
        let parsed ← Admin.liftExcept (parseRoleConfig libs.libs body chosen.1 chosen.2)
        saveTail guildId roleId parsed : AdminM Value).exec weather
          ⟨d, none, beginAt body⟩).2.db := by
  have haccepted : acceptedConfig libs d guildId roleId body =
      (parseRoleConfig libs.libs body chosen.1 chosen.2).toOption := by
    rw [acceptedConfig, if_pos hlink, hchosen]
    rfl
  cases hparsed : parseRoleConfig libs.libs body chosen.1 chosen.2 with
  | error e => exact savedLink_of_rejected (by rw [haccepted, hparsed]; rfl)
  | ok parsed =>
    rw [hparsed] at haccepted
    have hsaves : SavesLink libs weather d guildId roleId body parsed ↔
        (∀ k, beginAt body ≤ k → k < commitAt body parsed → weather.outcome k = .done) ∧
          (weather.outcome (commitAt body parsed)).carried = true := by
      refine ⟨fun h => ⟨fun k _ hk => h.2.1 k hk, h.2.2⟩, fun h => ⟨haccepted, fun k hk => ?_, h.2⟩⟩
      by_cases hbegun : beginAt body ≤ k
      · exact h.1 k hbegun hk
      · exact hdone k (by omega)
    have hother : ∀ other, SavesLink libs weather d guildId roleId body other → other = parsed :=
      fun other h => Option.some.inj (h.1.symm.trans haccepted)
    have hcommitAt : commitAt body parsed = beginAt body + if parsed.viewPermission.isSome then 3
      else 2 := rfl
    rcases exec_saveTail weather d guildId roleId parsed hcommitAt with ⟨k, hn, hm, hfails, hdb⟩ |
      ⟨hall, settings, hexec⟩
    · refine Or.inl ⟨fun ⟨other, h⟩ => hfails (((hother other h) ▸ h).2.1 k hm), hdb⟩
    · change SavedLink libs weather d guildId roleId body
        ((saveTail guildId roleId parsed).exec weather ⟨d, none, beginAt body⟩).2.db
      rw [hexec]
      rcases db_commitLink weather d
          { d with roleLinks := savedLinks d guildId roleId parsed,
                   guildSettings := settings } guildId roleId
          (commitAt body parsed) with ⟨hcommit, hdb⟩ | ⟨hcarried, hlost, hdb⟩ | ⟨hfailed, hdb⟩
      · exact Or.inr ⟨parsed, settings, hsaves.2 ⟨hall, by rw [hcommit]; rfl⟩,
          Or.inl ⟨hcommit, hdb⟩⟩
      · exact Or.inr ⟨parsed, settings, hsaves.2 ⟨hall, hcarried⟩, Or.inr ⟨hlost, hdb⟩⟩
      · refine Or.inl ⟨fun ⟨other, h⟩ => ?_, hdb⟩
        have hcarried := ((hother other h) ▸ h).2.2
        rw [hfailed] at hcarried
        exact Bool.false_ne_true hcarried

private theorem db_roleConfigSave {roleId : Text} {body : RoleConfigBody} :
    SavedLink libs weather d guildId roleId body
      ((roleConfigSave libs guildId roleId body).exec weather ⟨d, none, 0⟩).2.db := by
  by_cases h0 : weather.outcome 0 = .done
  swap
  · rw [roleConfigSave, db_of_not_done h0 rfl]
    exact savedLink_of_not_done (by rw [beginAt]; split <;> decide) h0
  rw [roleConfigSave, exec_query_of_done h0 rfl]
  have hanswer : (Session.current ⟨d, none, 0⟩).answer (.selectLink guildId roleId) =
    d.answer (.selectLink guildId roleId) := rfl
  rw [hanswer]
  cases hlink : d.answer (.selectLink guildId roleId) with
  | none => exact savedLink_of_rejected (by rw [acceptedConfig, hlink]; rfl)
  | some link =>
    have hexists : (d.answer (.selectLink guildId roleId)).isSome := by rw [hlink]; rfl
    cases hbody : body.boundFormId with
    | none =>
      have hbegin : beginAt body = 1 := by rw [beginAt, hbody]; rfl
      have hnone : chosenSchema libs d guildId body = some (none, false) := by
        rw [chosenSchema, hbody]
      have hsaved := savedLink_chosen hexists hnone (fun n hn => by
          rw [hbegin] at hn
          rw [Nat.lt_one_iff.1 hn]
          exact h0)
      rw [hbegin] at hsaved
      simp only [boundSchema, hbody]
      exact hsaved
    | some fid =>
      have hbegin : beginAt body = 2 := by rw [beginAt, hbody]; rfl
      simp only [boundSchema, hbody]
      cases hid : libs.parseUuid fid with
      | none =>
        exact savedLink_of_rejected
          (by rw [acceptedConfig, if_pos hexists, chosenSchema, hbody]; simp [hid])
      | some id =>
        simp only [bind_assoc]
        by_cases h1 : weather.outcome 1 = .done
        swap
        · have hdb : ∀ f : (AdminCall.selectForm id guildId).Answer → AdminM Value,
              ((query (.selectForm id guildId) >>= f).exec weather
                (.after weather (.selectLink guildId roleId) ⟨d, none, 0⟩)).2.db =
                d := fun f => db_of_not_done h1 rfl
          rw [hdb]
          exact savedLink_of_not_done (by rw [hbegin]; decide) h1
        have hform : (Session.current
          (.after weather (.selectLink guildId roleId) ⟨d, none, 0⟩)).answer
            (.selectForm id guildId) = d.form? id guildId := rfl
        rw [exec_query_of_done h1 rfl, hform]
        cases hchosen : d.form? id guildId with
        | none =>
          refine savedLink_of_rejected ?_
          rw [acceptedConfig, if_pos hexists, chosenSchema, hbody]
          simp [hid, hchosen]
        | some form =>
          have hsome : chosenSchema libs d guildId body =
              some ((libs.schemaFromValue form.schema).toOption, form.isQuiz) := by
            rw [chosenSchema, hbody]
            simp only [hid, hchosen, Option.bind_some, Option.map_some]
          have hsaved := savedLink_chosen hexists hsome (fun n hn => by
              rw [hbegin] at hn
              have hcases : n = 0 ∨ n = 1 := by omega
              rcases hcases with rfl | rfl
              exacts [h0, h1])
          rw [hbegin] at hsaved
          exact hsaved

/-! ### Affected links -/

theorem RoleLink.not_affected_self {link : RoleLink} : ¬link.Affected d d := by
  rintro ⟨hlink, hgone | ⟨formId, -, hform | hresponses⟩⟩
  · exact hgone hlink
  · exact hform rfl
  · exact hresponses rfl

/-- The queue does not matter for what is affected. -/
theorem RoleLink.affected_jobs {link : RoleLink} {d' : Database} {jobs : JobTable} :
    link.Affected d { d' with jobs := jobs } ↔ link.Affected d d' := Iff.rfl

private theorem notMem_unbound {link : RoleLink} (hlink : link ∈ d.roleLinks.rows) :
    link ∉ (d.roleLinks.update (·.formId = some formId) unbindSet).rows ↔
      link.formId = some formId := by
  constructor
  · intro hgone
    by_contra hbound
    exact hgone (Table.mem_update.2 ⟨link, hlink, by rw [decide_eq_false hbound]; rfl⟩)
  · intro hbound hmem
    obtain ⟨link', -, hupdate⟩ := Table.mem_update.1 hmem
    split at hupdate
    · rw [hupdate] at hbound
      cases hbound
    · rename_i hkept
      exact hkept (decide_eq_true (hupdate ▸ hbound))

private theorem formOf_cascade {x : Text} (hx : x ≠ u.text) :
    (d.cascade u guildId formId).formOf x = d.formOf x := by
  rw [Database.formOf, Database.cascade, Table.delete, List.find?_filter, Database.formOf]
  congr 1
  funext form
  by_cases htext : form.id.text = x
  · have hid : form.id ≠ u := fun hid => hx (hid ▸ htext.symm)
    simp [htext, hid]
  · simp [htext]

private theorem formOf_text_cascade {form : Form} (hform : d.form? u guildId = some form) :
    (d.cascade u guildId formId).formOf u.text ≠ d.formOf u.text := by
  obtain ⟨hmem, hid, hguild⟩ := Database.form?_eq_some hform
  have hsome : (d.formOf u.text).isSome :=
    List.find?_isSome.2 ⟨form, hmem, decide_eq_true (congrArg Uuid.text hid)⟩
  have hnone : (d.cascade u guildId formId).formOf u.text = none := by
    refine List.find?_eq_none.2 fun other hother htext => ?_
    obtain ⟨hother, hkept⟩ := Table.mem_delete.1 hother
    have hotherId : other.id = form.id :=
      (Uuid.text_injective (of_decide_eq_true htext)).trans hid.symm
    rw [Table.eq_of_key hother hmem hotherId] at hkept
    exact of_decide_eq_false hkept ⟨hid, hguild⟩
  rw [hnone]
  intro h
  rw [← h] at hsome
  cases hsome

private theorem formResponses_delete {d' : Database}
    (hd' : d'.responses = d.responses.delete (·.formId = formId)) {x : Text} (hx : x ≠ formId) :
    d'.formResponses x = d.formResponses x := by
  rw [Database.formResponses, hd', Table.delete, List.filter_filter, Database.formResponses]
  refine List.filter_congr fun row _ => ?_
  by_cases hrow : row.formId = x
  · simp [hrow, hx]
  · simp [hrow]

private theorem affected_deleteForm {link : RoleLink} {form : Form}
    (hform : d.form? u guildId = some form) :
    link.Affected d (d.cascade u guildId formId) ↔
      link ∈ d.roleLinks.rows ∧ (link.formId = some formId ∨ link.formId = some u.text) := by
  constructor
  · rintro ⟨hlink, hgone | ⟨x, hx, hchanged⟩⟩
    · exact ⟨hlink, Or.inl ((notMem_unbound hlink).1 hgone)⟩
    · by_cases htext : x = u.text
      · exact ⟨hlink, Or.inr (htext ▸ hx)⟩
      · by_cases hraw : x = formId
        · exact ⟨hlink, Or.inl (hraw ▸ hx)⟩
        · exact absurd hchanged
            (not_or.2 ⟨not_not.2 (formOf_cascade htext), not_not.2 (formResponses_delete rfl hraw)⟩)
  · rintro ⟨hlink, hbound | hbound⟩
    · exact ⟨hlink, Or.inl ((notMem_unbound hlink).2 hbound)⟩
    · exact ⟨hlink, Or.inr ⟨_, hbound, Or.inl (formOf_text_cascade hform)⟩⟩

private theorem affected_deleteAllResponses {link : RoleLink} :
    link.Affected d { d with responses := d.responses.delete (·.formId = formId) } ↔
      link ∈ d.roleLinks.rows ∧ link.formId = some formId ∧ d.formResponses formId ≠ [] := by
  constructor
  · rintro ⟨hlink, hgone | ⟨x, hx, hform | hresponses⟩⟩
    · exact absurd hlink hgone
    · exact absurd rfl hform
    · by_cases hraw : x = formId
      · subst hraw
        refine ⟨hlink, hx, fun hempty => hresponses ?_⟩
        rw [hempty, Database.formResponses]
        exact List.filter_eq_nil_iff.2 fun row hrow hmatch =>
          List.filter_eq_nil_iff.1 hempty row (Table.mem_delete.1 hrow).1 hmatch
      · exact absurd (formResponses_delete rfl hraw) hresponses
  · rintro ⟨hlink, hbound, hsome⟩
    refine ⟨hlink, Or.inr ⟨formId, hbound, Or.inr fun hsame => hsome ?_⟩⟩
    rw [← hsame]
    exact List.filter_eq_nil_iff.2 fun row hrow hmatch =>
      of_decide_eq_false (Table.mem_delete.1 hrow).2 (of_decide_eq_true hmatch)

private theorem formOf_updateForm {now : Instant} {version : Int32} {edit : FormEdit} (x : Text) :
    (d.effect now (.updateForm u guildId version edit)).formOf x =
      (d.formOf x).map fun form =>
        if form.id = u ∧ form.guildId = guildId ∧
            form.version = version then (edit.set now).set form else form := by
  rw [Database.formOf, Database.effect, Table.update, List.find?_map, Database.formOf]
  have hid : ∀ form : Form,
    (if decide (form.id = u ∧ form.guildId = guildId ∧ form.version = version) = true then
      (edit.set now).set form else form).id = form.id := fun form => by
    split
    · exact (edit.set now).key_set form
    · rfl
  simp only [Function.comp_def, hid]
  simp only [decide_eq_true_eq]

private theorem affected_updateForm {link : RoleLink} {now : Instant} {version : Int32}
    {edit : FormEdit} (hcount : (d.answer (.updateForm u guildId version edit) : Nat) ≠ 0) :
    link.Affected d (d.effect now (.updateForm u guildId version edit)) ↔
      link ∈ d.roleLinks.rows ∧ link.formId = some u.text := by
  obtain ⟨form, hform⟩ :=
    List.exists_mem_of_ne_nil _ (fun hempty => hcount (List.length_eq_zero_iff.2 hempty))
  obtain ⟨hmem, hmatch⟩ := List.mem_filter.1 hform
  have hmatch := of_decide_eq_true hmatch
  have hkept : ∀ x, x ≠ u.text → (d.effect now (.updateForm u guildId version edit)).formOf x =
      d.formOf x := by
    intro x hx
    rw [formOf_updateForm]
    cases hfound : d.formOf x with
    | none => rfl
    | some other =>
      have htext := List.find?_some (p := fun f : Form => decide (f.id.text = x)) hfound
      rw [Option.map_some, if_neg fun hother =>
        hx ((of_decide_eq_true htext).symm.trans (congrArg Uuid.text hother.1))]
  constructor
  · rintro ⟨hlink, hgone | ⟨x, hx, hchanged | hresponses⟩⟩
    · exact absurd hlink hgone
    · by_cases htext : x = u.text
      · exact ⟨hlink, htext ▸ hx⟩
      · exact absurd (hkept x htext) hchanged
    · exact absurd rfl hresponses
  · rintro ⟨hlink, hbound⟩
    refine ⟨hlink, Or.inr ⟨u.text, hbound, Or.inl fun hsame => ?_⟩⟩
    have hfound : (d.formOf u.text).isSome :=
      List.find?_isSome.2 ⟨form, hmem, decide_eq_true (congrArg Uuid.text hmatch.1)⟩
    obtain ⟨other, hother⟩ := Option.isSome_iff_exists.1 hfound
    have htext := List.find?_some (p := fun f : Form => decide (f.id.text = u.text)) hother
    have hid : other.id = form.id :=
      (Uuid.text_injective (of_decide_eq_true htext)).trans hmatch.1.symm
    rw [formOf_updateForm, hother, Table.eq_of_key (List.mem_of_find?_eq_some hother) hmem hid,
      Option.map_some,
      if_pos hmatch] at hsame
    have hversion : form.version + 1 = form.version := congrArg Form.version (Option.some.inj hsame)
    simp at hversion

private theorem affected_saved {roleId : Text} {parsed : ParsedConfig}
    {settings : Table GuildSettings.guildId} {link : RoleLink} :
    link.Affected d { d with roleLinks := savedLinks d guildId roleId parsed,
                             guildSettings := settings } ↔
      link ∈ d.roleLinks.rows ∧ link ∉ (savedLinks d guildId roleId parsed).rows := by
  constructor
  · rintro ⟨hlink, hgone | ⟨x, -, hform | hresponses⟩⟩
    · exact ⟨hlink, hgone⟩
    · exact absurd rfl hform
    · exact absurd rfl hresponses
  · exact fun ⟨hlink, hgone⟩ => ⟨hlink, Or.inl hgone⟩

/-- Only the saved link changes. -/
theorem key_of_notMem_saved {roleId : Text} {parsed : ParsedConfig} {link : RoleLink}
    (hlink : link ∈ d.roleLinks.rows) (hgone : link ∉ (savedLinks d guildId roleId parsed).rows) :
    link.key = (guildId, roleId) := by
  by_contra hkey
  exact hgone (Table.mem_update.2 ⟨link, hlink, by rw [decide_eq_false hkey]; rfl⟩)

/-! ### The result -/

/-- When the jobs that a request asks for are there at the end: the change is not committed, or for
every affected link or member a job was pending before or is enqueued by a statement that is reached
and carried out. -/
def ChangeRequest.Requeued (libs : AdminLibs) (weather : Weather) (guildId : Text) (d : Database) :
    ChangeRequest → Prop
  | deleteResponse formId responseId => ∀ u, libs.parseUuid formId = some u →
    DeletesResponse weather d u guildId →
      ∀ row ∈ d.responses.rows, libs.parseUuid responseId = some row.id → row.formId = formId →
        PlayerPending row.discordId d.jobs ∨ weather.outcome 1 = .done ∧
          (weather.outcome 2).carried = true
  | deleteAllResponses formId => ∀ u, libs.parseUuid formId = some u →
    DeletesResponses weather d u guildId →
      d.formResponses formId ≠ [] → ∀ link ∈ d.roleLinks.rows, link.formId = some formId →
        ConfigPending link.key d.jobs ∨ weather.outcome 2 = .done ∧
          Enqueues weather 3 (d.boundKeys formId) link.key
  | deleteForm formId => ∀ u, libs.parseUuid formId = some u → DeletesForm weather d u guildId →
      ∀ link ∈ d.roleLinks.rows, link.formId = some formId ∨ link.formId = some u.text →
        ConfigPending link.key d.jobs ∨ weather.outcome 6 = .done ∧
          Enqueues weather 7 (d.boundKeys formId) link.key
  | updateForm formId body => ∀ u, libs.parseUuid formId = some u →
    SavesForm libs weather d u guildId body →
      ∀ link ∈ d.roleLinks.rows, link.formId = some u.text →
        ConfigPending link.key d.jobs ∨ (weather.outcome 0 = .done ∧ weather.outcome 1 = .done) ∧
          EnqueuesSaved weather 2 (d.boundKeys formId) link.key
  | roleConfigSave roleId body => ∀ parsed, SavesLink libs weather d guildId roleId body parsed →
      ∀ link ∈ d.roleLinks.rows, link ∉ (savedLinks d guildId roleId parsed).rows →
        ConfigPending link.key d.jobs ∨ weather.outcome (commitAt body parsed) = .done ∧
          (weather.outcome (commitAt body parsed + 1)).carried = true

/-- The jobs of a committed change, where the handler goes on to enqueue them. -/
theorem resynced_of_done {db : Database} {affected : RoleLink → Prop} {enqueued : LinkKey → Prop}
    (haffected : ∀ link : RoleLink, link.Affected d db ↔ affected link)
    (hjobs : ∀ key, ConfigPending key db.jobs ↔ ConfigPending key d.jobs ∨ enqueued key) :
    (∀ link : RoleLink, link.Affected d db → ConfigPending link.key db.jobs) ↔
      ∀ link, affected link → ConfigPending link.key d.jobs ∨ enqueued link.key :=
  forall_congr' fun link => imp_congr (haffected link) (hjobs link.key)

/-- Where the answer of the `COMMIT` is lost, only the jobs from before are there. -/
theorem resynced_of_lost {db : Database} {affected : RoleLink → Prop}
    (haffected : ∀ link : RoleLink, link.Affected d db ↔ affected link) (hjobs : db.jobs = d.jobs) :
    (∀ link : RoleLink, link.Affected d db → ConfigPending link.key db.jobs) ↔
      ∀ link, affected link → ConfigPending link.key d.jobs :=
  forall_congr' fun link => imp_congr (haffected link) (by rw [hjobs])

private theorem resynced_self : ∀ link : RoleLink, link.Affected d d →
    ConfigPending link.key d.jobs :=
  fun _ h => absurd h RoleLink.not_affected_self

private theorem resynced_deleteForm :
    (ChangeRequest.deleteForm formId).Resynced d
    ((ChangeRequest.deleteForm formId).leaves libs weather guildId d) ↔
      (ChangeRequest.deleteForm formId).Requeued libs weather guildId d := by
  rw [ChangeRequest.leaves, ChangeRequest.program, ChangeRequest.Requeued, ChangeRequest.Resynced]
  cases hid : libs.parseUuid formId with
  | none =>
    have hdb : ((deleteForm libs guildId formId).exec weather ⟨d, none, 0⟩).2.db = d := by
      simp only [deleteForm, formUuid, hid, throw_bind, exec_throw]
    rw [hdb]
    exact iff_of_true resynced_self (fun u hu => (by cases hu))
  | some u =>
    simp only [Option.some.injEq, forall_eq']
    rcases @db_deleteForm libs weather guildId formId u d hid with
      ⟨hnot, hdb⟩ | ⟨hdeletes, hdone, hdb⟩ | ⟨hdeletes, hlost, hdb⟩
    · rw [hdb]
      exact iff_of_true resynced_self fun hdeletes => absurd hdeletes hnot
    · obtain ⟨form, hform⟩ := Option.isSome_iff_exists.1 hdeletes.1
      rw [hdb]
      refine (resynced_of_done (fun link => RoleLink.affected_jobs.trans
        (affected_deleteForm hform))
        fun key => configPending_resyncedEach).trans ?_
      exact ⟨fun h _ link hlink hbound => (h link ⟨hlink, hbound⟩).imp id fun henq => ⟨hdone, henq⟩,
        fun h link hlink => (h hdeletes link hlink.1 hlink.2).imp id And.right⟩
    · obtain ⟨form, hform⟩ := Option.isSome_iff_exists.1 hdeletes.1
      rw [hdb]
      refine (resynced_of_lost (fun link => affected_deleteForm hform) rfl).trans ?_
      exact ⟨fun h _ link hlink hbound => Or.inl (h link ⟨hlink, hbound⟩),
        fun h link hlink => (h hdeletes link hlink.1 hlink.2).resolve_right fun henq =>
          hlost henq.1⟩

private theorem resynced_deleteAllResponses :
    (ChangeRequest.deleteAllResponses formId).Resynced d
        ((ChangeRequest.deleteAllResponses formId).leaves libs weather guildId d) ↔
      (ChangeRequest.deleteAllResponses formId).Requeued libs weather guildId d := by
  rw [ChangeRequest.leaves, ChangeRequest.program, ChangeRequest.Requeued, ChangeRequest.Resynced]
  cases hid : libs.parseUuid formId with
  | none =>
    have hdb : ((deleteAllResponses libs guildId formId).exec weather ⟨d, none, 0⟩).2.db = d := by
      simp only [deleteAllResponses, formUuid, hid, throw_bind, exec_throw]
    rw [hdb]
    exact iff_of_true resynced_self (fun u hu => (by cases hu))
  | some u =>
    simp only [Option.some.injEq, forall_eq']
    rcases db_deleteAllResponses hid with ⟨hnot, hdb⟩ | ⟨hdeletes, hdone, hdb⟩ |
      ⟨hdeletes, hlost, hdb⟩
    · rw [hdb]
      exact iff_of_true resynced_self fun hdeletes => absurd hdeletes hnot
    · rw [hdb]
      refine (resynced_of_done (fun link =>
        RoleLink.affected_jobs.trans affected_deleteAllResponses)
        fun key => configPending_resyncedEach).trans ?_
      exact ⟨fun h _ hsome link hlink hbound => (h link ⟨hlink, hbound, hsome⟩).imp id fun henq =>
        ⟨hdone, henq⟩,
        fun h link hlink => (h hdeletes hlink.2.2 link hlink.1 hlink.2.1).imp id And.right⟩
    · rw [hdb]
      refine (resynced_of_lost (fun link => affected_deleteAllResponses) rfl).trans ?_
      exact ⟨fun h _ hsome link hlink hbound => Or.inl (h link ⟨hlink, hbound, hsome⟩),
        fun h link hlink => (h hdeletes hlink.2.2 link hlink.1 hlink.2.1).resolve_right fun henq =>
          hlost henq.1⟩

private theorem resynced_updateForm {body : UpdateBody} :
    (ChangeRequest.updateForm formId body).Resynced d
        ((ChangeRequest.updateForm formId body).leaves libs weather guildId d) ↔
      (ChangeRequest.updateForm formId body).Requeued libs weather guildId d := by
  rw [ChangeRequest.leaves, ChangeRequest.program, ChangeRequest.Requeued, ChangeRequest.Resynced]
  cases hid : libs.parseUuid formId with
  | none =>
    have hdb : ((updateForm libs guildId formId body).exec weather ⟨d, none, 0⟩).2.db = d := by
      simp only [updateForm, formUuid, hid, throw_bind, exec_throw]
    rw [hdb]
    exact iff_of_true resynced_self (fun u hu => (by cases hu))
  | some u =>
    simp only [Option.some.injEq, forall_eq']
    rcases db_updateForm hid with ⟨hnot, hdb⟩ | ⟨edit, parsed, hcheck, hsaves, hcases⟩
    · rw [hdb]
      exact iff_of_true resynced_self fun hsaves => absurd hsaves hnot
    · have hcount : (d.answer (.updateForm u guildId body.version edit) : Nat) ≠ 0 := fun hzero =>
        hsaves.1 (by rw [turnedAway, hcheck]; exact Or.inr hzero)
      rcases hcases with ⟨hdone, hdb⟩ | ⟨hlost, hdb⟩
      · rw [hdb]
        refine (resynced_of_done (fun link =>
          RoleLink.affected_jobs.trans (affected_updateForm hcount))
          fun key => configPending_resyncedSaved).trans ?_
        exact ⟨fun h _ link hlink hbound => (h link ⟨hlink, hbound⟩).imp id fun henq =>
          ⟨hdone, henq⟩,
          fun h link hlink => (h hsaves link hlink.1 hlink.2).imp id And.right⟩
      · rw [hdb]
        refine (resynced_of_lost (fun link => affected_updateForm hcount) rfl).trans ?_
        exact ⟨fun h _ link hlink hbound => Or.inl (h link ⟨hlink, hbound⟩),
          fun h link hlink => (h hsaves link hlink.1 hlink.2).resolve_right fun henq =>
            hlost henq.1⟩

private theorem resynced_roleConfigSave {roleId : Text} {body : RoleConfigBody} :
    (ChangeRequest.roleConfigSave roleId body).Resynced d
        ((ChangeRequest.roleConfigSave roleId body).leaves libs weather guildId d) ↔
      (ChangeRequest.roleConfigSave roleId body).Requeued libs weather guildId d := by
  rw [ChangeRequest.leaves, ChangeRequest.program, ChangeRequest.Requeued, ChangeRequest.Resynced]
  rcases @db_roleConfigSave libs weather guildId d roleId body with
    ⟨hnot, hdb⟩ | ⟨parsed, settings, hsaves, hcases⟩
  · rw [hdb]
    exact iff_of_true resynced_self fun parsed hsaves => absurd ⟨parsed, hsaves⟩ hnot
  · have hother : ∀ other, SavesLink libs weather d guildId roleId body other → other = parsed :=
      fun other h => Option.some.inj (h.1.symm.trans hsaves.1)
    rcases hcases with ⟨hdone, hdb⟩ | ⟨hlost, hdb⟩
    · rw [hdb]
      refine (resynced_of_done (fun link => RoleLink.affected_jobs.trans affected_saved)
        fun key => configPending_resynced).trans ?_
      constructor
      · intro h other hsaves' link hlink hgone
        obtain rfl := hother other hsaves'
        exact (h link ⟨hlink, hgone⟩).imp id fun henq => ⟨hdone, henq.2⟩
      · intro h link ⟨hlink, hgone⟩
        exact (h parsed hsaves link hlink hgone).imp id fun henq =>
          ⟨key_of_notMem_saved hlink hgone, henq.2⟩
    · rw [hdb]
      refine (resynced_of_lost (fun link => affected_saved) rfl).trans ?_
      constructor
      · intro h other hsaves' link hlink hgone
        obtain rfl := hother other hsaves'
        exact Or.inl (h link ⟨hlink, hgone⟩)
      · intro h link ⟨hlink, hgone⟩
        exact (h parsed hsaves link hlink hgone).resolve_right fun henq => hlost henq.1

private theorem resynced_deleteResponse {responseId : Text} :
    (ChangeRequest.deleteResponse formId responseId).Resynced d
        ((ChangeRequest.deleteResponse formId responseId).leaves libs weather guildId d) ↔
      (ChangeRequest.deleteResponse formId responseId).Requeued libs weather guildId d := by
  rw [ChangeRequest.leaves, ChangeRequest.program, ChangeRequest.Requeued, ChangeRequest.Resynced]
  have hself : ∀ row ∈ d.responses.rows, row ∉ d.responses.rows →
      PlayerPending row.discordId d.jobs :=
    fun row hrow hgone => absurd hrow hgone
  cases hid : libs.parseUuid formId with
  | none =>
    have hdb : ((deleteResponse libs guildId formId responseId).exec weather ⟨d, none, 0⟩).2.db =
        d := by
      simp only [deleteResponse, formUuid, hid, throw_bind, exec_throw]
    rw [hdb]
    exact iff_of_true hself (fun u hu => (by cases hu))
  | some u =>
    simp only [Option.some.injEq, forall_eq']
    cases hr : libs.parseUuid responseId with
    | none =>
      have hdb : ((deleteResponse libs guildId formId responseId).exec weather ⟨d, none, 0⟩).2.db =
          d := by
        simp only [deleteResponse, formUuid, hid, hr, pure_bind, exec_throw]
      rw [hdb]
      exact iff_of_true hself (fun _ row _ hrow => (by cases hrow))
    | some r =>
      by_cases hfound : ∃ row ∈ d.responses.rows, row.id = r ∧ row.formId = formId
      swap
      · rw [db_deleteResponse_of_missing hid hr hfound]
        exact iff_of_true hself fun _ row hrow hrowId hform =>
          absurd ⟨row, hrow, (Option.some.inj hrowId).symm, hform⟩ hfound
      obtain ⟨row, hrow, rfl, hform⟩ := hfound
      -- only this row goes
      have honly : ∀ other ∈ d.responses.rows, other.id = row.id → other = row :=
        fun other hother hkey => Table.eq_of_key hother hrow hkey
      have hgone : ∀ other ∈ d.responses.rows,
          other ∉ (d.responses.delete fun x => x.id = row.id ∧ x.formId = formId).rows ↔
              other = row := by
        intro other hother
        rw [Table.mem_delete, not_and, Bool.not_eq_false]
        constructor
        · exact fun h => honly other hother (of_decide_eq_true (h hother)).1
        · rintro rfl -
          exact decide_eq_true ⟨rfl, hform⟩
      rcases @db_deleteResponse libs weather guildId formId u d responseId row hid hr hrow
          hform with
        ⟨hnot, hdb⟩ | ⟨hdeletes, hdone, hdb⟩ | ⟨hdeletes, hlost, hdb⟩
      · rw [hdb]
        exact iff_of_true hself fun hdeletes => absurd hdeletes hnot
      · rw [hdb]
        refine iff_of_true (fun other hother hmissing => ?_) fun _ _ _ _ _ => Or.inr hdone
        obtain rfl := (hgone other hother).1 hmissing
        exact pending_enqueue.2 (Or.inr ⟨rfl, rfl⟩)
      · rw [hdb]
        constructor
        · intro h _ other hother hkey _
          obtain rfl := honly other hother (Option.some.inj hkey).symm
          exact Or.inl (h other hother ((hgone other hother).2 rfl))
        · intro h other hother hmissing
          obtain rfl := (hgone other hother).1 hmissing
          exact (h hdeletes other hother rfl hform).resolve_right hlost

end

private theorem playerPending_enqueueJobs {libs : SubmitLibs} {tx : SubmitTx} {form : Form}
    {g : Graded} {responseId : Text} {jobsNow : Instant} {t : JobTable} :
    PlayerPending tx.submission.discordId (enqueueJobs libs tx form g responseId jobsNow t) := by
  have hplayer : PlayerPending tx.submission.discordId
      (t.enqueue tx.startedAt .playerSync
          (PlayerSyncPayload.updated tx.submission.discordId).toValue 0) :=
    pending_enqueue.2 (Or.inr ⟨rfl, rfl⟩)
  rw [enqueueJobs]
  cases form.webhookUrl with
  | none => exact hplayer
  | some url =>
    simp only
    split
    · exact hplayer
    · exact pending_enqueue.2 (Or.inl hplayer)

/-- A submit changes the responses in its `COMMIT` only, and with them goes the job of its
member. -/
theorem submit_requeued {libs : SubmitLibs} {s s' : SubmitState} {e : SubmitEvent}
    (h : (submitSystem libs).step s e = some s') :
    s'.responses = s.responses ∨ ∃ tx ∈ s.transactions,
      (∃ others, commitTx libs s others tx = some s') ∧
      PlayerPending tx.submission.discordId s'.jobs := by
  rcases submitStep_cases h with ⟨hresponses, -⟩ | ⟨tx, htx, others, hcommit, -⟩
  · exact Or.inl hresponses
  · refine Or.inr ⟨tx, htx, ⟨others, hcommit⟩, ?_⟩
    rw [commitTx] at hcommit
    split at hcommit
    · obtain ⟨responses, -, rfl⟩ := Option.map_eq_some_iff.1 hcommit
      exact playerPending_enqueueJobs
    · cases hcommit

/-- What a submit commits has its job in any case.  What an admin handler commits has its jobs
exactly if each of them was pending before, or its own statement is reached and carried out. -/
theorem changes_requeued (libs : AdminLibs) (weather : Weather) (guildId : Text) (d : Database)
    (req : ChangeRequest) :
    (∀ (submitLibs : SubmitLibs) (s s' : SubmitState) (e : SubmitEvent),
      (submitSystem submitLibs).step s e = some s' →
      s'.responses = s.responses ∨ ∃ tx ∈ s.transactions,
        (∃ others, commitTx submitLibs s others tx = some s') ∧
        PlayerPending tx.submission.discordId s'.jobs) ∧
    (req.Resynced d (req.leaves libs weather guildId d) ↔ req.Requeued libs weather guildId d) := by
  refine ⟨fun submitLibs s s' e h => submit_requeued h, ?_⟩
  cases req with
  | deleteResponse formId responseId => exact resynced_deleteResponse
  | deleteAllResponses formId => exact resynced_deleteAllResponses
  | deleteForm formId => exact resynced_deleteForm
  | updateForm formId body => exact resynced_updateForm
  | roleConfigSave roleId body => exact resynced_roleConfigSave

/-- In calm weather the deletion of the form has its job. -/
theorem changes_requeued_survey :
    (ChangeRequest.deleteForm surveyId.text).Resynced surveyDatabase
      ((ChangeRequest.deleteForm surveyId.text).leaves plainAdminLibs (calm fun _ => 0)
        ['g'] surveyDatabase) := by
  refine (changes_requeued plainAdminLibs (calm fun _ => 0) ['g'] surveyDatabase
    (.deleteForm surveyId.text)).2.2 ?_
  intro u hu hdeletes link hlink hbound
  refine Or.inr ⟨rfl, 0, ?_, rfl⟩
  rw [List.mem_singleton.1 hlink]
  decide +kernel

/-- The process is killed after the `COMMIT`. -/
def killedAfterCommit : Weather := ⟨fun _ => 0, fun n => if n < 7 then .done else .failed []⟩

/-- The form and its response are gone, and the link that granted roles on it has no job. -/
theorem not_changes_requeued :
    ¬(ChangeRequest.deleteForm surveyId.text).Resynced surveyDatabase
      ((ChangeRequest.deleteForm surveyId.text).leaves plainAdminLibs killedAfterCommit
        ['g'] surveyDatabase) := by
  intro h
  have hform : surveyDatabase.form? surveyId ['g'] =
      some { id := surveyId, guildId := ['g'], slug := ['s'], title := ['t'],
             schema := .object [] } := rfl
  have hdeletes : DeletesForm killedAfterCommit surveyDatabase surveyId ['g'] :=
    ⟨by rw [hform]; rfl, fun n hn => if_pos (by omega), rfl⟩
  have hid : plainAdminLibs.parseUuid surveyId.text = some surveyId :=
    Uuid.parseHyphenated_text surveyId
  obtain ⟨hnot, -⟩ | ⟨-, -, hdb⟩ | ⟨-, hlost, -⟩ :=
    @db_deleteForm plainAdminLibs killedAfterCommit ['g'] surveyId.text surveyId surveyDatabase hid
  · exact absurd hdeletes hnot
  swap
  · exact absurd rfl hlost
  have haffected : RoleLink.Affected { guildId := ['g'], roleId := ['r'], apiToken := ['k'],
                                       formId := some surveyId.text }
      surveyDatabase ((ChangeRequest.deleteForm surveyId.text).leaves plainAdminLibs
          killedAfterCommit ['g'] surveyDatabase) := by
    rw [ChangeRequest.leaves, ChangeRequest.program, hdb]
    exact RoleLink.affected_jobs.2
      ((affected_deleteForm hform).2 ⟨List.mem_singleton_self _, Or.inl rfl⟩)
  obtain ⟨row, hrow, -⟩ := h _ haffected
  have hnone : ((ChangeRequest.deleteForm surveyId.text).leaves plainAdminLibs killedAfterCommit
    ['g']
      surveyDatabase).jobs.rows.length = 0 := by decide +kernel
  rw [List.length_eq_zero_iff.1 hnone] at hrow
  exact List.not_mem_nil hrow

end FormRespondentRole
