import FormRespondentRole.ServiceSubmits
import FormRespondentRole.StoredForms

/-!
# The jobs of accepted submits

A submit enqueues its jobs in the transaction of its response, and no other statement of the service
enqueues a webhook. So the webhooks that have been enqueued are those of the accepted submits, one
for each whose form has a URL, in the order of their commits, and each accepted submit has its
member's sync enqueued (`Enqueued`).
-/

namespace FormRespondentRole

open Foundations

namespace JobTable

/-- The payloads of the jobs of a kind, in the order in which they were enqueued. -/
def payloads (kind : JobKind) (t : JobTable) : List Value :=
  (t.rows.filter (·.kind = kind.asStr)).map (·.payload)

variable {t : JobTable} {now : Instant} {kind kind' : JobKind} {payload : Value} {delaySecs : Nat}

private theorem payloads_enqueue_self :
    (t.enqueue now kind payload delaySecs).payloads kind = t.payloads kind ++ [payload] := by
  rw [payloads, payloads, enqueue, Table.insert_rows, List.filter_append, List.map_append,
    List.filter_cons_of_pos (by simp)]
  rfl

private theorem payloads_enqueue_of_ne (h : kind' ≠ kind) :
    (t.enqueue now kind' payload delaySecs).payloads kind = t.payloads kind := by
  have hstr : kind'.asStr ≠ kind.asStr := by
    intro heq
    have hkinds : some kind' = some kind := by rw [← JobKind.fromDb_asStr, heq,
      JobKind.fromDb_asStr]
    exact h (Option.some.inj hkinds)
  rw [payloads, payloads, enqueue, Table.insert_rows, List.filter_append,
    List.filter_cons_of_neg (by simpa using hstr),
    List.filter_nil, List.append_nil]

theorem mem_enqueue {row : JobRow} : row ∈ (t.enqueue now kind payload delaySecs).rows ↔
    row ∈ t.rows ∨
    row = { id := t.nextId, kind := kind.asStr, payload := payload,
            nextRunAt := now + seconds delaySecs } :=
  List.mem_append.trans (or_congr_right List.mem_singleton)

end JobTable

/-! ### The jobs of one submit -/

/-- The job is a sync of a member or of a link. -/
inductive IsSync (kind : Text) (payload : Value) : Prop
  | player (p : PlayerSyncPayload) (hkind : kind = JobKind.playerSync.asStr)
  (h : payload = p.toValue)
  | config (guildId roleId : Text) (hkind : kind = JobKind.configSync.asStr)
    (h : payload = configSyncPayload guildId roleId)

/-- The form has a URL that its submits are sent to. -/
def Form.hooked (form : Form) : Bool := form.webhookUrl.any fun url => !(Text.trim url).isEmpty

def webhookJob (libs : SubmitLibs) (form : Form) (submission : Submission) (g : Graded)
    (responseId : Text) (jobsNow : Instant) (url : Text) : Value :=
  .object [("body".toList,
    buildPayload libs.toRfc3339 jobsNow form submission responseId libs.baseUrl g.totalScore),
    ("url".toList, .string url)]

/-- The webhook of an accepted submit. -/
def IsWebhookOf (libs : SubmitLibs) (a : Accepted) (payload : Value) : Prop :=
  ∃ url responseId jobsNow, a.form.webhookUrl = some url ∧
    payload = webhookJob libs a.form a.submission a.graded responseId jobsNow url

section

variable {libs : SubmitLibs} {tx : SubmitTx} {form : Form} {g : Graded} {responseId : Text}
  {jobsNow : Instant} {t : JobTable}

private theorem playerSyncs_enqueueJobs :
    (enqueueJobs libs tx form g responseId jobsNow t).payloads .playerSync =
    t.payloads .playerSync ++ [(PlayerSyncPayload.updated tx.submission.discordId).toValue] := by
  unfold enqueueJobs
  dsimp only
  split
  · exact JobTable.payloads_enqueue_self
  · split
    · exact JobTable.payloads_enqueue_self
    · rw [JobTable.payloads_enqueue_of_ne (by simp)]
      exact JobTable.payloads_enqueue_self

private theorem webhooks_enqueueJobs :
    (enqueueJobs libs tx form g responseId jobsNow t).payloads .webhook =
    t.payloads .webhook ++ ((form.webhookUrl.filter fun url => !(Text.trim url).isEmpty).map
      (webhookJob libs form tx.submission g responseId jobsNow)).toList := by
  have hsync : ∀ payload, (t.enqueue tx.startedAt .playerSync payload 0).payloads .webhook =
      t.payloads .webhook :=
    fun _ => JobTable.payloads_enqueue_of_ne (by simp)
  unfold enqueueJobs
  dsimp only
  split
  · rename_i hnone
    rw [hsync, hnone]
    exact (List.append_nil _).symm
  · rename_i url hurl
    rw [hurl]
    by_cases hblank : (Text.trim url).isEmpty = true
    · rw [if_pos hblank, hsync, Option.filter_some_neg (by simp [hblank])]
      exact (List.append_nil _).symm
    · rw [if_neg hblank, JobTable.payloads_enqueue_self, hsync,
        Option.filter_some_pos (by simp [hblank])]
      rfl

theorem mem_enqueueJobs {row : JobRow}
    (h : row ∈ (enqueueJobs libs tx form g responseId jobsNow t).rows) :
    row ∈ t.rows ∨ IsSync row.kind row.payload ∨ ∃ url, form.webhookUrl = some url ∧
      row.kind = JobKind.webhook.asStr ∧
      row.payload = webhookJob libs form tx.submission g responseId jobsNow url := by
  have hsync : ∀ row ∈
    (t.enqueue tx.startedAt .playerSync
      (PlayerSyncPayload.updated tx.submission.discordId).toValue 0).rows,
      row ∈ t.rows ∨ IsSync row.kind row.payload := by
    intro row hrow
    rcases JobTable.mem_enqueue.1 hrow with hrow | rfl
    · exact Or.inl hrow
    · exact Or.inr (.player (.updated tx.submission.discordId) rfl rfl)
  unfold enqueueJobs at h
  dsimp only at h
  split at h
  · exact (hsync row h).imp_right Or.inl
  · rename_i url hurl
    split at h
    · exact (hsync row h).imp_right Or.inl
    · rcases JobTable.mem_enqueue.1 h with h | rfl
      · exact (hsync row h).imp_right Or.inl
      · exact Or.inr (Or.inr ⟨url, hurl, rfl, rfl⟩)

end

/-! ### Steps of the service -/

/-- The webhooks stay, and syncs may come in. -/
structure Database.AddsSyncs (d d' : Database) : Prop where
  webhooks : d'.jobs.payloads .webhook = d.jobs.payloads .webhook
  playerSyncs : ∃ syncs, d'.jobs.payloads .playerSync = d.jobs.payloads .playerSync ++ syncs
  rows : ∀ row ∈ d'.jobs.rows, row ∈ d.jobs.rows ∨ IsSync row.kind row.payload

theorem Database.AddsSyncs.of_eq {d d' : Database} (h : d'.jobs = d.jobs) : d.AddsSyncs d' := by
  constructor
  · rw [h]
  · exact ⟨[], by rw [h, List.append_nil]⟩
  · rw [h]
    exact fun row hrow => Or.inl hrow

/-- No statement of a request enqueues a webhook. -/
theorem statementRelation_addsSyncs : StatementRelation (fun _ => True) Database.AddsSyncs where
  refl d := .of_eq rfl
  trans d d' d'' h h' := by
    obtain ⟨syncs, hsyncs⟩ := h.playerSyncs
    obtain ⟨syncs', hsyncs'⟩ := h'.playerSyncs
    refine ⟨h'.webhooks.trans h.webhooks,
      ⟨syncs ++ syncs', by rw [hsyncs', hsyncs, List.append_assoc]⟩, fun row hrow => ?_⟩
    rcases h'.rows row hrow with hrow | hsync
    · exact h.rows row hrow
    · exact Or.inr hsync
  calls c _ d rows now := by
    cases c with
    | enqueuePlayerSync payload =>
      refine ⟨JobTable.payloads_enqueue_of_ne (by simp),
        ⟨[payload.toValue], JobTable.payloads_enqueue_self⟩, fun row hrow => ?_⟩
      rcases JobTable.mem_enqueue.1 hrow with hrow | rfl
      · exact Or.inl hrow
      · exact Or.inr (.player payload rfl rfl)
    | enqueueConfigSync guildId roleId =>
      refine ⟨JobTable.payloads_enqueue_of_ne (by simp), ⟨[], ?_⟩, fun row hrow => ?_⟩
      · exact (JobTable.payloads_enqueue_of_ne (by simp)).trans (List.append_nil _).symm
      · rcases JobTable.mem_enqueue.1 hrow with hrow | rfl
        · exact Or.inl hrow
        · exact Or.inr (.config guildId roleId rfl rfl)
    | insertForm form =>
      refine .of_eq ?_
      dsimp only [Database.effectOn, Database.effect]
      split
      · split <;> rfl
      · rfl
    | _ => exact .of_eq rfl

section

variable {libs : AdminLibs} {submitLibs : SubmitLibs} {s s' t : Service} {e : ServiceEvent}

/-- A step of a submit enqueues the jobs of the submit that it accepts, or none. -/
theorem jobs_of_submitStep {e : SubmitEvent} {s s' : SubmitState}
    (hstep : submitStep submitLibs s e = some s') :
    s'.jobs = s.jobs ∧ s'.accepted = s.accepted ∨
      ∃ tx ∈ s.transactions, ∃ a responseId jobsNow, tx.form? = some a.form ∧
        a.submission = tx.submission ∧
        s'.accepted = a :: s.accepted ∧
          s'.jobs = enqueueJobs submitLibs tx a.form a.graded responseId jobsNow s.jobs := by
  cases e with
  | begin submission now =>
    simp only [submitStep, Option.some.injEq] at hstep
    subst hstep
    exact Or.inl ⟨rfl, rfl⟩
  | advance i txe =>
    simp only [submitStep, Option.bind_eq_some_iff, Option.map_eq_some_iff] at hstep
    obtain ⟨⟨pre, tx, post⟩, -, next, -, rfl⟩ := hstep
    exact Or.inl ⟨rfl, rfl⟩
  | commit i =>
    simp only [submitStep, Option.bind_eq_some_iff] at hstep
    obtain ⟨⟨pre, tx, post⟩, hparty, hcommit⟩ := hstep
    unfold commitTx at hcommit
    split at hcommit
    · rename_i form now g write newId jobsNow hphase
      obtain ⟨t', -, rfl⟩ := Option.map_eq_some_iff.1 hcommit
      exact Or.inr ⟨tx, mem_of_partyAt hparty, _, _, jobsNow,
        by rw [SubmitTx.form?, hphase], rfl, rfl, rfl⟩
    · cases hcommit
  | abort i =>
    simp only [submitStep, Option.map_eq_some_iff] at hstep
    obtain ⟨⟨pre, tx, post⟩, -, rfl⟩ := hstep
    exact Or.inl ⟨rfl, rfl⟩
  | editForm form =>
    simp only [submitStep, Option.ite_none_right_eq_some, Option.some.injEq] at hstep
    obtain ⟨-, rfl⟩ := hstep
    exact Or.inl ⟨rfl, rfl⟩

/-- A step of the service is one of a submit, or enqueues syncs at most. -/
theorem jobs_of_serviceStep (hstep : serviceStep libs submitLibs s e = some s') :
    (∃ e state, submitStep submitLibs s.submitState e = some state ∧ s' = s.withSubmitState state) ∨
      s.db.AddsSyncs s'.db ∧ s'.accepted = s.accepted := by
  have hrefl : s.db.AddsSyncs s.db := .of_eq rfl
  cases e with
  | submit e =>
    rw [serviceStep] at hstep
    split at hstep
    · cases hstep
    · obtain ⟨state, hstate, rfl⟩ := Option.map_eq_some_iff.1 hstep
      exact Or.inl ⟨e, state, hstate, rfl⟩
  | request guildId req =>
    obtain rfl := Option.some.inj hstep
    exact Or.inr ⟨hrefl, rfl⟩
  | start i =>
    simp only [serviceStep, Option.bind_eq_some_iff, Option.map_eq_some_iff] at hstep
    obtain ⟨-, -, conn, -, rfl⟩ := hstep
    exact Or.inr ⟨hrefl, rfl⟩
  | finish i outcome now =>
    simp only [serviceStep, Option.bind_eq_some_iff, Option.ite_none_left_eq_some,
      Option.map_eq_some_iff] at hstep
    obtain ⟨⟨pre, task, post⟩, -, -, ⟨conn, d'⟩, hfinish, rfl⟩ := hstep
    have hwithin : task.conn.Within fun _ => True :=
      ⟨Program.asks_of_forall (fun _ => trivial) _, fun _ _ _ _ => trivial⟩
    exact Or.inr ⟨(hwithin.finish statementRelation_addsSyncs hfinish).2, rfl⟩
  | close i =>
    simp only [serviceStep, Option.map_eq_some_iff] at hstep
    obtain ⟨-, -, rfl⟩ := hstep
    exact Or.inr ⟨hrefl, rfl⟩
  | link c =>
    simp only [serviceStep] at hstep
    split at hstep
    · cases hstep
    · obtain rfl := Option.some.inj hstep
      refine Or.inr ⟨.of_eq ?_, rfl⟩
      cases c with
      | register guildId roleId apiToken =>
        dsimp only [Database.link]
        split <;> rfl
      | insertSettings guildId =>
        dsimp only [Database.link]
        split <;> rfl
      | _ => rfl

/-! ### Runs -/

/-- What has been enqueued since some moment for the submits accepted since then, the newest
first. -/
structure Enqueued (libs : SubmitLibs) (start now : JobTable)
    (accepted : List Accepted) : Prop where
  webhooks : ∃ hooks, now.payloads .webhook = start.payloads .webhook ++ hooks ∧
    List.Forall₂ (IsWebhookOf libs) (accepted.reverse.filter fun a => a.form.hooked) hooks
  syncs : ∃ syncs, now.payloads .playerSync = start.payloads .playerSync ++ syncs ∧
    (accepted.reverse.map fun a =>
      (PlayerSyncPayload.updated a.submission.discordId).toValue).Sublist syncs

theorem Enqueued.nil (t : JobTable) : Enqueued submitLibs t t [] :=
  ⟨⟨[], (List.append_nil _).symm, .nil⟩, ⟨[], (List.append_nil _).symm, List.Sublist.refl _⟩⟩

theorem Enqueued.keeps {start now now' : JobTable} {accepted : List Accepted}
    (h : Enqueued submitLibs start now accepted)
    (hpayloads : ∀ kind, now'.payloads kind = now.payloads kind) :
    Enqueued submitLibs start now' accepted :=
  ⟨(hpayloads .webhook).symm ▸ h.webhooks, (hpayloads .playerSync).symm ▸ h.syncs⟩

theorem Enqueued.resync {start now : JobTable} {accepted : List Accepted} {runAt : Instant}
    {payload : Value} {delaySecs : Nat} (h : Enqueued submitLibs start now accepted) :
    Enqueued submitLibs start (now.enqueue runAt .configSync payload delaySecs) accepted := by
  obtain ⟨⟨hooks, hhooks, hforall⟩, ⟨syncs, hsyncs, hsub⟩⟩ := h
  exact ⟨⟨hooks, (JobTable.payloads_enqueue_of_ne (by simp)).trans hhooks, hforall⟩,
    ⟨syncs, (JobTable.payloads_enqueue_of_ne (by simp)).trans hsyncs, hsub⟩⟩

/-- Another submit is accepted. -/
theorem Enqueued.submit {start now : JobTable} {accepted : List Accepted}
    (h : Enqueued submitLibs start now accepted) {tx : SubmitTx} {a : Accepted} {responseId : Text}
    {jobsNow : Instant} (hsubmission : a.submission = tx.submission) :
    Enqueued submitLibs start (enqueueJobs submitLibs tx a.form a.graded responseId jobsNow now)
    (a :: accepted) := by
  obtain ⟨hooks, hhooks, hforall⟩ := h.webhooks
  obtain ⟨syncs, hsyncs, hsub⟩ := h.syncs
  constructor
  · refine ⟨_, by rw [webhooks_enqueueJobs, hhooks, List.append_assoc], ?_⟩
    rw [List.reverse_cons, List.filter_append]
    refine List.rel_append hforall ?_
    cases hurl : a.form.webhookUrl with
    | none =>
      rw [List.filter_cons_of_neg (by simp [Form.hooked, hurl]), Option.filter_none]
      exact .nil
    | some url =>
      by_cases hblank : (Text.trim url).isEmpty = true
      · rw [List.filter_cons_of_neg (by simp [Form.hooked, hurl, hblank]),
          Option.filter_some_neg (by simp [hblank])]
        exact .nil
      · rw [List.filter_cons_of_pos (by simp [Form.hooked, hurl, hblank]),
          Option.filter_some_pos (by simp [hblank])]
        exact .cons ⟨url, responseId, jobsNow, hurl, by rw [hsubmission]⟩ .nil
  · refine ⟨_, by rw [playerSyncs_enqueueJobs, hsyncs, List.append_assoc], ?_⟩
    rw [List.reverse_cons, List.map_append, List.map_singleton, hsubmission]
    exact hsub.append (List.Sublist.refl _)

theorem enqueued_step {start : JobTable} {old new : List Accepted} (hnew : s.accepted = new ++ old)
    (h : Enqueued submitLibs start s.db.jobs new)
    (hstep : serviceStep libs submitLibs s e = some s') :
    ∃ new', s'.accepted = new' ++ old ∧ Enqueued submitLibs start s'.db.jobs new' := by
  rcases jobs_of_serviceStep hstep with ⟨e, state, hstate, rfl⟩ |
    ⟨⟨hhooks, ⟨more, hmore⟩, -⟩, haccepted⟩
  · rcases jobs_of_submitStep hstate with ⟨hjobs, haccepted⟩ |
      ⟨tx, -, a, responseId, jobsNow, -, hsubmission, haccepted, hjobs⟩
    · refine ⟨new, haccepted.trans hnew, ?_⟩
      change Enqueued submitLibs start state.jobs new
      rw [hjobs]
      exact h
    · refine ⟨a :: new, haccepted.trans (congrArg (a :: ·) hnew), ?_⟩
      change Enqueued submitLibs start state.jobs _
      rw [hjobs]
      exact h.submit hsubmission
  · obtain ⟨hooks, heq, hforall⟩ := h.webhooks
    obtain ⟨syncs, heq', hsub⟩ := h.syncs
    refine ⟨new, haccepted.trans hnew, ⟨hooks, hhooks.trans heq, hforall⟩, syncs ++ more, ?_, ?_⟩
    · rw [hmore, heq', List.append_assoc]
    · exact hsub.trans (List.sublist_append_left _ _)

end

end FormRespondentRole
