import FormRespondentRole.JobAttempts
import FormRespondentRole.JobRows
import FormRespondentRole.Outbox

/-!
# Deliveries

The service together with the workers of its jobs, at one table of jobs: handlers enqueue, workers
claim, retry, reap and die at any time.  The webhook jobs stay those of the accepted submits, one
for each in the order of the commits (`jobs_of_accepted`); and what a worker holds is a job that it
can read, a webhook of an accepted submit to a safe URL if it is one
(`held_jobs_rightful`). -/

namespace FormRespondentRole

open Foundations

/-- The service with the workers of its jobs. -/
structure Deployment where
  service : Service
  now : Instant
  workers : List Worker

namespace Deployment

def fleet (s : Deployment) : Fleet := ⟨s.now, s.service.db.jobs, s.workers⟩

def withFleet (s : Deployment) (fleet : Fleet) : Deployment :=
  ⟨{ s.service with db := { s.service.db with jobs := fleet.jobs } }, fleet.now, fleet.workers⟩

end Deployment

inductive DeploymentEvent
  | service (e : ServiceEvent)
  /-- A step of the fleet other than an `enqueue`. -/
  | fleet (e : FleetEvent)
  /-- The backfill enqueues a sync of a link, or a sync of a link whose write is held does, unless
  one is queued. -/
  | resync (guildId roleId : Text) (delaySecs : Nat)

def FleetEvent.enqueues : FleetEvent → Bool
  | enqueue .. => true
  | _ => false

def deploymentStep (libs : AdminLibs) (submitLibs : SubmitLibs) (serdeError : Value → Text)
    (s : Deployment) :
    DeploymentEvent → Option Deployment
  | .service e => (serviceStep libs submitLibs s.service e).map fun service =>
  { s with service := service }
  | .fleet e => if e.enqueues then none else (fleetStep serdeError s.fleet e).map s.withFleet
  | .resync guildId roleId delaySecs =>
    (fleetStep serdeError s.fleet
      (.enqueue .configSync (configSyncPayload guildId roleId) delaySecs)).map s.withFleet

def deploymentSystem (libs : AdminLibs) (submitLibs : SubmitLibs) (serdeError : Value → Text) :
    System Deployment DeploymentEvent := ⟨deploymentStep libs submitLibs serdeError⟩

/-! ### What a step of the fleet leaves -/

namespace JobTable

variable {t : JobTable} {now : Instant} {kind : JobKind}

private theorem payloads_update {p : JobRow → Bool} {c : SetClause JobRow.id}
    (h : ∀ row : JobRow, row.Same (c.set row)) :
    (t.update p c).payloads kind = t.payloads kind := by
  have hset : ∀ row : JobRow, row.Same (if p row then c.set row else row) := by
    intro row
    split
    · exact h row
    · exact JobRow.Same.refl row
  change ((t.rows.map fun row => if p row then c.set row else row).filter _).map _ = _
  rw [payloads, List.filter_map, List.map_map]
  have hkinds : ((fun row : JobRow => decide (row.kind = kind.asStr)) ∘ fun row => if p row then
    c.set row else row) =
      fun row => decide (row.kind = kind.asStr) := by
    funext row
    exact congrArg (fun k => decide (k = kind.asStr)) (hset row).kind
  have hpayloads : (JobRow.payload ∘ fun row => if p row then c.set row else row) =
      JobRow.payload := by
    funext row
    exact (hset row).payload
  rw [hkinds, hpayloads]

/-- The rows keep their jobs, in their order. -/
structure Keeps (t t' : JobTable) : Prop where
  payloads : ∀ kind, t'.payloads kind = t.payloads kind
  rows : ∀ row' ∈ t'.rows, ∃ row ∈ t.rows, row.Same row'

theorem Keeps.refl (t : JobTable) : t.Keeps t :=
  ⟨fun _ => rfl, fun row hrow => ⟨row, hrow, JobRow.Same.refl row⟩⟩

private theorem keeps_call {c : JobCall} (h : c.enqueues = false) : t.Keeps (t.call now c) := by
  rcases call_cases t now c with ⟨kind, payload, delaySecs, rfl⟩ | ⟨p, s, hcall, hs⟩
  · cases h
  · rw [hcall]
    refine ⟨fun kind => payloads_update fun row => (hs row).2, fun row' hrow' => ?_⟩
    obtain ⟨row, hrow, rfl⟩ := Table.mem_update.1 hrow'
    refine ⟨row, hrow, ?_⟩
    split
    · exact (hs row).2
    · exact JobRow.Same.refl row

end JobTable

private theorem jobs_nextPhase (claimedAt : Instant) (rest : List Job) :
    (nextPhase claimedAt rest).jobs = rest := by
  cases rest <;> rfl

/-- The jobs that a worker comes to hold are those of rows. -/
theorem jobs_workerStep {serdeError : Value → Text} {now : Instant} {t t' : JobTable}
    {w w' : Worker} {e : WorkerEvent} (h : workerStep serdeError now t w e = some (t', w')) :
    ∀ job ∈ w'.phase.jobs, job ∈ w.phase.jobs ∨ ∃ row ∈ t.rows, row.kind = job.kind ∧
      row.payload = job.payload := by
  cases e with
  | check =>
    obtain ⟨-, h⟩ := workerStep_check.1 h
    cases h
    intro job hjob
    rw [Worker.goto_phase] at hjob
    split at hjob
    · exact absurd hjob List.not_mem_nil
    · split at hjob <;> exact absurd hjob List.not_mem_nil
  | reap succeeds =>
    obtain ⟨-, h⟩ := workerStep_reap.1 h
    cases h
    exact fun job hjob => absurd hjob List.not_mem_nil
  | claim skipped rank =>
    obtain ⟨-, h⟩ := workerStep_claim.1 h
    cases h
    intro job hjob
    have hclaimed : job ∈ (t.claimBatch now w.workerId batchSize skipped rank).1 := by
      rw [Worker.goto_phase] at hjob
      cases hbatch : (t.claimBatch now w.workerId batchSize skipped rank).1 with
      | nil =>
        rw [hbatch] at hjob
        exact absurd hjob List.not_mem_nil
      | cons first rest =>
        rw [hbatch] at hjob
        exact hjob
    obtain ⟨row, hrow, -, -, -, rfl⟩ := JobTable.exists_of_mem_claimBatch hclaimed
    exact Or.inr ⟨row, hrow, rfl, rfl⟩
  | claimFails =>
    obtain ⟨-, h⟩ := workerStep_claimFails.1 h
    cases h
    exact fun job hjob => absurd hjob List.not_mem_nil
  | wake =>
    obtain ⟨_, _, -, -, h⟩ := workerStep_wake.1 h
    cases h
    exact fun job hjob => absurd hjob List.not_mem_nil
  | wakeForShutdown =>
    obtain ⟨_, _, -, -, h⟩ := workerStep_wakeForShutdown.1 h
    cases h
    exact fun job hjob => absurd hjob List.not_mem_nil
  | next =>
    obtain ⟨_, _, _, hphase, h⟩ := workerStep_next.1 h
    cases h
    rw [hphase]
    exact fun job hjob => Or.inl hjob
  | returned result =>
    obtain ⟨_, _, _, _, hphase, -, h⟩ := workerStep_returned.1 h
    cases h
    rw [hphase]
    exact fun job hjob => Or.inl hjob
  | settle succeeds jitterMs =>
    obtain ⟨claimedAt, _, job, rest, hphase, h⟩ := workerStep_settle.1 h
    cases h
    rw [hphase, Worker.goto_phase, jobs_nextPhase]
    exact fun job' hjob' => Or.inl (List.mem_cons_of_mem _ hjob')
  | release succeeds jitterMs =>
    obtain ⟨claimedAt, job, rest, hphase, h⟩ := workerStep_release.1 h
    cases h
    rw [hphase, Worker.goto_phase, jobs_nextPhase]
    exact fun job' hjob' => Or.inl (List.mem_cons_of_mem _ hjob')

/-- A step of the fleet that is not an `enqueue`: the rows keep their jobs, and what a worker comes
to hold is the job of a row. -/
theorem keeps_fleetStep {serdeError : Value → Text} {s s' : Fleet} {e : FleetEvent}
    (henqueues : e.enqueues = false) (hstep : fleetStep serdeError s e = some s') :
    s.jobs.Keeps s'.jobs ∧ ∀ w' ∈ s'.workers, ∀ job ∈ w'.phase.jobs,
      (∃ w ∈ s.workers, job ∈ w.phase.jobs) ∨ ∃ row ∈ s.jobs.rows, row.kind = job.kind ∧
        row.payload = job.payload := by
  have hsame : ∀ w' ∈ s.workers, ∀ job ∈ w'.phase.jobs, (∃ w ∈ s.workers, job ∈ w.phase.jobs) ∨
      ∃ row ∈ s.jobs.rows, row.kind = job.kind ∧ row.payload = job.payload :=
        fun w' hw' job hjob => Or.inl ⟨w', hw', hjob⟩
  cases e with
  | tick dt =>
    cases hstep
    exact ⟨.refl _, hsame⟩
  | enqueue kind payload delaySecs => cases henqueues
  | spawn workerId replica =>
    cases hstep
    refine ⟨.refl _, fun w' hw' => ?_⟩
    rcases List.mem_cons.1 hw' with rfl | hw'
    · exact fun job hjob => absurd hjob List.not_mem_nil
    · exact hsame w' hw'
  | crash i =>
    obtain ⟨pre, w, post, hworkers, -, rfl⟩ := fleetStep_crash hstep
    refine ⟨.refl _, fun w' hw' => ?_⟩
    rcases mem_middle.1 hw' with rfl | hw'
    · exact fun job hjob => absurd hjob List.not_mem_nil
    · exact hsame w' (hworkers ▸ mem_middle.2 (Or.inr hw'))
  | trigger replica =>
    cases hstep
    refine ⟨.refl _, fun w' hw' job hjob => ?_⟩
    obtain ⟨w, hw, rfl⟩ := List.mem_map.1 hw'
    refine Or.inl ⟨w, hw, ?_⟩
    split at hjob <;> exact hjob
  | worker i e =>
    obtain ⟨pre, w, post, t', w'', hworkers, -, hworker, rfl⟩ := fleetStep_worker hstep
    constructor
    · rcases workerStep_call hworker with rfl | ⟨c, hc, rfl⟩
      · exact .refl _
      · exact JobTable.keeps_call hc
    · intro w' hw' job hjob
      rcases mem_middle.1 hw' with rfl | hw'
      · rcases jobs_workerStep hworker job hjob with hold | hrow
        · exact Or.inl ⟨w, hworkers ▸ mem_middle.2 (Or.inl rfl), hold⟩
        · exact Or.inr hrow
      · exact hsame w' (hworkers ▸ mem_middle.2 (Or.inr hw')) job hjob

private theorem deploymentStep_fleet {libs : AdminLibs} {submitLibs : SubmitLibs}
    {serdeError : Value → Text} {s s' : Deployment} {e : FleetEvent}
    (hstep : deploymentStep libs submitLibs serdeError s (.fleet e) = some s') :
    s.service.db.jobs.Keeps s'.service.db.jobs ∧
      s'.service = { s.service with db := { s.service.db with jobs := s'.service.db.jobs } } ∧
      ∀ w' ∈ s'.workers, ∀ job ∈ w'.phase.jobs, (∃ w ∈ s.workers, job ∈ w.phase.jobs) ∨
        ∃ row ∈ s.service.db.jobs.rows, row.kind = job.kind ∧ row.payload = job.payload := by
  simp only [deploymentStep] at hstep
  split at hstep
  · cases hstep
  · rename_i henqueues
    obtain ⟨fleet, hfleet, rfl⟩ := Option.map_eq_some_iff.1 hstep
    obtain ⟨hkeeps, hheld⟩ := keeps_fleetStep (Bool.eq_false_iff.2 henqueues) hfleet
    exact ⟨hkeeps, rfl, hheld⟩

/-! ### Runs -/

section

variable {libs : AdminLibs} {submitLibs : SubmitLibs} {serdeError : Value → Text} {s t : Deployment}
  {es : List DeploymentEvent}

/-- In any run, whatever the workers do, the webhooks that are enqueued are those of the submits
that are accepted and whose forms have a URL, one for each in the order of the commits; and a sync
of its member is enqueued for each. -/
theorem jobs_of_accepted
    (hrun : (deploymentSystem libs submitLibs serdeError).Run (fun _ _ _ => True) s es t) :
    ∃ new, t.service.accepted = new ++ s.service.accepted ∧
      Enqueued submitLibs s.service.db.jobs t.service.db.jobs new := by
  refine hrun.invariant (P := fun t => ∃ new, t.service.accepted = new ++ s.service.accepted ∧
    Enqueued submitLibs s.service.db.jobs t.service.db.jobs new) (fun u e u' hu _ hstep => ?_)
      ⟨[], rfl, .nil _⟩
  obtain ⟨new, hnew, henqueued⟩ := hu
  cases e with
  | service e =>
    obtain ⟨service, hservice, rfl⟩ := Option.map_eq_some_iff.1 hstep
    exact enqueued_step hnew henqueued hservice
  | fleet e =>
    have hfleet : deploymentStep libs submitLibs serdeError u (.fleet e) = some u' := hstep
    obtain ⟨hkeeps, hservice, -⟩ := deploymentStep_fleet hfleet
    refine ⟨new, ?_, henqueued.keeps hkeeps.payloads⟩
    rw [hservice]
    exact hnew
  | resync guildId roleId delaySecs =>
    cases hstep
    exact ⟨new, hnew, henqueued.resync⟩

end

/-! ### What workers hold -/

/-- The job is a sync, or the webhook of an accepted submit with a safe URL. -/
inductive Rightful (x : ServiceLibs) (accepted : List Accepted) (kind : Text) (payload : Value) :
    Prop
  | sync (h : IsSync kind payload)
  | webhook (a : Accepted) (ha : a ∈ accepted) (url responseId : Text) (jobsNow : Instant)
    (hurl : a.form.webhookUrl = some url)
      (hsafe : isSafeUrl x.web url = true) (hkind : kind = JobKind.webhook.asStr)
      (h : payload = webhookJob x.submit a.form a.submission a.graded responseId jobsNow url)

section

variable {x : ServiceLibs} {accepted : List Accepted} {serdeError : Value → Text} {kind : Text}
  {payload : Value}

theorem Rightful.mono {accepted' : List Accepted} (h : Rightful x accepted kind payload)
    (hsub : accepted ⊆ accepted') :
    Rightful x accepted' kind payload := by
  cases h with
  | sync h => exact .sync h
  | webhook a ha url responseId jobsNow hurl hsafe hkind h =>
    exact .webhook a (hsub ha) url responseId jobsNow hurl hsafe hkind h

/-- A rightful job can be read. -/
theorem taskOf_rightful {job : Job} (h : Rightful x accepted job.kind job.payload) :
    ∃ task, taskOf serdeError job = .ok task ∧
    ∀ url body, task = .webhook url body → isSafeUrl x.web url = true ∧
      ∃ a ∈ accepted, a.form.webhookUrl = some url ∧
      ∃ responseId jobsNow, body =
        buildPayload x.toRfc3339 jobsNow a.form a.submission responseId x.baseUrl
          a.graded.totalScore := by
  rw [taskOf]
  cases h with
  | sync h =>
    cases h with
    | player p hkind h =>
      rw [hkind, JobKind.fromDb_asStr, h]
      dsimp only
      rw [PlayerSyncPayload.fromValue_toValue]
      exact ⟨_, rfl, fun _ _ h => by cases h⟩
    | config guildId roleId hkind h =>
      rw [hkind, JobKind.fromDb_asStr, h]
      exact ⟨_, rfl, fun _ _ h => by cases h⟩
  | webhook a ha url responseId jobsNow hurl hsafe hkind h =>
    rw [hkind, JobKind.fromDb_asStr, h]
    refine ⟨_, rfl, fun url' body htask => ?_⟩
    cases htask
    exact ⟨hsafe, a, ha, hurl, responseId, jobsNow, rfl⟩

end

/-- Every job is rightful, those of the rows and those that workers hold. -/
structure Deployment.JobsRightful (x : ServiceLibs) (s : Deployment) : Prop where
  forms : s.service.FormsSound x
  submits : s.service.SubmitsSound x.submit
  rows : ∀ row ∈ s.service.db.jobs.rows, Rightful x s.service.accepted row.kind row.payload
  held : ∀ w ∈ s.workers, ∀ job ∈ w.phase.jobs, Rightful x s.service.accepted job.kind job.payload

section

variable {x : ServiceLibs} {serdeError : Value → Text} {s s' : Service} {e : ServiceEvent}

/-- The jobs that a step of the service enqueues are rightful. -/
theorem rightful_serviceStep (hforms : s.FormsSound x) (hsubmits : s.SubmitsSound x.submit)
    (hrows : ∀ row ∈ s.db.jobs.rows, Rightful x s.accepted row.kind row.payload)
    (hstep : serviceStep x.admin x.submit s e = some s') :
    s.accepted ⊆ s'.accepted ∧ ∀ row ∈ s'.db.jobs.rows,
      Rightful x s'.accepted row.kind row.payload := by
  rcases jobs_of_serviceStep hstep with ⟨e, state, hstate, rfl⟩ | ⟨hadds, haccepted⟩
  · rcases jobs_of_submitStep hstate with ⟨hjobs, haccepted⟩ |
      ⟨tx, htx, a, responseId, jobsNow, hloaded, hsubmission, haccepted, hjobs⟩
    · have hsame : state.accepted = s.accepted := haccepted
      refine ⟨hsame ▸ List.Subset.refl _, fun row hrow => ?_⟩
      change row ∈ state.jobs.rows at hrow
      rw [hjobs] at hrow
      exact (hrows row hrow).mono (hsame ▸ List.Subset.refl _)
    · have hcons : state.accepted = a :: s.accepted := haccepted
      have hsub : s.accepted ⊆ state.accepted := hcons ▸ List.subset_cons_self a s.accepted
      refine ⟨hsub, fun row hrow => ?_⟩
      change row ∈ state.jobs.rows at hrow
      rw [hjobs] at hrow
      rcases mem_enqueueJobs hrow with hrow | hsync | ⟨url, hurl, hkind, hpayload⟩
      · exact (hrows row hrow).mono hsub
      · exact .sync hsync
      · -- the form that the submit holds is stored
        have hform : a.form ∈ s.db.forms.rows :=
          SubmitTx.Sound.form_mem (hsubmits.sound.transactions tx htx) hloaded
        have hmem : a ∈ state.accepted := hcons ▸ List.mem_cons_self
        exact .webhook a hmem url responseId jobsNow hurl
          ((hforms.forms a.form hform).webhook url hurl).2 hkind
          (by rw [hpayload, hsubmission])
  · refine ⟨haccepted ▸ List.Subset.refl _, fun row hrow => ?_⟩
    rcases hadds.rows row hrow with hrow | hsync
    · exact (hrows row hrow).mono (haccepted ▸ List.Subset.refl _)
    · exact .sync hsync

private theorem rightful_step {s s' : Deployment} {e : DeploymentEvent} (h : s.JobsRightful x)
    (hstep : deploymentStep x.admin x.submit serdeError s e = some s') : s'.JobsRightful x := by
  cases e with
  | service e =>
    obtain ⟨service, hservice, rfl⟩ := Option.map_eq_some_iff.1 hstep
    obtain ⟨hsub, hrows⟩ := rightful_serviceStep h.forms h.submits h.rows hservice
    exact ⟨formsSound_step h.forms hservice, submitsSound_step h.submits hservice, hrows,
      fun w hw job hjob => (h.held w hw job hjob).mono hsub⟩
  | fleet e =>
    obtain ⟨hkeeps, hservice, hheld⟩ := deploymentStep_fleet hstep
    have haccepted : s'.service.accepted = s.service.accepted := by rw [hservice]
    have hrows : ∀ row ∈ s'.service.db.jobs.rows,
        Rightful x s.service.accepted row.kind row.payload := by
      intro row' hrow'
      obtain ⟨row, hrow, hsame⟩ := hkeeps.rows row' hrow'
      rw [hsame.kind, hsame.payload]
      exact h.rows row hrow
    have hjobs : ∀ w ∈ s'.workers, ∀ job ∈ w.phase.jobs,
        Rightful x s.service.accepted job.kind job.payload := by
      intro w' hw' job hjob
      rcases hheld w' hw' job hjob with ⟨w, hw, hjob⟩ | ⟨row, hrow, hkind, hpayload⟩
      · exact h.held w hw job hjob
      · rw [← hkind, ← hpayload]
        exact h.rows row hrow
    -- the rest of the service is as it was
    refine ⟨?_, ?_, haccepted.symm ▸ hrows, haccepted.symm ▸ hjobs⟩
    · rw [hservice]
      exact ⟨⟨h.forms.remembers.homes, h.forms.remembers.requests⟩, h.forms.forms, h.forms.requests⟩
    · rw [hservice]
      exact ⟨⟨h.submits.sound.transactions, h.submits.sound.locks⟩, h.submits.apart⟩
  | resync guildId roleId delaySecs =>
    cases hstep
    refine ⟨⟨⟨h.forms.remembers.homes, h.forms.remembers.requests⟩, h.forms.forms,
      h.forms.requests⟩,
      ⟨⟨h.submits.sound.transactions, h.submits.sound.locks⟩, h.submits.apart⟩, fun row hrow => ?_,
        h.held⟩
    rcases JobTable.mem_enqueue.1 hrow with hrow | rfl
    · exact h.rows row hrow
    · exact .sync (.config guildId roleId rfl rfl)

/-- In any run from an empty queue, whatever jobs a worker has claimed, it can read them; and a
webhook is that of an accepted submit, with its data and the URL of its form, which is safe. -/
theorem held_jobs_rightful {s t : Deployment} {es : List DeploymentEvent} (hquiet : s.service.Quiet)
    (hhomes : ∀ form ∈ s.service.db.forms.rows, (s.service.homes form.id).isSome)
    (hforms : ∀ form ∈ s.service.db.forms.rows, form.Sound x) (hjobs : s.service.db.jobs.rows = [])
    (hworkers : s.workers = [])
    (hrun : (deploymentSystem x.admin x.submit serdeError).Run (fun _ _ _ => True) s es t) :
    ∀ w ∈ t.workers, ∀ job ∈ w.phase.jobs, ∃ task, taskOf serdeError job = .ok task ∧
      ∀ url body, task = .webhook url body → isSafeUrl x.web url = true ∧
        ∃ a ∈ t.service.accepted, a.form.webhookUrl = some url ∧
        ∃ responseId jobsNow, body =
          buildPayload x.toRfc3339 jobsNow a.form a.submission responseId x.baseUrl
            a.graded.totalScore := by
  have hstart : s.JobsRightful x := by
    refine ⟨formsSound_run hquiet hhomes hforms (.nil s.service), hquiet.submitsSound,
      fun row hrow => ?_, fun w hw => ?_⟩
    · rw [hjobs] at hrow
      exact absurd hrow List.not_mem_nil
    · rw [hworkers] at hw
      exact absurd hw List.not_mem_nil
  have ht : t.JobsRightful x :=
    hrun.invariant (P := Deployment.JobsRightful x) (fun _ _ _ h _ hstep =>
      rightful_step h hstep) hstart
  exact fun w hw job hjob => taskOf_rightful (ht.held w hw job hjob)

end

/-! ### A form with a URL -/

def hookedBody : Admin.UpdateBody where
  title := ['H']
  schema := Admin.starterBlank
  webhookUrl := some "https://hooks.example/x".toList
  version := 1

/-- A form is created, saved with a URL, and answered. -/
def answerHooked : List ServiceEvent :=
  .request ['g'] (.createForm ⟨surveyId, ['p'], fun n => Text.ofNat n⟩ "blank".toList
    (some ['H'])) :: stepsOf 0 1 ++
    .request ['g'] (.updateForm surveyId.text hookedBody) :: stepsOf 0 3 ++
      ([.begin ⟨['0'], ['m'], ['M'], ⟨.object [], 2⟩⟩ 1, .advance 0 .load,
        .advance 0 (.vet 1 1 (.ok [])), .advance 0 .lock,
        .advance 0 (.read none), .advance 0 (.write 2 1), .commit 0] : List SubmitEvent).map .submit

def emptyDeployment : Deployment := ⟨emptyService, 0, []⟩

/-- A worker claims the jobs of the submit, and dispatches the first. -/
def deliverHooked : List DeploymentEvent :=
  answerHooked.map .service ++
    ([.tick 10, .spawn ['w'] 0, .worker 0 .check, .worker 0 (.claim [] id), .worker 0 .next] :
      List FleetEvent).map .fleet

private theorem deliverHooked_runs : ∃ t,
    (deploymentSystem plainService.admin plainService.submit plainService.serdeError).Run
    (fun _ _ _ => True) emptyDeployment deliverHooked t ∧
      t.service.accepted.map (fun a => a.form.hooked) = [true] ∧
      (t.workers.flatMap fun w => w.phase.jobs.map Job.kind) =
        [JobKind.playerSync.asStr, JobKind.webhook.asStr] := by
  have hexec : ((deploymentSystem plainService.admin
    plainService.submit plainService.serdeError).exec emptyDeployment
      deliverHooked).any (fun t => t.service.accepted.map (fun a => a.form.hooked) = [true] ∧
        (t.workers.flatMap fun w => w.phase.jobs.map Job.kind) =
            [JobKind.playerSync.asStr, JobKind.webhook.asStr]) := by
    decide +kernel
  obtain ⟨t, ht, hseen⟩ := (Option.any_eq_true _ _).1 hexec
  exact ⟨t, System.Run.of_exec ht fun _ _ _ _ => trivial, of_decide_eq_true hseen⟩

theorem jobs_of_accepted_hooked :
    ∃ (t : Deployment) (new : List Accepted), t.service.accepted = new ∧
    Enqueued plainService.submit JobTable.empty t.service.db.jobs new ∧
      new.map (fun a => a.form.hooked) = [true] := by
  obtain ⟨t, hrun, haccepted, -⟩ := deliverHooked_runs
  obtain ⟨new, hnew, henqueued⟩ := jobs_of_accepted hrun
  have hnew : t.service.accepted = new := hnew.trans (List.append_nil new)
  exact ⟨t, new, hnew, henqueued, hnew ▸ haccepted⟩

theorem held_jobs_rightful_hooked : ∃ (job : Job) (task : Task), job.kind = JobKind.webhook.asStr ∧
    taskOf plainService.serdeError job = .ok task ∧
      ∀ url body, task = .webhook url body → isSafeUrl hookLibs url = true := by
  obtain ⟨t, hrun, -, hkinds⟩ := deliverHooked_runs
  have hmem : JobKind.webhook.asStr ∈ t.workers.flatMap fun w => w.phase.jobs.map Job.kind :=
    hkinds ▸ List.mem_cons_of_mem _ (List.mem_singleton_self _)
  obtain ⟨w, hw, hmem⟩ := List.mem_flatMap.1 hmem
  obtain ⟨job, hjob, hkind⟩ := List.mem_map.1 hmem
  obtain ⟨task, htask, hwebhook⟩ :=
    held_jobs_rightful (x := plainService) ⟨rfl, rfl⟩ emptyService_forms emptyService_forms rfl rfl
    hrun w hw job hjob
  exact ⟨job, task, hkind, htask, fun url body h => (hwebhook url body h).1⟩

end FormRespondentRole
