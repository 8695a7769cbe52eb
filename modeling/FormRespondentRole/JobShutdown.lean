import FormRespondentRole.JobExclusion

/-!
# Shutdown of a worker

A shutdown message can be received once.  The check at the top of the loop that receives it ends the
loop, and the one before a dispatch only releases the job it precedes: the next check finds nothing
(`shutsDown_iff`).  A worker shuts down in every run in which no check before a dispatch finds the
message (`shutdown_observed`).
-/

namespace FormRespondentRole

open Foundations

/-! ### One worker -/

/-- The loop with another limit on a batch. -/
def Worker.stepWith (limit : Nat) (serdeError : Value → Text) (now : Instant) (t : JobTable)
    (w : Worker) :
    WorkerEvent → Option (JobTable × Worker)
  | .claim skipped rank =>
    match w.phase with
    | .claiming =>
      let (claimed, t) := t.claimBatch now w.workerId limit skipped rank
      some (t, w.goto (afterClaim now claimed))
    | _ => none
  | e => workerStep serdeError now t w e

private theorem Worker.stepWith_batchSize (serdeError : Value → Text) (now : Instant) (t : JobTable)
    (w : Worker) (e : WorkerEvent) : w.stepWith batchSize serdeError now t e =
      workerStep serdeError now t w e := by
  cases e <;> rfl

/-- The limit matters to a claim only. -/
theorem Worker.stepWith_eq (limit : Nat) (serdeError : Value → Text) (now : Instant) (t : JobTable)
    (w : Worker) {e : WorkerEvent} (h : ∀ skipped rank, e ≠ .claim skipped rank) :
    w.stepWith limit serdeError now t e = workerStep serdeError now t w e := by
  cases e with
  | claim skipped rank => exact absurd rfl (h skipped rank)
  | _ => rfl

/-- A worker, with the table that it finds. -/
structure Solo where
  now : Instant
  jobs : JobTable
  worker : Worker

inductive SoloEvent
  /-- Time passes, in which the others may do anything to the table. -/
  | others (dt : Nat) (jobs : JobTable)
  | trigger
  | own (e : WorkerEvent)

def soloStep (limit : Nat) (serdeError : Value → Text) (s : Solo) : SoloEvent → Option Solo
  | .others dt jobs => some { s with now := s.now + dt, jobs := jobs }
  | .trigger => some { s with worker := { s.worker with unread := s.worker.unread + 1 } }
  | .own e => (s.worker.stepWith limit serdeError s.now s.jobs e).map fun (jobs, worker) =>
      { s with jobs := jobs, worker := worker }

def soloSystem (limit : Nat) (serdeError : Value → Text) : System Solo SoloEvent :=
  ⟨soloStep limit serdeError⟩

private theorem soloStep_stepWith {limit : Nat} {serdeError : Value → Text} {now : Instant}
    {t t' : JobTable} {w w' : Worker} {e : WorkerEvent}
    (h : w.stepWith limit serdeError now t e = some (t', w')) :
    soloStep limit serdeError ⟨now, t, w⟩ (.own e) = some ⟨now, t', w'⟩ := by
  rw [soloStep, h]
  rfl

/-- A step of a worker of the fleet is one of its own. -/
theorem soloStep_workerStep {serdeError : Value → Text} {now : Instant} {t t' : JobTable}
    {w w' : Worker} {e : WorkerEvent} (h : workerStep serdeError now t w e = some (t', w')) :
    soloStep batchSize serdeError ⟨now, t, w⟩ (.own e) = some ⟨now, t', w'⟩ :=
  soloStep_stepWith ((w.stepWith_batchSize serdeError now t e).trans h)

/-! ### Shutting down -/

/-- The worker asks whether shutdown was triggered. -/
def SoloEvent.checks : SoloEvent → Bool
  | .own .check | .own .next => true
  | _ => false

def SoloEvent.isOwn : SoloEvent → Bool
  | .own _ => true
  | _ => false

def SoloEvent.claims : SoloEvent → Bool
  | .own (.claim _ _) | .own .claimFails => true
  | _ => false

/-- From here on every check finds that shutdown was triggered, so that no job is dispatched and
those left are released, nothing is claimed, and the worker is through with its loop after the steps
of the batch it has. -/
structure Solo.ShutsDown (limit : Nat) (serdeError : Value → Text) (t : Solo) : Prop where
  checks : ∀ es u e v, (soloSystem limit serdeError).Run (fun _ _ _ => True) t es u →
    soloStep limit serdeError u e = some v → e.checks = true → u.worker.isTriggered.1 = true
  claims : ∀ es u e v, (soloSystem limit serdeError).Run (fun _ _ _ => True) t es u →
    soloStep limit serdeError u e = some v → e.claims = false
  leaves : ∀ es u, (soloSystem limit serdeError).Run (fun _ _ _ => True) t es u →
    es.countP SoloEvent.isOwn ≤ 2 * t.worker.phase.held.length

/-- Whether a check has found that shutdown was triggered. -/
def noteTriggered (seen : Bool) (s : Solo) (e : SoloEvent) : Bool :=
  seen || (e.checks && s.worker.isTriggered.1)

/-- The check before a dispatch does not find the message. -/
def unnoticed (s : Solo) : SoloEvent → Bool
  | .own .next => decide (s.worker.unread ≠ 1)
  | _ => true

private theorem Worker.isTriggered_iff {w : Worker} : w.isTriggered.1 = true ↔ w.unread = 1 := by
  rw [Worker.isTriggered]
  split <;> simp_all

section

variable {limit : Nat} {serdeError : Value → Text} {s t : Solo} {e : SoloEvent}

/-- A worker that has left its loop takes no step. -/
theorem stopped_step (h : s.worker.phase = .stopped)
    (hstep : soloStep limit serdeError s e = some t) :
    e.isOwn = false ∧ t.worker.phase = .stopped := by
  cases e with
  | others dt jobs =>
    cases hstep
    exact ⟨rfl, h⟩
  | trigger =>
    cases hstep
    exact ⟨rfl, h⟩
  | own e =>
    obtain ⟨r, hown, -⟩ := Option.map_eq_some_iff.1 hstep
    cases e <;> simp [Worker.stepWith, workerStep, h] at hown

private theorem stopped_run {es : List SoloEvent} (h : s.worker.phase = .stopped)
    (hrun : (soloSystem limit serdeError).Run (fun _ _ _ => True) s es t) :
    t.worker.phase = .stopped ∧ es.countP SoloEvent.isOwn = 0 := by
  induction hrun with
  | nil => exact ⟨h, rfl⟩
  | cons hstep _ _ ih =>
    obtain ⟨hown, hstopped⟩ := stopped_step h hstep
    rw [List.countP_cons_of_neg (by rw [hown]; exact Bool.false_ne_true)]
    exact ih hstopped

private theorem shutsDown_of_stopped (h : s.worker.phase = .stopped) :
    s.ShutsDown limit serdeError := by
  refine ⟨fun es u e v hrun hstep hchecks => ?_, fun es u e v hrun hstep => ?_, fun es u hrun => ?_⟩
  · obtain ⟨hown, -⟩ := stopped_step (stopped_run h hrun).1 hstep
    cases e with
    | own e => cases hown
    | _ => cases hchecks
  · obtain ⟨hown, -⟩ := stopped_step (stopped_run h hrun).1 hstep
    cases e with
    | own e => cases hown
    | _ => rfl
  · rw [(stopped_run h hrun).2]
    exact Nat.zero_le _

private theorem isTriggered_unread {w : Worker} (h : w.isTriggered.1 = true) :
    w.isTriggered.2.unread = 0 := by
  rw [Worker.isTriggered] at h ⊢
  split at h
  · cases h
  · rfl
  · cases h

/-- The message is gone when the worker comes to its next check. -/
theorem not_shutsDown_of_releasing {claimedAt : Instant} {job : Job} {rest : List Job}
    (hphase : s.worker.phase = .batch claimedAt .releasing job rest)
    (hunread : s.worker.unread = 0) :
    ¬ s.ShutsDown limit serdeError := by
  intro h
  have hrelease : s.worker.stepWith limit serdeError s.now s.jobs (.release false 0) =
      some (s.jobs, s.worker.goto (nextPhase claimedAt rest)) := by
    rw [Worker.stepWith_eq _ _ _ _ _ (by simp)]
    exact workerStep_release.2 ⟨claimedAt, job, rest, hphase, rfl⟩
  have hrun : (soloSystem limit serdeError).Run (fun _ _ _ => True) s [.own (.release false 0)]
      ⟨s.now, s.jobs, s.worker.goto (nextPhase claimedAt rest)⟩ :=
    System.Run.single (soloStep_stepWith hrelease) trivial
  have hnot : (s.worker.goto (nextPhase claimedAt rest)).isTriggered.1 ≠ true := by
    rw [Ne, Worker.isTriggered_iff]
    change s.worker.unread ≠ 1
    omega
  cases rest with
  | nil =>
    have hcheck : workerStep serdeError s.now s.jobs (s.worker.goto .loopTop) .check =
        some (s.jobs, _) :=
      workerStep_check.2 ⟨rfl, rfl⟩
    rw [← Worker.stepWith_eq limit serdeError s.now s.jobs _ (by simp)] at hcheck
    exact hnot (h.checks _ _ _ _ hrun (soloStep_stepWith hcheck) rfl)
  | cons next rest =>
    have hnext : workerStep serdeError s.now s.jobs
      (s.worker.goto (.batch claimedAt .waiting next rest)) .next =
        some (s.jobs, _) := workerStep_next.2 ⟨claimedAt, next, rest, rfl, rfl⟩
    rw [← Worker.stepWith_eq limit serdeError s.now s.jobs _ (by simp)] at hnext
    exact hnot (h.checks _ _ _ _ hrun (soloStep_stepWith hnext) rfl)

/-- The check that finds the message decides: at the top of the loop the worker shuts down, before a
dispatch it goes on with the next job, or with the next batch. -/
theorem shutsDown_iff (hchecks : e.checks = true) (htriggered : s.worker.isTriggered.1 = true)
    (hstep : soloStep limit serdeError s e = some t) : t.ShutsDown limit serdeError ↔
      s.worker.phase = .loopTop := by
  cases e with
  | others dt jobs => cases hchecks
  | trigger => cases hchecks
  | own e =>
    obtain ⟨⟨jobs, w⟩, hown, rfl⟩ := Option.map_eq_some_iff.1 hstep
    cases e with
    | check =>
      have hown : workerStep serdeError s.now s.jobs s.worker .check = some (jobs, w) := hown
      obtain ⟨hphase, heq⟩ := workerStep_check.1 hown
      cases heq
      rw [htriggered]
      exact iff_of_true (shutsDown_of_stopped rfl) hphase
    | next =>
      have hown : workerStep serdeError s.now s.jobs s.worker .next = some (jobs, w) := hown
      obtain ⟨claimedAt, job, rest, hphase, heq⟩ := workerStep_next.1 hown
      rw [htriggered] at heq
      cases heq
      refine iff_of_false (fun hdown => ?_) (by rw [hphase]; exact fun h => by cases h)
      exact not_shutsDown_of_releasing rfl (isTriggered_unread htriggered) hdown
    | _ => cases hchecks

/-- A worker one of whose checks has found the message has left its loop. -/
theorem triggered_step {seen : Bool} (h : seen = true → s.worker.phase = .stopped)
    (hunnoticed : unnoticed s e = true) (hstep : soloStep limit serdeError s e = some t)
    (hseen : noteTriggered seen s e = true) :
    t.worker.phase = .stopped := by
  cases seen with
  | true => exact (stopped_step (h rfl) hstep).2
  | false =>
    obtain ⟨hchecks, htriggered⟩ := Bool.and_eq_true_iff.1 hseen
    cases e with
    | others dt jobs => cases hchecks
    | trigger => cases hchecks
    | own e =>
      obtain ⟨⟨jobs, w⟩, hown, rfl⟩ := Option.map_eq_some_iff.1 hstep
      cases e with
      | check =>
        have hown : workerStep serdeError s.now s.jobs s.worker .check = some (jobs, w) := hown
        obtain ⟨-, heq⟩ := workerStep_check.1 hown
        cases heq
        rw [htriggered]
        rfl
      | next => exact absurd (Worker.isTriggered_iff.1 htriggered) (of_decide_eq_true hunnoticed)
      | _ => cases hchecks

end

/-- In a run in which no check before a dispatch finds the message, the worker shuts down once a
check finds it. -/
theorem shutdown_observed (limit : Nat) (serdeError : Value → Text) {s t : Solo}
    {es : List SoloEvent}
    (hrun : ((soloSystem limit serdeError).observe noteTriggered).Run
      (fun s e _ => unnoticed s.1 e = true)
      (s, false) es (t, true)) : t.ShutsDown limit serdeError := by
  have hstopped := hrun.invariant (P := fun s => s.2 = true → s.1.worker.phase = .stopped)
    (fun _ _ _ h hunnoticed hstep hseen => ?_) (fun hseen => by cases hseen)
  · exact shutsDown_of_stopped (hstopped rfl)
  · obtain ⟨hstep, hnote⟩ := System.observe_step.1 hstep
    rw [hnote] at hseen
    exact triggered_step h hunnoticed hstep hseen

/-! ### A worker that does not stop -/

def soloWorker : Solo := ⟨0, .empty, ⟨"job-worker-0".toList, 0, 0, 0, .loopTop⟩⟩

/-- The queue holds two jobs when the worker comes to it. -/
def twoJobs : JobTable :=
  (JobTable.empty.enqueue 0 .playerSync
    (PlayerSyncPayload.updated "ann".toList).toValue 0).enqueue 0 .playerSync
    (PlayerSyncPayload.updated "bob".toList).toValue 0

/-- Shutdown is triggered after the claim of two jobs. -/
def triggerInBatch : List SoloEvent :=
  [.others 0 twoJobs, .own .check, .own (.claim [] id), .trigger, .own .next]

/-- The worker releases the first job and dispatches the second. -/
theorem not_shutdown_observed :
    ¬ ∀ (limit : Nat) (serdeError : Value → Text) (s t : Solo) (es : List SoloEvent),
      ((soloSystem limit serdeError).observe noteTriggered).Run (fun _ _ _ => True) (s, false) es
      (t, true) →
      t.ShutsDown limit serdeError := by
  intro h
  have htwo : (((soloSystem batchSize fun _ => []).observe noteTriggered).exec
    (soloWorker, false) triggerInBatch).any
      (fun t => t.2 &&
        ((soloSystem batchSize fun _ => []).exec t.1 [.own (.release true 0)]).any fun u =>
          (soloStep batchSize (fun _ => []) u (.own .next)).any fun v =>
            !u.worker.isTriggered.1 && v.worker.dispatches 2) = true := by decide
  obtain ⟨⟨t, seen⟩, ht, htwo⟩ := (Option.any_eq_true _ _).1 htwo
  obtain ⟨rfl, htwo⟩ := Bool.and_eq_true_iff.1 htwo
  obtain ⟨u, hu, htwo⟩ := (Option.any_eq_true _ _).1 htwo
  obtain ⟨v, hv, htwo⟩ := (Option.any_eq_true _ _).1 htwo
  have hdown := h batchSize (fun _ => []) soloWorker t triggerInBatch
    (System.Run.of_exec ht fun _ _ _ _ => trivial)
  have htriggered := hdown.checks _ u _ v (System.Run.of_exec hu fun _ _ _ _ => trivial) hv rfl
  rw [htriggered] at htwo
  cases htwo

/-- Shutdown is triggered while the worker waits for jobs. -/
def triggerInIdle : List SoloEvent :=
  [.own .check, .own (.claim [] id), .trigger, .own .wake, .own .check]

theorem shutdown_observed_idle :
    ∃ t, ((soloSystem batchSize fun _ => []).observe noteTriggered).exec
    (soloWorker, false) triggerInIdle =
      some (t, true) ∧ t.ShutsDown batchSize fun _ => [] := by
  have hidle : (((soloSystem batchSize fun _ => []).observe noteTriggered).check
    (fun s e _ => unnoticed s.1 e)
      (soloWorker, false) triggerInIdle).any (fun t => t.2) = true := by decide
  obtain ⟨⟨t, seen⟩, ht, rfl⟩ := (Option.any_eq_true _ _).1 hidle
  have hrun := System.Run.of_check ht
  exact ⟨t, hrun.exec_eq, shutdown_observed batchSize (fun _ => []) hrun⟩

end FormRespondentRole
