import FormRespondentRole.Jobs
import FormRespondentRole.Error
import FormRespondentRole.Foundations.Reachability

/-!
# Job workers

A `Fleet` is the `jobs` table with every worker of every replica.  A worker runs the loop of
`job_worker::run`: it checks for shutdown, reaps, claims a batch, and dispatches the claimed jobs
one after another.  Statements on the table are atomic, everything else takes time, and the workers
interleave in any order.
-/

namespace FormRespondentRole

open Foundations

/-! ### Dispatching a job -/

/-- Give up forever, or try again later. -/
inductive JobError
  | terminal (msg : Text)
  | retry (msg : Text)
deriving DecidableEq

def JobError.ofAppError : AppError → JobError
  | .roleLinkNotFound => terminal "role link no longer exists upstream".toList
  | .userLimitReached limit =>
    terminal ("role link user limit reached (".toList ++ Text.ofNat limit ++
      "); retry won't help".toList)
  | other => retry other.text

/-- The work that a job asks for. -/
inductive Task
  | playerSync (payload : PlayerSyncPayload)
  | configSync (guildId roleId : Text)
  | webhook (url : Text) (body : Value)

/-- What `dispatch` reads off a job; `serdeError` is the text of the library's error for a payload
it rejects. -/
def taskOf (serdeError : Value → Text) (job : Job) : Except JobError Task :=
  match JobKind.fromDb job.kind with
  | none => .error (.terminal ("unknown job kind '".toList ++ job.kind ++ "'".toList))
  | some .playerSync =>
    match PlayerSyncPayload.fromValue job.payload with
    | some payload => .ok (.playerSync payload)
    | none => .error (.terminal ("invalid player_sync payload: ".toList ++ serdeError job.payload))
  | some .configSync =>
    match (job.payload.get "guild_id".toList).bind Value.asStr with
    | none => .error (.terminal "config_sync payload missing guild_id".toList)
    | some guildId =>
      match (job.payload.get "role_id".toList).bind Value.asStr with
      | none => .error (.terminal "config_sync payload missing role_id".toList)
      | some roleId => .ok (.configSync guildId roleId)
  | some .webhook =>
    match (job.payload.get "url".toList).bind Value.asStr with
    | none => .error (.terminal "webhook payload missing url".toList)
    | some url =>
      match job.payload.get "body".toList with
      | none => .error (.terminal "webhook payload missing body".toList)
      | some body => .ok (.webhook url body)

/-- How a dispatched job is written back. -/
inductive Settlement
  | complete
  | failDead (msg : Text)
  | failRetry (msg : Text)
deriving DecidableEq

def settlement (job : Job) : Except JobError Unit → Settlement
  | .ok () => .complete
  | .error (.terminal msg) => .failDead msg
  | .error (.retry msg) => if job.maxAttempts ≤ job.attempts then .failDead msg else .failRetry msg

/-- Only a dispatch that succeeded is marked completed. -/
theorem settlement_eq_complete {job : Job} {result : Except JobError Unit} :
    settlement job result = .complete ↔ result = .ok () := by
  constructor
  · intro h
    match result with
    | .ok () => rfl
    | .error (.terminal msg) => cases h
    | .error (.retry msg) =>
      rw [settlement] at h
      split at h <;> cases h
  · rintro rfl
    rfl

def Settlement.apply (t : JobTable) (now : Instant) (job : Job) (jitterMs : Nat) :
    Settlement → JobTable
  | complete => t.complete now job.id
  | failDead msg => t.failDead now job.id msg
  | failRetry msg => t.failRetry now job jitterMs msg

/-! ### The loop -/

def batchSize : Nat := 8

def stuckLockSecs : Nat := 60 * 45

def reapEverySecs : Nat := 120

def pollIntervalSecs : Nat := 2

/-- Where a worker stands with the first job of what is left of its batch. -/
inductive Stage
  /-- Before the check for shutdown that precedes a dispatch. -/
  | waiting
  | dispatching (since : Instant)
  /-- The dispatch has returned; the job is to be written back. -/
  | settling (how : Settlement)
  /-- Shutting down; the job is to be released. -/
  | releasing
deriving DecidableEq

inductive Phase
  | loopTop
  | reaping
  | claiming
  /-- Nothing was claimed.  After a failed claim a notification does not end the wait. -/
  | idle (since : Instant) (notifiable : Bool)
  /-- What is left of a batch; the worker does not keep the time of the claim, which is here for the
  statements. -/
  | batch (claimedAt : Instant) (stage : Stage) (job : Job) (rest : List Job)
  | stopped

structure Worker where
  workerId : Text
  replica : Nat
  lastReap : Instant
  /-- Shutdown messages sent and not yet received, through a channel of capacity one. -/
  unread : Nat := 0
  phase : Phase := .loopTop

/-- The outcome of `try_recv`, with what stays unread: a receiver that has missed messages is told
so first. -/
def Worker.isTriggered (w : Worker) : Bool × Worker :=
  match w.unread with
  | 0 => (false, w)
  | 1 => (true, { w with unread := 0 })
  | _ + 2 => (false, { w with unread := 1 })

inductive WorkerEvent
  /-- The check for shutdown at the top of the loop. -/
  | check
  | reap (succeeds : Bool)
  /-- The claim, with the rows it finds locked and the order of the rows it returns. -/
  | claim (skipped : List Nat) (rank : Nat → Nat)
  | claimFails
  | wake
  | wakeForShutdown
  /-- The check for shutdown before a dispatch. -/
  | next
  | returned (result : Except JobError Unit)
  | settle (succeeds : Bool) (jitterMs : Nat)
  | release (succeeds : Bool) (jitterMs : Nat)

/-- The phase after the first job of a batch is done with. -/
def nextPhase (claimedAt : Instant) : List Job → Phase
  | [] => .loopTop
  | job :: rest => .batch claimedAt .waiting job rest

def afterClaim (now : Instant) : List Job → Phase
  | [] => .idle now true
  | job :: rest => .batch now .waiting job rest

def Worker.goto (w : Worker) (phase : Phase) : Worker := { w with phase := phase }

/-- A dispatch of a job that does not decode returns that error; any other may return anything. -/
def mayReturn (serdeError : Value → Text) (job : Job) (result : Except JobError Unit) : Bool :=
  match taskOf serdeError job, result with
  | .ok _, _ => true
  | .error e, .error e' => decide (e = e')
  | .error _, .ok _ => false

def workerStep (serdeError : Value → Text) (now : Instant) (t : JobTable) (w : Worker) :
    WorkerEvent → Option (JobTable × Worker)
  | .check =>
    match w.phase with
    | .loopTop =>
      match w.isTriggered with
      | (true, w) => some (t, w.goto .stopped)
      | (false, w) =>
        some (t, w.goto (if w.lastReap + seconds reapEverySecs ≤ now then .reaping else .claiming))
    | _ => none
  | .reap succeeds =>
    match w.phase with
    | .reaping =>
      some (if succeeds then t.reapStuck now stuckLockSecs
        else t, { w with lastReap := now, phase := .claiming })
    | _ => none
  | .claim skipped rank =>
    match w.phase with
    | .claiming =>
      let (claimed, t) := t.claimBatch now w.workerId batchSize skipped rank
      some (t, w.goto (afterClaim now claimed))
    | _ => none
  | .claimFails =>
    match w.phase with
    | .claiming => some (t, w.goto (.idle now false))
    | _ => none
  | .wake =>
    match w.phase with
    | .idle since notifiable =>
      if notifiable || decide (since + seconds pollIntervalSecs ≤ now) then
        some (t, w.goto .loopTop) else none
    | _ => none
  | .wakeForShutdown =>
    match w.phase with
    | .idle _ _ => if w.unread = 0 then none
      else some (t, { w with unread := min 1 (w.unread - 1), phase := .stopped })
    | _ => none
  | .next =>
    match w.phase with
    | .batch claimedAt .waiting job rest =>
      match w.isTriggered with
      | (true, w) => some (t, w.goto (.batch claimedAt .releasing job rest))
      | (false, w) => some (t, w.goto (.batch claimedAt (.dispatching now) job rest))
    | _ => none
  | .returned result =>
    match w.phase with
    | .batch claimedAt (.dispatching _) job rest =>
      if mayReturn serdeError job result then
        some (t, w.goto (.batch claimedAt (.settling (settlement job result)) job rest))
      else none
    | _ => none
  | .settle succeeds jitterMs =>
    match w.phase with
    | .batch claimedAt (.settling how) job rest =>
      some (if succeeds then how.apply t now job jitterMs else t, w.goto (nextPhase claimedAt rest))
    | _ => none
  | .release succeeds jitterMs =>
    match w.phase with
    | .batch claimedAt .releasing job rest =>
      some (if succeeds then t.failRetry now job jitterMs "worker shutting down".toList else t,
        w.goto (nextPhase claimedAt rest))
    | _ => none

/-! ### What a step does -/

@[simp] theorem Worker.goto_phase (w : Worker) (p : Phase) : (w.goto p).phase = p := rfl

@[simp] theorem Worker.goto_workerId (w : Worker) (p : Phase) : (w.goto p).workerId = w.workerId :=
  rfl

@[simp] theorem Worker.isTriggered_phase (w : Worker) : w.isTriggered.2.phase = w.phase := by
  rw [Worker.isTriggered]
  split <;> rfl

@[simp] theorem Worker.isTriggered_workerId (w : Worker) :
    w.isTriggered.2.workerId = w.workerId := by
  rw [Worker.isTriggered]
  split <;> rfl

section

variable {serdeError : Value → Text} {now : Instant} {t : JobTable} {w : Worker}
  {r : JobTable × Worker}

theorem workerStep_check : workerStep serdeError now t w .check = some r ↔ w.phase = .loopTop ∧
    r = (t, w.isTriggered.2.goto (if w.isTriggered.1 then .stopped
      else if w.isTriggered.2.lastReap + seconds reapEverySecs ≤ now then .reaping
        else .claiming)) := by
  constructor
  · intro h
    simp only [workerStep] at h
    split at h
    · rename_i hphase
      refine ⟨hphase, ?_⟩
      split at h <;> rename_i hw <;> rw [hw] <;> exact (Option.some.inj h).symm
    · cases h
  · rintro ⟨hphase, rfl⟩
    simp only [workerStep, hphase]
    obtain ⟨triggered, w'⟩ := w.isTriggered
    cases triggered <;> rfl

theorem workerStep_reap {succeeds : Bool} :
    workerStep serdeError now t w (.reap succeeds) = some r ↔
    w.phase = .reaping ∧
      r = (if succeeds then t.reapStuck now stuckLockSecs
        else t, { w with lastReap := now, phase := .claiming }) := by
  constructor
  · intro h
    simp only [workerStep] at h
    split at h
    · rename_i hphase
      exact ⟨hphase, (Option.some.inj h).symm⟩
    · cases h
  · rintro ⟨hphase, rfl⟩
    simp only [workerStep, hphase]

theorem workerStep_claim {skipped : List Nat} {rank : Nat → Nat} :
    workerStep serdeError now t w (.claim skipped rank) = some r ↔ w.phase = .claiming ∧
      r = ((t.claimBatch now w.workerId batchSize skipped rank).2,
        w.goto (afterClaim now (t.claimBatch now w.workerId batchSize skipped rank).1)) := by
  constructor
  · intro h
    simp only [workerStep] at h
    split at h
    · rename_i hphase
      exact ⟨hphase, (Option.some.inj h).symm⟩
    · cases h
  · rintro ⟨hphase, rfl⟩
    simp only [workerStep, hphase]

theorem workerStep_claimFails :
    workerStep serdeError now t w .claimFails = some r ↔ w.phase = .claiming ∧
      r = (t, w.goto (.idle now false)) := by
  constructor
  · intro h
    simp only [workerStep] at h
    split at h
    · rename_i hphase
      exact ⟨hphase, (Option.some.inj h).symm⟩
    · cases h
  · rintro ⟨hphase, rfl⟩
    simp only [workerStep, hphase]

theorem workerStep_wake : workerStep serdeError now t w .wake = some r ↔ ∃ since notifiable,
    w.phase = .idle since notifiable ∧
      (notifiable || decide (since + seconds pollIntervalSecs ≤ now)) = true ∧
      r = (t, w.goto .loopTop) := by
  constructor
  · intro h
    simp only [workerStep] at h
    split at h
    · rename_i since notifiable hphase
      simp only [Option.ite_none_right_eq_some, Option.some.injEq] at h
      exact ⟨since, notifiable, hphase, h.1, h.2.symm⟩
    · cases h
  · rintro ⟨since, notifiable, hphase, hwake, rfl⟩
    simp only [workerStep, hphase, hwake, if_true]

theorem workerStep_wakeForShutdown : workerStep serdeError now t w .wakeForShutdown = some r ↔
    ∃ since notifiable,
    w.phase = .idle since notifiable ∧ w.unread ≠ 0 ∧
      r = (t, { w with unread := min 1 (w.unread - 1), phase := .stopped }) := by
  constructor
  · intro h
    simp only [workerStep] at h
    split at h
    · rename_i since notifiable hphase
      simp only [Option.ite_none_left_eq_some, Option.some.injEq] at h
      exact ⟨since, notifiable, hphase, h.1, h.2.symm⟩
    · cases h
  · rintro ⟨since, notifiable, hphase, hunread, rfl⟩
    simp only [workerStep, hphase, hunread, if_false]

theorem workerStep_next : workerStep serdeError now t w .next = some r ↔ ∃ claimedAt job rest,
    w.phase = .batch claimedAt .waiting job rest ∧
      r = (t, w.isTriggered.2.goto
        (.batch claimedAt (if w.isTriggered.1 then .releasing
          else .dispatching now) job rest)) := by
  constructor
  · intro h
    simp only [workerStep] at h
    split at h
    · rename_i claimedAt job rest hphase
      refine ⟨claimedAt, job, rest, hphase, ?_⟩
      split at h <;> rename_i hw <;> rw [hw] <;> exact (Option.some.inj h).symm
    · cases h
  · rintro ⟨claimedAt, job, rest, hphase, rfl⟩
    simp only [workerStep, hphase]
    obtain ⟨triggered, w'⟩ := w.isTriggered
    cases triggered <;> rfl

theorem workerStep_returned {result : Except JobError Unit} :
    workerStep serdeError now t w (.returned result) = some r ↔ ∃ claimedAt since job rest,
      w.phase = .batch claimedAt (.dispatching since) job rest ∧
        mayReturn serdeError job result = true ∧
        r = (t, w.goto (.batch claimedAt (.settling (settlement job result)) job rest)) := by
  constructor
  · intro h
    simp only [workerStep] at h
    split at h
    · rename_i claimedAt since job rest hphase
      simp only [Option.ite_none_right_eq_some, Option.some.injEq] at h
      exact ⟨claimedAt, since, job, rest, hphase, h.1, h.2.symm⟩
    · cases h
  · rintro ⟨claimedAt, since, job, rest, hphase, hmay, rfl⟩
    simp only [workerStep, hphase, hmay, if_true]

theorem workerStep_settle {succeeds : Bool} {jitterMs : Nat} :
    workerStep serdeError now t w (.settle succeeds jitterMs) = some r ↔ ∃ claimedAt how job rest,
      w.phase = .batch claimedAt (.settling how) job rest ∧
        r = (if succeeds then how.apply t now job jitterMs
          else t, w.goto (nextPhase claimedAt rest)) := by
  constructor
  · intro h
    simp only [workerStep] at h
    split at h
    · rename_i claimedAt how job rest hphase
      exact ⟨claimedAt, how, job, rest, hphase, (Option.some.inj h).symm⟩
    · cases h
  · rintro ⟨claimedAt, how, job, rest, hphase, rfl⟩
    simp only [workerStep, hphase]

theorem workerStep_release {succeeds : Bool} {jitterMs : Nat} :
    workerStep serdeError now t w (.release succeeds jitterMs) = some r ↔ ∃ claimedAt job rest,
      w.phase = .batch claimedAt .releasing job rest ∧
        r = (if succeeds then t.failRetry now job jitterMs "worker shutting down".toList else t,
          w.goto (nextPhase claimedAt rest)) := by
  constructor
  · intro h
    simp only [workerStep] at h
    split at h
    · rename_i claimedAt job rest hphase
      exact ⟨claimedAt, job, rest, hphase, (Option.some.inj h).symm⟩
    · cases h
  · rintro ⟨claimedAt, job, rest, hphase, rfl⟩
    simp only [workerStep, hphase]

end

/-- A worker keeps its id. -/
theorem workerStep_workerId {serdeError : Value → Text} {now : Instant} {t t' : JobTable}
    {w w' : Worker} {e : WorkerEvent} (h : workerStep serdeError now t w e = some (t', w')) :
    w'.workerId = w.workerId := by
  cases e with
  | check => obtain ⟨-, h⟩ := workerStep_check.1 h; cases h; simp
  | reap succeeds => obtain ⟨-, h⟩ := workerStep_reap.1 h; cases h; simp
  | claim skipped rank => obtain ⟨-, h⟩ := workerStep_claim.1 h; cases h; simp
  | claimFails => obtain ⟨-, h⟩ := workerStep_claimFails.1 h; cases h; simp
  | wake => obtain ⟨_, _, -, -, h⟩ := workerStep_wake.1 h; cases h; simp
  | wakeForShutdown => obtain ⟨_, _, -, -, h⟩ := workerStep_wakeForShutdown.1 h; cases h; simp
  | next => obtain ⟨_, _, _, -, h⟩ := workerStep_next.1 h; cases h; simp
  | returned result => obtain ⟨_, _, _, _, -, -, h⟩ := workerStep_returned.1 h; cases h; simp
  | settle succeeds jitterMs => obtain ⟨_, _, _, _, -, h⟩ := workerStep_settle.1 h; cases h; simp
  | release succeeds jitterMs => obtain ⟨_, _, _, -, h⟩ := workerStep_release.1 h; cases h; simp

def Phase.claimedAt : Phase → Option Instant
  | .batch claimedAt _ _ _ => some claimedAt
  | _ => none

/-- The job that the worker is at. -/
def Phase.current : Phase → Option Job
  | .batch _ _ job _ => some job
  | _ => none

/-- The first job of the worker's batch is written back. -/
def WorkerEvent.writesBack : WorkerEvent → Bool
  | .settle succeeds _ | .release succeeds _ => succeeds
  | _ => false

/-- A step of a worker leaves a row alone that it can neither claim nor reap and does not write
back. -/
theorem mem_rows_workerStep {serdeError : Value → Text} {now : Instant} {t t' : JobTable}
    {w w' : Worker} {e : WorkerEvent} {row : JobRow}
    (h : workerStep serdeError now t w e = some (t', w')) (hrow : row ∈ t.rows)
    (hclaim : ∀ skipped rank, e = .claim skipped rank → row.id ∉ t.picked now batchSize skipped)
    (hreap : e = .reap true → JobTable.stuck (now - seconds stuckLockSecs) row = false)
    (hwrite : e.writesBack = true → ∀ job, w.phase.current = some job → row.id ≠ job.id) :
    row ∈ t'.rows := by
  cases e with
  | check =>
    obtain ⟨-, h⟩ := workerStep_check.1 h
    cases h
    exact hrow
  | reap succeeds =>
    obtain ⟨-, h⟩ := workerStep_reap.1 h
    cases h
    cases succeeds
    · exact hrow
    · exact JobTable.mem_update_of_not hrow (hreap rfl)
  | claim skipped rank =>
    obtain ⟨-, h⟩ := workerStep_claim.1 h
    cases h
    exact JobTable.mem_update_of_not hrow (decide_eq_false (hclaim skipped rank rfl))
  | claimFails =>
    obtain ⟨-, h⟩ := workerStep_claimFails.1 h
    cases h
    exact hrow
  | wake =>
    obtain ⟨_, _, -, -, h⟩ := workerStep_wake.1 h
    cases h
    exact hrow
  | wakeForShutdown =>
    obtain ⟨_, _, -, -, h⟩ := workerStep_wakeForShutdown.1 h
    cases h
    exact hrow
  | next =>
    obtain ⟨_, _, _, -, h⟩ := workerStep_next.1 h
    cases h
    exact hrow
  | returned result =>
    obtain ⟨_, _, _, _, -, -, h⟩ := workerStep_returned.1 h
    cases h
    exact hrow
  | settle succeeds jitterMs =>
    obtain ⟨_, how, job, _, hphase, h⟩ := workerStep_settle.1 h
    cases h
    cases succeeds
    · exact hrow
    · -- the row written back is that of the current job
      have hne := hwrite rfl job (by rw [hphase]; rfl)
      cases how <;> exact JobTable.mem_update_of_not hrow (decide_eq_false hne)
  | release succeeds jitterMs =>
    obtain ⟨_, job, _, hphase, h⟩ := workerStep_release.1 h
    cases h
    cases succeeds
    · exact hrow
    · exact JobTable.mem_update_of_not hrow (decide_eq_false (hwrite rfl job (by rw [hphase]; rfl)))

/-! ### The fleet -/

structure Fleet where
  now : Instant
  jobs : JobTable
  workers : List Worker

inductive FleetEvent
  | tick (dt : Nat)
  | enqueue (kind : JobKind) (payload : Value) (delaySecs : Nat)
  | spawn (workerId : Text) (replica : Nat)
  /-- The process of a worker dies. -/
  | crash (i : Nat)
  | trigger (replica : Nat)
  | worker (i : Nat) (e : WorkerEvent)

def fleetStep (serdeError : Value → Text) (s : Fleet) : FleetEvent → Option Fleet
  | .tick dt => some { s with now := s.now + dt }
  | .enqueue kind payload delaySecs =>
    some { s with jobs := s.jobs.enqueue s.now kind payload delaySecs }
  | .spawn workerId replica =>
    some { s with workers := ⟨workerId, replica, s.now, 0, .loopTop⟩ :: s.workers }
  | .crash i =>
    match s.workers.drop i with
    | [] => none
    | w :: rest => some { s with workers := s.workers.take i ++ w.goto .stopped :: rest }
  | .trigger replica =>
    some { s with workers := s.workers.map fun w => if w.replica =
      replica then { w with unread := w.unread + 1 } else w }
  | .worker i e =>
    match s.workers.drop i with
    | [] => none
    | w :: rest =>
      (workerStep serdeError s.now s.jobs w e).map fun (jobs, w) =>
        { s with jobs := jobs, workers := s.workers.take i ++ w :: rest }

def fleetSystem (serdeError : Value → Text) : System Fleet FleetEvent := ⟨fleetStep serdeError⟩

theorem fleetStep_crash {serdeError : Value → Text} {s s' : Fleet} {i : Nat}
    (h : fleetStep serdeError s (.crash i) = some s') :
    ∃ pre w post, s.workers = pre ++ w :: post ∧ pre.length = i ∧
      s' = { s with workers := pre ++ w.goto .stopped :: post } := by
  simp only [fleetStep] at h
  split at h
  · cases h
  · rename_i w post hdrop
    have hsplit := List.take_append_drop i s.workers
    have hlt : i < s.workers.length := by
      by_contra hle
      rw [List.drop_eq_nil_of_le (by omega)] at hdrop
      cases hdrop
    rw [hdrop] at hsplit
    refine ⟨s.workers.take i, w, post, hsplit.symm, ?_, (Option.some.inj h).symm⟩
    rw [List.length_take]
    omega

theorem fleetStep_worker {serdeError : Value → Text} {s s' : Fleet} {i : Nat} {e : WorkerEvent}
    (h : fleetStep serdeError s (.worker i e) = some s') :
    ∃ pre w post t' w', s.workers = pre ++ w :: post ∧ pre.length = i ∧
      workerStep serdeError s.now s.jobs w e = some (t', w') ∧
      s' = { s with jobs := t', workers := pre ++ w' :: post } := by
  simp only [fleetStep] at h
  split at h
  · cases h
  · rename_i w post hdrop
    have hsplit := List.take_append_drop i s.workers
    have hlt : i < s.workers.length := by
      by_contra hle
      rw [List.drop_eq_nil_of_le (by omega)] at hdrop
      cases hdrop
    rw [hdrop] at hsplit
    obtain ⟨⟨t', w'⟩, hworker, rfl⟩ := Option.map_eq_some_iff.1 h
    refine ⟨s.workers.take i, w, post, t', w', hsplit.symm, ?_, hworker, rfl⟩
    rw [List.length_take]
    omega

end FormRespondentRole
