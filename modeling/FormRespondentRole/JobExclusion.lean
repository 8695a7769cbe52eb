import FormRespondentRole.JobWorker

/-!
# Exclusive dispatch

No job is dispatched by two workers at once, as long as no worker's lock is reaped while it still
holds a claimed job (`dispatch_exclusive`).  The lock is stamped once for a whole batch, so bounding
a single dispatch is not enough.
-/

namespace FormRespondentRole

open Foundations

def Worker.dispatches (id : Nat) (w : Worker) : Bool :=
  match w.phase with
  | .batch _ (.dispatching _) job _ => decide (job.id = id)
  | _ => false

/-- No job is being dispatched by two workers. -/
def Fleet.Exclusive (s : Fleet) : Prop :=
  ∀ (id i j : Nat) (w w' : Worker), s.workers[i]? = some w → s.workers[j]? = some w' →
    w.dispatches id = true →
    w'.dispatches id = true → i = j

/-- The worker holds a job, being dispatched or still to be, for longer than the reaper waits. -/
def Worker.overdue (now : Instant) (w : Worker) : Bool :=
  match w.phase with
  | .batch claimedAt _ _ _ => decide (claimedAt < now - seconds stuckLockSecs)
  | _ => false

/-- No reaping while a worker is overdue with a batch. -/
def punctual (s : Fleet) : FleetEvent → Bool
  | .worker _ (.reap true) => s.workers.all fun w => !w.overdue s.now
  | _ => true

/-- The jobs of what is left of the worker's batch. -/
def Phase.held : Phase → List Nat
  | .batch _ _ job rest => (job :: rest).map Job.id
  | _ => []

def heldJobs (workers : List Worker) : List Nat := workers.flatMap fun w => w.phase.held

/-- The rows of what is left of the batch carry the lock of its claim. -/
def Phase.Backed (t : JobTable) : Phase → Prop
  | .batch claimedAt _ job rest => ∀ id ∈ (job :: rest).map Job.id, t.Locked id claimedAt
  | _ => True

/-- The invariant: every held job is locked since its holder's claim, and no job is held twice. -/
structure Fleet.Owned (s : Fleet) : Prop where
  backed : ∀ w ∈ s.workers, w.phase.Backed s.jobs
  nodup : (heldJobs s.workers).Nodup

section

variable {serdeError : Value → Text} {now : Instant} {t t' : JobTable} {w w' : Worker}
  {e : WorkerEvent}

theorem Phase.Backed.mono {p : Phase} (h : p.Backed t)
    (ht : ∀ id ∈ p.held, ∀ since, t.Locked id since → t'.Locked id since) : p.Backed t' := by
  cases p with
  | batch claimedAt stage job rest => exact fun id hid => ht id hid claimedAt (h id hid)
  | _ => trivial

theorem held_nextPhase (claimedAt : Instant) (rest : List Job) :
    (nextPhase claimedAt rest).held = rest.map Job.id := by
  cases rest <;> rfl

theorem held_afterClaim (now : Instant) (claimed : List Job) :
    (afterClaim now claimed).held = claimed.map Job.id := by
  cases claimed <;> rfl

private theorem backed_nextPhase {claimedAt : Instant} {rest : List Job}
    (h : ∀ id ∈ rest.map Job.id, t.Locked id claimedAt) : (nextPhase claimedAt rest).Backed t := by
  cases rest with
  | nil => trivial
  | cons job rest => exact h

private theorem backed_afterClaim {claimed : List Job}
    (h : ∀ id ∈ claimed.map Job.id, t.Locked id now) :
    (afterClaim now claimed).Backed t := by
  cases claimed with
  | nil => trivial
  | cons job rest => exact h

/-- Writing one job back leaves the locks of the others. -/
theorem locked_settle {id : Nat} {since : Instant} {job : Job} {jitterMs : Nat} (how : Settlement)
    (hne : id ≠ job.id) (h : t.Locked id since) :
    (how.apply t now job jitterMs).Locked id since := by
  cases how <;> exact h.update fun row hrow _ _ => decide_eq_false (hrow ▸ hne)

/-- What a step of a worker does: it claims, or it holds no job, or it goes on with the batch it
holds, leaving the table as it is or writing back the first job. -/
theorem workerStep_cases (h : workerStep serdeError now t w e = some (t', w')) :
    (∃ skipped rank, w.phase.held = [] ∧ (t', w'.phase) =
        ((t.claimBatch now w.workerId batchSize skipped rank).2,
          afterClaim now (t.claimBatch now w.workerId batchSize skipped rank).1)) ∨
      (w.phase.held = [] ∧ w'.phase.held = [] ∧
        (t' = t ∨ e = .reap true ∧ t' = t.reapStuck now stuckLockSecs)) ∨
      (∃ claimedAt stage job rest, w.phase = .batch claimedAt stage job rest ∧
        ((t' = t ∧ ∃ stage', w'.phase = .batch claimedAt stage' job rest) ∨
          (w'.phase = nextPhase claimedAt rest ∧
            ∀ id since, id ≠ job.id → t.Locked id since → t'.Locked id since))) := by
  cases e with
  | check =>
    obtain ⟨hphase, heq⟩ := workerStep_check.1 h
    cases heq
    refine Or.inr (Or.inl ⟨by rw [hphase]; rfl, ?_, Or.inl rfl⟩)
    rw [Worker.goto_phase]
    split
    · rfl
    · split <;> rfl
  | reap succeeds =>
    obtain ⟨hphase, heq⟩ := workerStep_reap.1 h
    cases heq
    refine Or.inr (Or.inl ⟨by rw [hphase]; rfl, rfl, ?_⟩)
    cases succeeds
    · exact Or.inl rfl
    · exact Or.inr ⟨rfl, rfl⟩
  | claim skipped rank =>
    obtain ⟨hphase, heq⟩ := workerStep_claim.1 h
    cases heq
    exact Or.inl ⟨skipped, rank, by rw [hphase]; rfl, rfl⟩
  | claimFails =>
    obtain ⟨hphase, heq⟩ := workerStep_claimFails.1 h
    cases heq
    exact Or.inr (Or.inl ⟨by rw [hphase]; rfl, rfl, Or.inl rfl⟩)
  | wake =>
    obtain ⟨since, notifiable, hphase, -, heq⟩ := workerStep_wake.1 h
    cases heq
    exact Or.inr (Or.inl ⟨by rw [hphase]; rfl, rfl, Or.inl rfl⟩)
  | wakeForShutdown =>
    obtain ⟨since, notifiable, hphase, -, heq⟩ := workerStep_wakeForShutdown.1 h
    cases heq
    exact Or.inr (Or.inl ⟨by rw [hphase]; rfl, rfl, Or.inl rfl⟩)
  | next =>
    obtain ⟨claimedAt, job, rest, hphase, heq⟩ := workerStep_next.1 h
    cases heq
    exact Or.inr (Or.inr ⟨claimedAt, _, job, rest, hphase, Or.inl ⟨rfl, _, rfl⟩⟩)
  | returned result =>
    obtain ⟨claimedAt, since, job, rest, hphase, -, heq⟩ := workerStep_returned.1 h
    cases heq
    exact Or.inr (Or.inr ⟨claimedAt, _, job, rest, hphase, Or.inl ⟨rfl, _, rfl⟩⟩)
  | settle succeeds jitterMs =>
    obtain ⟨claimedAt, how, job, rest, hphase, heq⟩ := workerStep_settle.1 h
    cases heq
    -- the write-back unlocks the row of its job only
    refine Or.inr (Or.inr ⟨claimedAt, _, job, rest, hphase,
      Or.inr ⟨rfl, fun id since hne hlocked => ?_⟩⟩)
    cases succeeds
    · exact hlocked
    · exact locked_settle how hne hlocked
  | release succeeds jitterMs =>
    obtain ⟨claimedAt, job, rest, hphase, heq⟩ := workerStep_release.1 h
    cases heq
    refine Or.inr (Or.inr ⟨claimedAt, _, job, rest, hphase,
      Or.inr ⟨rfl, fun id since hne hlocked => ?_⟩⟩)
    cases succeeds
    · exact hlocked
    · exact locked_settle (.failRetry _) hne hlocked

/-- A step that keeps the locks of what the other workers hold. -/
theorem Fleet.Owned.replace {now' : Instant} {pre post : List Worker}
    (h : Fleet.Owned ⟨now, t, pre ++ w :: post⟩)
    (ht : ∀ id ∈ heldJobs (pre ++ post), ∀ since, t.Locked id since → t'.Locked id since)
    (hbacked : w'.phase.Backed t') (hnodup : w'.phase.held.Nodup)
    (hdisjoint : ∀ id ∈ w'.phase.held, id ∉ heldJobs (pre ++ post)) :
    Fleet.Owned ⟨now', t', pre ++ w' :: post⟩ := by
  have hmiddle :
      ∀ u : Worker, (heldJobs (pre ++ u :: post)).Perm (u.phase.held ++ heldJobs (pre ++ post)) :=
    fun u => List.Perm.flatMap_right _ List.perm_middle
  constructor
  · intro u hu
    have hkeep : ∀ u ∈ pre ++ post, u.phase.Backed t' := by
      intro u hu
      have hmem : u ∈ pre ++ w :: post := by
        rcases List.mem_append.1 hu with hu | hu
        · exact List.mem_append_left _ hu
        · exact List.mem_append_right _ (List.mem_cons_of_mem _ hu)
      exact (h.backed u hmem).mono fun id hid => ht id (List.mem_flatMap.2 ⟨u, hu, hid⟩)
    rcases List.mem_append.1 hu with hu | hu
    · exact hkeep u (List.mem_append_left _ hu)
    · rcases List.mem_cons.1 hu with rfl | hu
      · exact hbacked
      · exact hkeep u (List.mem_append_right _ hu)
  · have hothers := (List.nodup_append.1 ((hmiddle w).nodup_iff.1 h.nodup)).2.1
    refine (hmiddle w').nodup_iff.2 (List.nodup_append.2 ⟨hnodup, hothers, ?_⟩)
    rintro id hid _ hid' rfl
    exact hdisjoint id hid hid'

/-- What a worker holds is locked since its claim. -/
theorem Fleet.Owned.locked {s : Fleet} (h : s.Owned) {id : Nat} (hid : id ∈ heldJobs s.workers) :
    ∃ u ∈ s.workers, ∃ claimedAt stage job rest, u.phase = .batch claimedAt stage job rest ∧
      s.jobs.Locked id claimedAt := by
  obtain ⟨u, hu, hid⟩ := List.mem_flatMap.1 hid
  have hbacked := h.backed u hu
  cases hphase : u.phase with
  | batch claimedAt stage job rest =>
    rw [hphase] at hbacked hid
    exact ⟨u, hu, claimedAt, stage, job, rest, hphase, hbacked id hid⟩
  | _ =>
    rw [hphase] at hid
    exact absurd hid List.not_mem_nil

/-- The reaper leaves the locks of the workers that are not overdue. -/
theorem Fleet.Owned.reapStuck {s : Fleet} (h : s.Owned)
    (hpunctual : ∀ u ∈ s.workers, u.overdue s.now = false) {id : Nat}
    (hid : id ∈ heldJobs s.workers) {since : Instant} (hlocked : s.jobs.Locked id since) :
    (s.jobs.reapStuck s.now stuckLockSecs).Locked id since := by
  obtain ⟨u, hu, claimedAt, stage, job, rest, hphase, hclaim⟩ := h.locked hid
  have hfresh := hpunctual u hu
  rw [Worker.overdue, hphase] at hfresh
  have hsince : s.now - seconds stuckLockSecs ≤ since := by
    rw [hlocked.unique hclaim]
    exact not_lt.1 (of_decide_eq_false hfresh)
  exact hlocked.reapStuck hsince

private theorem heldJobs_sublist (pre post : List Worker) (w : Worker) :
    (heldJobs (pre ++ post)).Sublist (heldJobs (pre ++ w :: post)) := by
  rw [heldJobs, heldJobs, List.flatMap_append, List.flatMap_append, List.flatMap_cons]
  exact (List.Sublist.refl _).append (List.sublist_append_right _ _)

/-- A step of a worker keeps the invariant, unless it reaps the lock of a held job. -/
theorem Fleet.Owned.worker {pre post : List Worker} (h : Fleet.Owned ⟨now, t, pre ++ w :: post⟩)
    (hpunctual : e = .reap true → ∀ u ∈ pre ++ w :: post, u.overdue now = false)
    (hstep : workerStep serdeError now t w e = some (t', w')) :
    Fleet.Owned ⟨now, t', pre ++ w' :: post⟩ := by
  have hothers : ∀ id ∈ heldJobs (pre ++ post), id ∈ heldJobs (pre ++ w :: post) :=
    fun id hid => (heldJobs_sublist pre post w).subset hid
  have hw : w ∈ pre ++ w :: post := List.mem_append_right _ List.mem_cons_self
  have hown := (List.nodup_append.1
    ((List.Perm.flatMap_right _ List.perm_middle).nodup_iff.1 h.nodup))
  rcases workerStep_cases hstep with ⟨skipped, rank, -, hclaim⟩ | ⟨-, hheld, htable⟩ |
    ⟨claimedAt, stage, job, rest, hphase, ⟨rfl, stage', hphase'⟩ | ⟨hphase', htable⟩⟩
  · -- the claimed rows were pending, the held ones are in progress
    obtain ⟨rfl, hphase'⟩ := Prod.mk.injEq .. ▸ hclaim
    refine h.replace (fun id _ since hlocked => hlocked.claimBatch) ?_ ?_ ?_
    · rw [hphase']
      refine backed_afterClaim fun id hid => ?_
      obtain ⟨job, hjob, rfl⟩ := List.mem_map.1 hid
      exact (JobTable.mem_claimBatch hjob).2
    · rw [hphase', held_afterClaim]
      exact JobTable.claimBatch_nodup
    · rw [hphase', held_afterClaim]
      intro id hid hheld
      obtain ⟨job, hjob, rfl⟩ := List.mem_map.1 hid
      obtain ⟨u, -, claimedAt, stage, first, rest, -, hlocked⟩ := h.locked (hothers _ hheld)
      exact hlocked.notMem_picked (JobTable.mem_claimBatch hjob).1
  · -- a reap unlocks no job that is held
    refine h.replace ?_ ?_ (hheld ▸ List.nodup_nil) (fun id hid =>
      absurd (hheld ▸ hid) List.not_mem_nil)
    · rcases htable with rfl | ⟨rfl, rfl⟩
      · exact fun id _ since hlocked => hlocked
      · exact fun id hid since hlocked => h.reapStuck (hpunctual rfl) (hothers id hid) hlocked
    · revert hheld
      cases w'.phase with
      | batch => exact fun hheld => absurd hheld (List.cons_ne_nil _ _)
      | _ => exact fun _ => trivial
  · refine h.replace (fun id _ since hlocked => hlocked) ?_ ?_ ?_
    · have hbacked := h.backed w hw
      rw [hphase] at hbacked
      rw [hphase']
      exact hbacked
    · rw [hphase']
      rw [hphase] at hown
      exact hown.1
    · rw [hphase']
      rw [hphase] at hown
      exact fun id hid hid' => hown.2.2 id hid id hid' rfl
  · -- the first job is written back, and the rest of the batch stays locked
    have hbacked := h.backed w hw
    rw [hphase] at hbacked hown
    have hfirst : job.id ∉ rest.map Job.id := (List.nodup_cons.1 hown.1).1
    refine h.replace ?_ ?_ ?_ ?_
    · intro id hid since hlocked
      exact htable id since (fun heq => hown.2.2 _ List.mem_cons_self id hid heq.symm) hlocked
    · rw [hphase']
      refine backed_nextPhase fun id hid => ?_
      exact htable id claimedAt (fun heq => hfirst (heq ▸ hid))
        (hbacked id (List.mem_cons_of_mem _ hid))
    · rw [hphase', held_nextPhase]
      exact (List.nodup_cons.1 hown.1).2
    · rw [hphase', held_nextPhase]
      exact fun id hid hid' => hown.2.2 id (List.mem_cons_of_mem _ hid) id hid' rfl

/-- The invariant is one of the table and of what the workers hold. -/
theorem Fleet.Owned.congr {s : Fleet} (h : s.Owned) {now' : Instant} {workers : List Worker}
    (ht : ∀ id since, s.jobs.Locked id since → t'.Locked id since)
    (hphase : workers.map Worker.phase = s.workers.map Worker.phase) :
    Fleet.Owned ⟨now', t', workers⟩ := by
  constructor
  · intro u hu
    have hmem : u.phase ∈ s.workers.map Worker.phase := hphase ▸ List.mem_map_of_mem hu
    obtain ⟨v, hv, hphase'⟩ := List.mem_map.1 hmem
    rw [← hphase']
    exact (h.backed v hv).mono fun id _ => ht id
  · have hheld : ∀ us : List Worker, heldJobs us = (us.map Worker.phase).flatMap Phase.held := by
      intro us
      rw [List.flatMap_map, heldJobs]
    rw [hheld, hphase, ← hheld]
    exact h.nodup

private theorem owned_step {s s' : Fleet} {e : FleetEvent} (h : s.Owned)
    (hpunctual : punctual s e = true) (hstep : fleetStep serdeError s e = some s') : s'.Owned := by
  cases e with
  | tick dt =>
    simp only [fleetStep, Option.some.injEq] at hstep
    subst hstep
    exact h.congr (fun _ _ hlocked => hlocked) rfl
  | enqueue kind payload delaySecs =>
    simp only [fleetStep, Option.some.injEq] at hstep
    subst hstep
    exact h.congr (fun _ _ hlocked => hlocked.enqueue) rfl
  | spawn workerId replica =>
    simp only [fleetStep, Option.some.injEq] at hstep
    subst hstep
    refine ⟨fun u hu => ?_, h.nodup⟩
    rcases List.mem_cons.1 hu with rfl | hu
    · trivial
    · exact h.backed u hu
  | crash i =>
    have hsplit := List.take_append_drop i s.workers
    simp only [fleetStep] at hstep
    split at hstep
    · cases hstep
    · rename_i w rest hdrop
      rw [hdrop] at hsplit
      simp only [Option.some.injEq] at hstep
      subst hstep
      have hs : Fleet.Owned ⟨s.now, s.jobs, s.workers.take i ++ w :: rest⟩ := by
        rw [hsplit]
        exact h
      exact hs.replace (fun _ _ _ hlocked => hlocked) trivial List.nodup_nil fun _ hid =>
        absurd hid List.not_mem_nil
  | trigger replica =>
    simp only [fleetStep, Option.some.injEq] at hstep
    subst hstep
    refine h.congr (fun _ _ hlocked => hlocked) ?_
    rw [List.map_map]
    refine List.map_congr_left fun u _ => ?_
    simp only [Function.comp]
    split <;> rfl
  | worker i e =>
    have hsplit := List.take_append_drop i s.workers
    simp only [fleetStep] at hstep
    split at hstep
    · cases hstep
    · rename_i w rest hdrop
      rw [hdrop] at hsplit
      obtain ⟨⟨t', w'⟩, hworker, rfl⟩ := Option.map_eq_some_iff.1 hstep
      have hs : Fleet.Owned ⟨s.now, s.jobs, s.workers.take i ++ w :: rest⟩ := by
        rw [hsplit]
        exact h
      refine hs.worker ?_ hworker
      rintro rfl
      rw [hsplit]
      simpa [punctual] using hpunctual

private theorem held_of_dispatches {id : Nat} (h : w.dispatches id = true) : id ∈ w.phase.held := by
  rw [Worker.dispatches] at h
  split at h
  · rename_i hphase
    rw [hphase, ← of_decide_eq_true h]
    exact List.mem_cons_self
  · cases h

/-- Two workers that hold the same job are the same worker. -/
theorem Fleet.Owned.exclusive {s : Fleet} (h : s.Owned) : s.Exclusive := by
  have hpairwise := List.pairwise_iff_getElem.1 (List.nodup_flatMap.1 h.nodup).2
  intro id i j w w' hi hj hw hw'
  obtain ⟨hi', rfl⟩ := List.getElem?_eq_some_iff.1 hi
  obtain ⟨hj', rfl⟩ := List.getElem?_eq_some_iff.1 hj
  rcases lt_trichotomy i j with hlt | heq | hgt
  · exact absurd (held_of_dispatches hw') (hpairwise i j hi' hj' hlt (held_of_dispatches hw))
  · exact heq
  · exact absurd (held_of_dispatches hw) (hpairwise j i hj' hi' hgt (held_of_dispatches hw'))

end

/-- In a run without a reaping while a worker is overdue with its batch, no job is dispatched by two
workers at once. -/
theorem dispatch_exclusive (serdeError : Value → Text) {s t : Fleet} {es : List FleetEvent}
    (hs : s.workers = [])
    (hrun : (fleetSystem serdeError).Run (fun s e _ => punctual s e = true) s es t) :
    t.Exclusive := by
  have hinit : s.Owned := by
    constructor
    · rw [hs]
      exact fun w hw => absurd hw List.not_mem_nil
    · rw [hs]
      exact List.nodup_nil
  have howned : t.Owned :=
    hrun.invariant (fun _ _ _ h hpunctual hstep => owned_step h hpunctual hstep) hinit
  exact howned.exclusive

/-! ### A job dispatched twice -/

/-- No dispatch takes longer than the given time. -/
def shortDispatches (secs : Nat) (s : Fleet) : FleetEvent → Bool
  | .tick dt => s.workers.all fun w =>
    match w.phase with
    | .batch _ (.dispatching since) _ _ => decide (s.now + dt ≤ since + seconds secs)
    | _ => true
  | _ => true

/-- Two jobs in the queue, a worker that claims both and one that claims nothing yet. -/
def claimPair : List FleetEvent :=
  [.enqueue .playerSync (PlayerSyncPayload.updated "ann".toList).toValue 0,
    .enqueue .playerSync (PlayerSyncPayload.updated "bob".toList).toValue 0,
      .spawn "job-worker-0".toList 0,
    .spawn "job-worker-0".toList 1, .worker 1 .check, .worker 1 (.claim [] id), .worker 1 .next]

/-- The first job takes half an hour.  The second is under way when the other worker reaps the lock
of the batch, claims the job and dispatches it as well. -/
def dispatchTwice : List FleetEvent :=
  claimPair ++
    [.tick 1800000000000, .worker 1 (.returned (.error (.retry []))), .worker 1 (.settle true 0),
      .worker 1 .next,
      .tick 901000000000, .worker 0 .check, .worker 0 (.reap true), .worker 0 (.claim [1] id),
        .worker 0 .next]

def emptyFleet : Fleet := ⟨0, .empty, []⟩

/-- Dispatches within half an hour, the longest that a sync is meant to take, are not enough. -/
theorem not_dispatch_exclusive :
    ¬ ∀ (serdeError : Value → Text) (s t : Fleet) (es : List FleetEvent), s.workers = [] →
      (fleetSystem serdeError).Run (fun s e _ => shortDispatches 1800 s e = true) s es t →
        t.Exclusive := by
  intro h
  have htwice : ((fleetSystem fun _ => []).check (fun s e _ =>
    shortDispatches 1800 s e) emptyFleet dispatchTwice).any
      (fun t => (t.workers.map (Worker.dispatches 2)) = [true, true]) = true := by decide
  obtain ⟨t, ht, htwice⟩ := (Option.any_eq_true _ _).1 htwice
  have htwice := of_decide_eq_true htwice
  match hworkers : t.workers with
  | [w, w'] =>
    rw [hworkers] at htwice
    simp only [List.map_cons, List.map_nil, List.cons.injEq, and_true] at htwice
    have hexclusive := h (fun _ => []) emptyFleet t dispatchTwice rfl (System.Run.of_check ht)
    have hsame := hexclusive 2 0 1 w w' (by rw [hworkers]; rfl)
      (by rw [hworkers]; rfl) htwice.1 htwice.2
    cases hsame
  | [] => simp [hworkers] at htwice
  | [_] => simp [hworkers] at htwice
  | _ :: _ :: _ :: _ => simp [hworkers] at htwice

/-- The same jobs with the first written back in time: the other worker finds nothing to reap. -/
def dispatchOnce : List FleetEvent :=
  claimPair ++
    [.tick 1200000000000, .worker 1 (.returned (.error (.retry []))), .worker 1 (.settle true 0),
      .worker 1 .next,
      .worker 0 .check, .worker 0 (.reap true), .worker 0 (.claim [] id)]

theorem dispatch_exclusive_once :
    ∃ t, (fleetSystem fun _ => []).exec emptyFleet dispatchOnce = some t ∧ t.Exclusive ∧
      (t.workers.map (Worker.dispatches 2)) = [false, true] := by
  have honce : ((fleetSystem fun _ => []).check (fun s e _ =>
    punctual s e) emptyFleet dispatchOnce).any
      (fun t => (t.workers.map (Worker.dispatches 2)) = [false, true]) = true := by decide
  obtain ⟨t, ht, honce⟩ := (Option.any_eq_true _ _).1 honce
  have hrun := System.Run.of_check ht
  exact ⟨t, hrun.exec_eq, dispatch_exclusive (fun _ => []) rfl hrun, of_decide_eq_true honce⟩

end FormRespondentRole
