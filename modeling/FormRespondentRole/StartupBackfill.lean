import FormRespondentRole.Database
import FormRespondentRole.JobRows

/-!
# The startup backfill

Every replica calls `resync_all_form_links` whenever it starts.  A call is one transaction, which
inserts the marker of the backfill and then the jobs; until it ends, an insertion of the same marker
waits.  A call may fail or die at every step, and the database rolls its transaction back some time
later.  Meanwhile links are saved and jobs are worked on.
-/

namespace FormRespondentRole

open Foundations

def membershipResync : Text := "membership_model_resync_v3".toList

/-- A row of `startup_backfills`. -/
structure StartupBackfill where
  name : Text
  completedAt : Instant

/-- Where a call stands; `since` is the time of its transaction. -/
inductive Boot
  | starting
  | begun (since : Instant)
  | claimed (since : Instant)
  /-- The marker was there. -/
  | refused
  | enqueued (since : Instant) (links : List LinkKey)
  /-- The call has ended before its transaction; `holding` if that has inserted the marker. -/
  | gone (holding : Bool)
  | ended

/-- Its transaction has inserted the marker. -/
def Boot.holds : Boot → Bool
  | claimed _ | enqueued .. => true
  | gone holding => holding
  | _ => false

structure Replicas where
  now : Instant
  roleLinks : Table RoleLink.key
  jobs : JobTable
  startupBackfills : Table StartupBackfill.name
  boots : List Boot

inductive BootEvent
  | begin
  | claim
  | enqueue
  /-- Carried out, whatever the call is told. -/
  | commit
  /-- An error, or the end of the process. -/
  | giveUp
  | rollback

inductive ReplicaEvent
  | tick (dt : Nat)
  /-- A replica starts. -/
  | start
  | boot (i : Nat) (e : BootEvent)
  /-- Others change the links. -/
  | link (roleLinks : Table RoleLink.key)
  | job (c : JobCall)

/-- The links bound to a form. -/
def formBound (links : Table RoleLink.key) : List LinkKey :=
  (links.rows.filter (·.formId.isSome)).map RoleLink.key

def JobTable.enqueueResyncs (since : Instant) : List LinkKey → JobTable → JobTable
  | [], t => t
  | key :: keys, t =>
    enqueueResyncs since keys
      (t.enqueue since .configSync (configSyncPayload key.1 key.2) configSyncDelaySecs)

namespace Replicas

/-- The marker is there for everyone. -/
def Marked (s : Replicas) : Prop :=
  membershipResync ∈ s.startupBackfills.rows.map StartupBackfill.name

instance (s : Replicas) : Decidable s.Marked := inferInstanceAs (Decidable (_ ∈ _))

/-- What the commit of a call leaves. -/
def committed (s : Replicas) (since : Instant) (links : List LinkKey) : Replicas :=
  if h : membershipResync ∉ s.startupBackfills.rows.map StartupBackfill.name then
    { s with
      jobs := s.jobs.enqueueResyncs since links
      startupBackfills := s.startupBackfills.insert ⟨membershipResync, since⟩ h }
  else s

end Replicas

/-- A step of one call among the others. -/
def bootStep (s : Replicas) (others : List Boot) (b : Boot) : BootEvent → Option (Replicas × Boot)
  | .begin =>
    match b with
    | .starting => some (s, .begun s.now)
    | _ => none
  | .claim =>
    match b with
    | .begun since =>
      if s.Marked then some (s, .refused)
      -- the insertion waits for a transaction that has inserted the marker
      else if others.any Boot.holds then none
      else some (s, .claimed since)
    | _ => none
  | .enqueue =>
    match b with
    | .claimed since => some (s, .enqueued since (formBound s.roleLinks))
    | _ => none
  | .commit =>
    match b with
    | .enqueued since links => some (s.committed since links, .ended)
    | _ => none
  | .giveUp =>
    match b with
    | .gone _ | .ended => none
    | b => some (s, .gone b.holds)
  | .rollback =>
    match b with
    | .refused | .gone _ => some (s, .ended)
    | _ => none

def replicaStep (s : Replicas) : ReplicaEvent → Option Replicas
  | .tick dt => some { s with now := s.now + dt }
  | .start => some { s with boots := s.boots ++ [.starting] }
  | .boot i e =>
    match partyAt s.boots i with
    | none => none
    | some (pre, b, post) => (bootStep s (pre ++ post) b e).map fun r =>
      { r.1 with boots := pre ++ r.2 :: post }
  | .link roleLinks => some { s with roleLinks := roleLinks }
  | .job c => some { s with jobs := s.jobs.call s.now c }

def replicaSystem : System Replicas ReplicaEvent := ⟨replicaStep⟩

/-! ### The record of a run -/

/-- The links that the last enqueuing statement saw, and for each commit the links it went by and
the ids of its jobs. -/
structure BackfillRecord where
  seen : Table RoleLink.key := Table.empty
  batches : List (Table RoleLink.key × List Nat) := []

def backfillNote (r : BackfillRecord) (s : Replicas) : ReplicaEvent → BackfillRecord
  | .boot _ .enqueue => { r with seen := s.roleLinks }
  | .boot i .commit =>
    match partyAt s.boots i with
    | some (_, .enqueued _ links, _) =>
      { r with batches := r.batches ++ [(r.seen, List.range' s.jobs.nextId links.length)] }
    | _ => r
  | _ => r

/-! ### Steps -/

section

variable {s s' : Replicas} {others : List Boot} {b b' : Boot} {e : BootEvent}

/-- What a step of a call can do. -/
theorem bootStep_cases (h : bootStep s others b e = some (s', b')) :
    (e ≠ .enqueue ∧ e ≠ .commit ∧ s' = s ∧ (b'.holds = true → b.holds = true) ∧
      ∀ since links, b' ≠ .enqueued since links) ∨
    (∃ since, e = .claim ∧ ¬s.Marked ∧ others.any Boot.holds = false ∧ s' = s ∧ b = .begun since ∧
      b' = .claimed since) ∨
    (∃ since, e = .enqueue ∧ s' = s ∧ b = .claimed since ∧
      b' = .enqueued since (formBound s.roleLinks)) ∨
    ∃ since links, e = .commit ∧ s' = s.committed since links ∧ b = .enqueued since links ∧
      b' = .ended := by
  cases e with
  | begin =>
    cases b with
    | starting =>
      cases h
      exact Or.inl ⟨nofun, nofun, rfl, nofun, nofun⟩
    | _ => cases h
  | claim =>
    cases b with
    | begun since =>
      simp only [bootStep] at h
      by_cases hmarked : s.Marked
      · rw [if_pos hmarked] at h
        cases h
        exact Or.inl ⟨nofun, nofun, rfl, nofun, nofun⟩
      · rw [if_neg hmarked] at h
        -- the `INSERT` waits for a call that has the key
        by_cases hwaits : others.any Boot.holds = true
        · rw [if_pos hwaits] at h
          cases h
        · rw [if_neg hwaits] at h
          cases h
          exact Or.inr (Or.inl ⟨since, rfl, hmarked, Bool.not_eq_true _ ▸ hwaits, rfl, rfl, rfl⟩)
    | _ => cases h
  | enqueue =>
    cases b with
    | claimed since =>
      cases h
      exact Or.inr (Or.inr (Or.inl ⟨since, rfl, rfl, rfl, rfl⟩))
    | _ => cases h
  | commit =>
    cases b with
    | enqueued since links =>
      cases h
      exact Or.inr (Or.inr (Or.inr ⟨since, links, rfl, rfl, rfl, rfl⟩))
    | _ => cases h
  | giveUp =>
    cases b with
    | gone holding => cases h
    | ended => cases h
    | _ =>
      cases h
      exact Or.inl ⟨nofun, nofun, rfl, fun h => h, nofun⟩
  | rollback =>
    cases b with
    | refused =>
      cases h
      exact Or.inl ⟨nofun, nofun, rfl, nofun, nofun⟩
    | gone holding =>
      cases h
      exact Or.inl ⟨nofun, nofun, rfl, nofun, nofun⟩
    | _ => cases h

private theorem replicaStep_boot {i : Nat} (h : replicaStep s (.boot i e) = some s') :
    ∃ pre b post u b', partyAt s.boots i = some (pre, b, post) ∧
      bootStep s (pre ++ post) b e = some (u, b') ∧
      s' = { u with boots := pre ++ b' :: post } := by
  simp only [replicaStep] at h
  split at h
  · cases h
  · rename_i pre b post hparty
    obtain ⟨⟨u, b'⟩, hstep, rfl⟩ := Option.map_eq_some_iff.1 h
    exact ⟨pre, b, post, u, b', hparty, hstep, rfl⟩

end

/-! ### The jobs of a batch -/

/-- The job with this id re-syncs this link. -/
def Resyncs (t : JobTable) (key : LinkKey) (id : Nat) : Prop :=
  ∃ row ∈ t.rows, row.id = id ∧ row.kind = JobKind.configSync.asStr ∧
    row.payload = configSyncPayload key.1 key.2

theorem Resyncs.call {t : JobTable} {key : LinkKey} {id : Nat} (now : Instant) (c : JobCall)
    (h : Resyncs t key id) :
    Resyncs (t.call now c) key id := by
  obtain ⟨row, hrow, hid, hkind, hpayload⟩ := h
  obtain ⟨row', hrow', hsame⟩ := JobTable.same_call hrow now c
  exact ⟨row', hrow', hsame.id.trans hid, hsame.kind.trans hkind, hsame.payload.trans hpayload⟩

private theorem mem_enqueueResyncs {since : Instant} {links : List LinkKey} {t : JobTable}
    {row : JobRow} (hrow : row ∈ t.rows) :
    row ∈ (t.enqueueResyncs since links).rows := by
  induction links generalizing t with
  | nil => exact hrow
  | cons key keys ih => exact ih (List.mem_append_left _ hrow)

private theorem length_enqueueResyncs (since : Instant) (links : List LinkKey) (t : JobTable) :
    (t.enqueueResyncs since links).rows.length = t.rows.length + links.length := by
  induction links generalizing t with
  | nil => rfl
  | cons key keys ih =>
    have henqueue : (t.enqueue since .configSync
      (configSyncPayload key.1 key.2) configSyncDelaySecs).rows.length =
        t.rows.length + 1 := List.length_append
    rw [JobTable.enqueueResyncs, ih, henqueue, List.length_cons]
    omega

/-- The statement enqueues one job for each link. -/
theorem resyncs_enqueueResyncs (since : Instant) (links : List LinkKey) (t : JobTable) :
    List.Forall₂ (Resyncs (t.enqueueResyncs since links)) links
    (List.range' t.nextId links.length) := by
  induction links generalizing t with
  | nil => exact List.Forall₂.nil
  | cons key keys ih =>
    rw [List.length_cons, List.range'_succ, JobTable.enqueueResyncs]
    refine List.Forall₂.cons ?_ (ih _)
    exact ⟨_, mem_enqueueResyncs (List.mem_append_right _ List.mem_cons_self), rfl, rfl, rfl⟩

/-! ### The invariant -/

/-- At most one call holds the marker, and only before it is there; what it has enqueued is what its
statement saw. -/
abbrev Exclusive (s : Replicas) (seen : Table RoleLink.key) (boots : List Boot) : Prop :=
  Parties (fun b => (s.Marked → b.holds = false) ∧ ∀ since links, b = .enqueued since links →
    links = formBound seen)
    (fun b c => ¬(b.holds = true ∧ c.holds = true)) boots

/-- The marker is there with the jobs of one batch, or neither is. -/
structure Recorded (s : Replicas) (r : BackfillRecord) : Prop where
  exclusive : Exclusive s r.seen s.boots
  once : (s.Marked ∧ r.batches.length = 1) ∨ (¬s.Marked ∧ r.batches = [])
  jobs : ∀ batch ∈ r.batches, List.Forall₂ (Resyncs s.jobs) (formBound batch.1) batch.2 ∧
    batch.2.Nodup

private theorem holds_symm {b c : Boot} (h : ¬(b.holds = true ∧ c.holds = true)) :
    ¬(c.holds = true ∧ b.holds = true) :=
  fun hbc => h hbc.symm

private theorem marked_committed {s : Replicas} {since : Instant} {links : List LinkKey} :
    (s.committed since links).Marked := by
  rw [Replicas.committed]
  split
  · exact List.mem_map_of_mem (List.mem_append_right _ List.mem_cons_self)
  · rename_i h
    exact not_not.1 h

section

variable {s s' : Replicas} {r : BackfillRecord} {pre post : List Boot} {b b' : Boot}

/-- A call moves within its transaction. -/
theorem Recorded.moves (h : Recorded s r) (hboots : s.boots = pre ++ b :: post)
    (hholds : b'.holds = true → b.holds = true)
    (hlinks : ∀ since links, b' ≠ .enqueued since links) :
    Recorded { s with boots := pre ++ b' :: post } r := by
  have hexclusive := h.exclusive
  rw [hboots] at hexclusive
  have hb := hexclusive.each b (List.mem_append_right _ List.mem_cons_self)
  refine ⟨hexclusive.replace holds_symm holds_symm (fun _ _ hc => hc) (fun _ _ hcd => hcd)
    ⟨fun hmarked => ?_, ?_⟩ ?_, h.once,
    h.jobs⟩
  · by_contra hheld
    rw [Bool.not_eq_false] at hheld
    rw [hb.1 hmarked] at hholds
    exact Bool.false_ne_true (hholds hheld)
  · exact fun since links heq => absurd heq (hlinks since links)
  · rintro c hc ⟨hheld, hcheld⟩
    exact hexclusive.apart holds_symm c hc ⟨hholds hheld, hcheld⟩

/-- A call inserts the marker in its transaction. -/
theorem Recorded.claims {since : Instant} (h : Recorded s r) (hboots : s.boots = pre ++ b :: post)
    (hmarked : ¬s.Marked) (hfree : (pre ++ post).any Boot.holds = false) :
    Recorded { s with boots := pre ++ .claimed since :: post } r := by
  have hexclusive := h.exclusive
  rw [hboots] at hexclusive
  refine ⟨hexclusive.replace holds_symm holds_symm (fun _ _ hc => hc) (fun _ _ hcd => hcd)
    ⟨fun hm => absurd hm hmarked, nofun⟩ ?_, h.once, h.jobs⟩
  rintro c hc ⟨-, hcheld⟩
  rw [List.any_eq_false] at hfree
  exact hfree c hc hcheld

/-- A call enqueues the jobs in its transaction. -/
theorem Recorded.enqueues {since : Instant} (h : Recorded s r)
    (hboots : s.boots = pre ++ .claimed since :: post) :
    Recorded { s with boots := pre ++ .enqueued since (formBound s.roleLinks) :: post }
    { r with seen := s.roleLinks } := by
  have hexclusive := h.exclusive
  rw [hboots] at hexclusive
  have hb := hexclusive.each (.claimed since) (List.mem_append_right _ List.mem_cons_self)
  refine ⟨hexclusive.replace holds_symm holds_symm (fun c hc hPc =>
    ⟨hPc.1, fun since' links heq => ?_⟩)
    (fun _ _ hcd => hcd) ⟨fun hmarked => ?_, ?_⟩ ?_, h.once, h.jobs⟩
  · exact absurd ⟨rfl, by rw [heq]; rfl⟩ (hexclusive.apart holds_symm c hc)
  · cases hb.1 hmarked
  · intro since' links heq
    cases heq
    rfl
  · rintro c hc ⟨-, hcheld⟩
    exact hexclusive.apart holds_symm c hc ⟨rfl, hcheld⟩

/-- The transaction of a call commits. -/
theorem Recorded.commits {since : Instant} {links : List LinkKey} (h : Recorded s r)
    (hboots : s.boots = pre ++ .enqueued since links :: post) :
    Recorded { s.committed since links with boots := pre ++ .ended :: post }
      { r with batches := r.batches ++ [(r.seen, List.range' s.jobs.nextId links.length)] } := by
  have hexclusive := h.exclusive
  rw [hboots] at hexclusive
  have hb := hexclusive.each (.enqueued since links) (List.mem_append_right _ List.mem_cons_self)
  have hmarked : ¬s.Marked := by
    intro hmarked
    cases hb.1 hmarked
  have hbatches : r.batches = [] := (h.once.resolve_left fun honce => hmarked honce.1).2
  have hjobs : (s.committed since links).jobs = s.jobs.enqueueResyncs since links := by
    have hfresh : membershipResync ∉ s.startupBackfills.rows.map StartupBackfill.name := hmarked
    rw [Replicas.committed, dif_pos hfresh]
  refine ⟨hexclusive.replace holds_symm holds_symm (fun c hc hPc => ⟨fun _ => ?_, hPc.2⟩)
    (fun _ _ hcd => hcd)
    ⟨fun _ => rfl, nofun⟩ ?_, Or.inl ⟨marked_committed, ?_⟩, ?_⟩
  · by_contra hcheld
    rw [Bool.not_eq_false] at hcheld
    exact hexclusive.apart holds_symm c hc ⟨rfl, hcheld⟩
  · rintro c - ⟨hended, -⟩
    cases hended
  · rw [hbatches]
    rfl
  · intro batch hbatch
    rw [hbatches, List.nil_append, List.mem_singleton] at hbatch
    subst hbatch
    refine ⟨?_, List.nodup_range'⟩
    rw [hjobs, hb.2 since links rfl]
    exact resyncs_enqueueResyncs since (formBound r.seen) s.jobs

end

/-- Every step keeps the invariant. -/
theorem recorded_step {s s' : Replicas} {r : BackfillRecord} {e : ReplicaEvent} (h : Recorded s r)
    (hstep : replicaStep s e = some s') : Recorded s' (backfillNote r s e) := by
  cases e with
  | tick dt =>
    cases hstep
    exact ⟨h.exclusive, h.once, h.jobs⟩
  | start =>
    cases hstep
    refine ⟨⟨fun b hb => ?_, ?_⟩, h.once, h.jobs⟩
    · rcases List.mem_append.1 hb with hb | hb
      · exact h.exclusive.each b hb
      · rw [List.mem_singleton.1 hb]
        exact ⟨fun _ => rfl, nofun⟩
    · refine List.pairwise_append.2 ⟨h.exclusive.pairwise, List.pairwise_singleton _ _,
        fun b _ c hc => ?_⟩
      rw [List.mem_singleton.1 hc]
      rintro ⟨-, hstarting⟩
      cases hstarting
  | link roleLinks =>
    cases hstep
    exact ⟨h.exclusive, h.once, h.jobs⟩
  | job c =>
    cases hstep
    refine ⟨h.exclusive, h.once, fun batch hbatch => ⟨?_, (h.jobs batch hbatch).2⟩⟩
    exact (h.jobs batch hbatch).1.imp fun _ _ hresyncs => hresyncs.call s.now c
  | boot i e =>
    obtain ⟨pre, b, post, u, b', hparty, hboot, rfl⟩ := replicaStep_boot hstep
    have hboots := partyAt_eq_some hparty
    rcases bootStep_cases hboot with ⟨henqueue, hcommit, rfl, hholds, hlinks⟩ |
      ⟨since, rfl, hmarked, hfree, rfl, rfl, rfl⟩ | ⟨since, rfl, rfl, rfl, rfl⟩ | ⟨since, links,
        rfl, rfl, rfl, rfl⟩
    · have hnote : backfillNote r u (.boot i e) = r := by
        cases e with
        | enqueue => exact absurd rfl henqueue
        | commit => exact absurd rfl hcommit
        | _ => rfl
      rw [hnote]
      exact h.moves hboots hholds hlinks
    · exact h.claims hboots hmarked hfree
    · exact h.enqueues hboots
    · have hnote : backfillNote r s (.boot i .commit) =
          { r with batches := r.batches ++
              [(r.seen, List.range' s.jobs.nextId links.length)] } := by
        simp only [backfillNote, hparty]
      rw [hnote]
      exact h.commits hboots

/-! ### Later calls -/

/-- Calls touch the queue only where they set the marker. -/
theorem jobs_boot {s s' : Replicas} {r : BackfillRecord} {i : Nat} {e : BootEvent}
    (h : Recorded s r) (hstep : replicaStep s (.boot i e) = some s') :
    s'.jobs = s.jobs ∨ ¬s.Marked ∧ s'.Marked ∧
      (backfillNote r s (.boot i e)).batches.length = 1 ∧
      s'.jobs.rows.length = s.jobs.rows.length + (formBound r.seen).length := by
  have hrecorded := recorded_step h hstep
  obtain ⟨pre, b, post, u, b', hparty, hboot, rfl⟩ := replicaStep_boot hstep
  have hboots := partyAt_eq_some hparty
  rcases bootStep_cases hboot with ⟨-, -, rfl, -, -⟩ | ⟨since, rfl, -, -, rfl, rfl, rfl⟩ |
    ⟨since, rfl, rfl, rfl, rfl⟩ |
    ⟨since, links, rfl, rfl, rfl, rfl⟩
  · exact Or.inl rfl
  · exact Or.inl rfl
  · exact Or.inl rfl
  · have hexclusive := h.exclusive
    rw [hboots] at hexclusive
    have hb := hexclusive.each (.enqueued since links) (List.mem_append_right _ List.mem_cons_self)
    have hmarked : membershipResync ∉ s.startupBackfills.rows.map StartupBackfill.name := by
      intro hmarked
      cases hb.1 hmarked
    have hset : (s.committed since links).Marked := marked_committed
    refine Or.inr ⟨hmarked, hset, ?_, ?_⟩
    · exact (hrecorded.once.resolve_right fun hnone => hnone.1 hset).2
    · change (s.committed since links).jobs.rows.length = _
      rw [Replicas.committed, dif_pos hmarked, ← hb.2 since links rfl]
      exact length_enqueueResyncs since links s.jobs

private theorem partyAt_snoc {α : Type} (xs : List α) (x : α) :
    partyAt (xs ++ [x]) xs.length = some (xs, x, []) := by
  rw [partyAt, List.drop_left, List.take_left]

/-- While nobody holds the marker, a new call can claim it, and goes through. -/
theorem next_boot_claims {s : Replicas} (hmarked : ¬s.Marked)
    (hfree : ∀ b ∈ s.boots, b.holds = false) :
    ∃ s', s'.Marked ∧ replicaSystem.Run (fun _ _ _ => True) s [.start, .boot s.boots.length .begin,
      .boot s.boots.length .claim, .boot s.boots.length .enqueue,
        .boot s.boots.length .commit] s' := by
  have hstep : ∀ (b : Boot) (e : BootEvent) (u : Replicas) (b' : Boot),
      bootStep { s with boots := s.boots ++ [b] } (s.boots ++ []) b e = some (u, b') →
      replicaStep { s with boots := s.boots ++ [b] } (.boot s.boots.length e) =
          some { u with boots := s.boots ++ [b'] } := by
    intro b e u b' h
    simp only [replicaStep, partyAt_snoc, h, Option.map_some]
  have hclaim : bootStep { s with boots := s.boots ++ [.begun s.now] } (s.boots ++ [])
    (.begun s.now) .claim =
      some ({ s with boots := s.boots ++ [.begun s.now] }, .claimed s.now) := by
    have hmarked' : ¬Replicas.Marked { s with boots := s.boots ++ [.begun s.now] } := hmarked
    have hwaits : ¬(s.boots ++ []).any Boot.holds = true := by
      rw [List.append_nil, Bool.not_eq_true, List.any_eq_false]
      exact fun b hb => by rw [hfree b hb]; exact Bool.false_ne_true
    simp only [bootStep, if_neg hmarked', if_neg hwaits]
  refine ⟨_, ?_, System.Run.cons rfl trivial
    (System.Run.cons (hstep .starting .begin _ (.begun s.now) rfl) trivial
      (System.Run.cons (hstep (.begun s.now) .claim _ (.claimed s.now) hclaim) trivial
        (System.Run.cons (hstep (.claimed s.now) .enqueue _ _ rfl) trivial
          (System.Run.cons (hstep (.enqueued s.now (formBound s.roleLinks)) .commit _ .ended rfl)
            trivial (System.Run.nil _)))))⟩
  exact marked_committed

/-- In every state of every run, the marker is there if, and only if, the jobs have been enqueued,
once and one for each link that the statement saw bound to a form; no call adds a job from then on;
and once all calls that claimed it have failed and are rolled back, the next call claims it. -/
theorem backfill_exactly_once {s₀ s : Replicas} {r : BackfillRecord} {es : List ReplicaEvent}
    (hboots : s₀.boots = []) (hmarked : ¬s₀.Marked)
    (h : (replicaSystem.observe backfillNote).Run (fun _ _ _ => True) (s₀, {}) es (s, r)) :
    (s.Marked ↔ r.batches ≠ []) ∧ r.batches.length ≤ 1 ∧
    (∀ batch ∈ r.batches, List.Forall₂ (Resyncs s.jobs) (formBound batch.1) batch.2 ∧
      batch.2.Nodup) ∧
    (∀ i e s', replicaStep s (.boot i e) = some s' → s'.jobs = s.jobs ∨ ¬s.Marked ∧ s'.Marked ∧
      (backfillNote r s (.boot i e)).batches.length = 1 ∧
      s'.jobs.rows.length = s.jobs.rows.length + (formBound r.seen).length) ∧
    (¬s.Marked → (∀ b ∈ s.boots, b.holds = true → b = .gone true) →
      ∃ rollbacks s', (∀ e ∈ rollbacks, ∃ i, e = .boot i .rollback) ∧ s'.Marked ∧
        replicaSystem.Run (fun _ _ _ => True) s (rollbacks ++ [.start, .boot s.boots.length .begin,
          .boot s.boots.length .claim, .boot s.boots.length .enqueue,
            .boot s.boots.length .commit]) s') := by
  have hrecorded : Recorded s r := by
    refine System.Run.invariant (P := fun x : Replicas × BackfillRecord => Recorded x.1 x.2)
      (fun x e x' hx _ hstep => ?_) h ?_
    · obtain ⟨hstep, hnote⟩ := System.observe_step.1 hstep
      rw [hnote]
      exact recorded_step hx hstep
    · refine ⟨⟨fun b hb => ?_, ?_⟩, Or.inr ⟨hmarked, rfl⟩, fun batch hbatch =>
        absurd hbatch List.not_mem_nil⟩
      · rw [hboots] at hb
        cases hb
      · rw [hboots]
        exact List.Pairwise.nil
  refine ⟨?_, ?_, hrecorded.jobs, fun i e s' hstep => jobs_boot hrecorded hstep, fun hfresh hgone =>
    ?_⟩
  · rcases hrecorded.once with ⟨hm, hlen⟩ | ⟨hm, hnil⟩
    · refine iff_of_true hm fun hnil => ?_
      rw [hnil] at hlen
      cases hlen
    · exact iff_of_false hm (not_not_intro hnil)
  · rcases hrecorded.once with ⟨-, hlen⟩ | ⟨-, hnil⟩
    · omega
    · rw [hnil]
      exact Nat.zero_le 1
  · by_cases hfree : ∀ b ∈ s.boots, b.holds = false
    · obtain ⟨s', hset, hrun⟩ := next_boot_claims hfresh hfree
      exact ⟨[], s', nofun, hset, hrun⟩
    · push Not at hfree
      obtain ⟨b, hb, hheld⟩ := hfree
      rw [ne_eq, Bool.not_eq_false] at hheld
      obtain rfl := hgone b hb hheld
      -- one failed call holds the marker still, and its rollback frees it
      obtain ⟨pre, post, hsplit⟩ := List.append_of_mem hb
      have hexclusive := hrecorded.exclusive
      rw [hsplit] at hexclusive
      have hparty : partyAt s.boots pre.length = some (pre, .gone true, post) := by
        rw [hsplit, partyAt, List.drop_left, List.take_left]
      have hrollback : replicaStep s (.boot pre.length .rollback) =
          some { s with boots := pre ++ .ended :: post } := by
        simp only [replicaStep, hparty, bootStep, Option.map_some]
      have hfree : ∀ b ∈ pre ++ .ended :: post, b.holds = false := by
        intro b hb
        by_contra hheld
        rw [Bool.not_eq_false] at hheld
        have hother : b ∈ pre ++ post := by
          rcases List.mem_append.1 hb with hb | hb
          · exact List.mem_append_left _ hb
          · rcases List.mem_cons.1 hb with rfl | hb
            · cases hheld
            · exact List.mem_append_right _ hb
        exact hexclusive.apart holds_symm b hother ⟨rfl, hheld⟩
      have hlen : (pre ++ .ended :: post).length = s.boots.length := by
        rw [hsplit, List.length_append, List.length_append, List.length_cons, List.length_cons]
      obtain ⟨s', hset, hrun⟩ :=
        next_boot_claims (s := { s with boots := pre ++ .ended :: post }) hfresh hfree
      simp only [hlen] at hrun
      refine ⟨[.boot pre.length .rollback], s', fun e he => ⟨pre.length, List.mem_singleton.1 he⟩,
        hset, ?_⟩
      exact System.Run.cons hrollback trivial hrun

/-- One link bound to a form, and nothing done yet. -/
def freshReplicas : Replicas where
  now := 0
  roleLinks := ⟨[{ guildId := ['g'], roleId := ['r'], apiToken := ['k'], formId := some ['f'] }],
    by decide⟩
  jobs := JobTable.empty
  startupBackfills := Table.empty
  boots := []

/-- Two replicas start, and the one that claims the marker dies before its commit. -/
theorem backfill_exactly_once_crash :
    ∃ rollbacks s', (∀ e ∈ rollbacks, ∃ i, e = ReplicaEvent.boot i .rollback) ∧ s'.Marked ∧
    replicaSystem.Run (fun _ _ _ => True) { freshReplicas with boots := [.gone true, .begun 0] }
      (rollbacks ++ [.start, .boot 2 .begin, .boot 2 .claim, .boot 2 .enqueue,
          .boot 2 .commit]) s' := by
  have hrun : (replicaSystem.observe backfillNote).Run (fun _ _ _ => True) (freshReplicas, {})
      [.start, .start, .boot 0 .begin, .boot 1 .begin, .boot 0 .claim, .boot 0 .enqueue,
        .boot 0 .giveUp]
      ({ freshReplicas with boots := [.gone true, .begun 0] },
          { seen := freshReplicas.roleLinks }) :=
    System.Run.of_exec rfl fun _ _ _ _ => trivial
  have hunmarked : ¬ freshReplicas.Marked := List.not_mem_nil
  refine (backfill_exactly_once rfl hunmarked hrun).2.2.2.2 List.not_mem_nil ?_
  intro b hb hheld
  simp only [List.mem_cons, List.not_mem_nil, or_false] at hb
  rcases hb with rfl | rfl
  · rfl
  · cases hheld

end FormRespondentRole
