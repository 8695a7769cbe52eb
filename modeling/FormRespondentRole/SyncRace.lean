import FormRespondentRole.SyncAgreement
import FormRespondentRole.Foundations.Reachability

/-!
# Concurrent syncs

Sync runs in flight, any number at a time, interleave call by call, while handlers commit responses
and enqueue the members' jobs.  A pool in which all work is done should have every link at its
desired set.  It need not: a bulk run that read the responses before a commit may overwrite what the
member's own run did after it.  Runs of a link that do not overlap are safe
(`syncs_converge`). -/

namespace FormRespondentRole

open Foundations

namespace SyncJob

def run (schedule : Nat → Nat) : SyncJob → SyncRun
  | playerSync discordId => .player discordId schedule
  | configSync guildId roleId => .roleLink guildId roleId

def Touches (k : LinkKey) (d : Text) : SyncJob → Prop
  | playerSync u => u = d
  | configSync g r => (g, r) = k

end SyncJob

/-- The job that a run works on. -/
def SyncRun.job : SyncRun → SyncJob
  | player discordId _ => .playerSync discordId
  | roleLink guildId roleId => .configSync guildId roleId

/-- A run in flight, with the part of its program still to come. -/
structure Thread where
  run : SyncRun
  rest : SyncProgram (Except AppError Unit)

structure Pool where
  world : World
  threads : List Thread

inductive PoolEvent
  /-- A handler commits new responses of a member, in place of the member's old ones. -/
  | commit (discordId : Text) (rows : List FormResponse)
  /-- The handler enqueues the job that such a commit owes. -/
  | enqueuePlayer (discordId : Text)
  | enqueueConfig (guildId roleId : Text)
  /-- A worker claims a job and starts its run. -/
  | start (job : SyncJob) (schedule : Nat → Nat)
  /-- The run at this position makes its next call. -/
  | step (i : Nat)
  /-- The run at this position has returned; a failed job goes back to the queue. -/
  | finish (i : Nat)

/-- Rows that a handler can write for a member: they carry the guild of their form. -/
def writable (w : World) (discordId : Text) (rows : List FormResponse) : Bool :=
  decide (discordId ≠ []) && rows.all fun row =>
    decide (row.discordId = discordId) && w.forms.all fun f => !decide (f.id.text = row.formId) ||
      decide (row.guildId = f.guildId)

def World.commit (w : World) (discordId : Text) (rows : List FormResponse) : World :=
  { w with
    formResponses := w.formResponses.filter (·.discordId ≠ discordId) ++ rows
    notEnqueued := discordId :: w.notEnqueued }

def poolStep (libs : Libs) (s : Pool) : PoolEvent → Option Pool
  | .commit discordId rows =>
    if writable s.world discordId rows then some { s with world := s.world.commit discordId rows }
      else none
  | .enqueuePlayer discordId =>
    if discordId ∈ s.world.notEnqueued then
      some { s with world := { s.world with
        notEnqueued := s.world.notEnqueued.erase discordId
        queued := s.world.queued ++ [.playerSync discordId] } }
    else none
  | .enqueueConfig guildId roleId =>
    some { s with world := { s.world with queued := s.world.queued ++
      [.configSync guildId roleId] } }
  | .start job schedule =>
    if job ∈ s.world.queued then
      some
        { world := { s.world with queued := s.world.queued.erase job }
          threads := ⟨job.run schedule, ((job.run schedule).program libs).run⟩ :: s.threads }
    else none
  | .step i =>
    match s.threads.drop i with
    | ⟨run, .call c k⟩ :: waiting =>
      some
        { world := (serve c s.world).2
          threads := s.threads.take i ++ ⟨run, k (serve c s.world).1⟩ :: waiting }
    | _ => none
  | .finish i =>
    match s.threads.drop i with
    | ⟨_, .pure (.ok _)⟩ :: waiting => some { s with threads := s.threads.take i ++ waiting }
    | ⟨run, .pure (.error _)⟩ :: waiting =>
      some
        { world := { s.world with queued := s.world.queued ++ [run.job] }
          threads := s.threads.take i ++ waiting }
    | _ => none

def poolSystem (libs : Libs) : System Pool PoolEvent := ⟨poolStep libs⟩

/-! ### What is owed and what is reached -/

/-- A sync of the pair is certain to run: one is queued, or a handler is about to queue one. -/
def World.Owed (k : LinkKey) (d : Text) (w : World) : Prop :=
  (∃ job ∈ w.queued, job.Touches k d) ∨ d ∈ w.notEnqueued

/-- No run in flight, and every pair of the link where it should be unless a sync of it is owed.
Nothing is asked of other links. -/
structure Pool.Initial (libs : Libs) (l : RoleLink) (s : Pool) : Prop where
  threads : s.threads = []
  consistent : s.world.Consistent
  link : l ∈ s.world.roleLinks
  bound : s.world.Binds l
  settled : ∀ d, Settled libs l d (World.Owed l.key d) s.world

/-- Every job has completed. -/
structure Pool.Quiet (s : Pool) : Prop where
  threads : s.threads = []
  queued : s.world.queued = []
  notEnqueued : s.world.notEnqueued = []

/-- RoleLogic's list for the link and the mirror both equal the desired set. -/
def Converged (libs : Libs) (l : RoleLink) (w : World) : Prop :=
  ∀ d, w.granted l.key d = w.desired libs l d ∧ w.mirrored l.key d = w.desired libs l d

/-- Both are bulk runs of the link, or one is and the other is per player, or both are of one
member. -/
def conflict (k : LinkKey) : SyncJob → SyncRun → Bool
  | .playerSync u, .player v _ => decide (u = v)
  | .playerSync _, .roleLink g r => decide ((g, r) = k)
  | .configSync g r, .player _ _ => decide ((g, r) = k)
  | .configSync g r, .roleLink g' r' => decide ((g, r) = k ∧ (g', r') = k)

/-- No sync starts while another run that touches a member of the link in common with it is in
flight. -/
def serialAt (k : LinkKey) (s : Pool) : PoolEvent → Bool
  | .start job _ => s.threads.all fun t => !conflict k job t.run
  | _ => true

/-! ### Serial runs converge -/

section

variable {libs : Libs} {l : RoleLink} {d : Text}

private theorem owed_frame (k : LinkKey) (d : Text) (w w' : World) (h : World.Frame w w')
    (hw : w.Owed k d) : w'.Owed k d := by
  unfold World.Owed
  rw [h.queued, h.notEnqueued]
  exact hw

/-- The rest of a run in flight keeps its contract at the pair. -/
private def Keeps (libs : Libs) (l : RoleLink) (d : Text) (t : Thread) (w : World) : Prop :=
  if t.run.Touches l.key d then
    t.rest.Meets serve (Rely libs l d (World.Owed l.key d)) (Toward libs l d (World.Owed l.key d))
      (fun r u => ∃ a, r = .ok a ∧ Settled libs l d (World.Owed l.key d) u) w
  else t.rest.Meets serve Config (Untouched l.key d) (fun r _ => ∃ a, r = .ok a ∧ True) w

private theorem Keeps.rely {t : Thread} {w w' : World} (h : Rely libs l d (World.Owed l.key d) w w')
    (hw : Keeps libs l d t w) : Keeps libs l d t w' := by
  by_cases ht : t.run.Touches l.key d
  · rw [Keeps, if_pos ht] at hw ⊢
    exact hw.stable (fun _ _ _ h₁ h₂ => h₁.trans h₂) h
  · rw [Keeps, if_neg ht] at hw ⊢
    exact hw.stable (fun s t u => @Config.trans s t u) h.config

private theorem Keeps.config {t : Thread} {w w' : World} (ht : ¬ t.run.Touches l.key d)
    (h : Config w w') (hw : Keeps libs l d t w) : Keeps libs l d t w' := by
  rw [Keeps, if_neg ht] at hw ⊢
  exact hw.stable (fun s t u => @Config.trans s t u) h

/-- The invariant of the pool at a pair: at most one run in flight touches it, and when none does it
is settled. -/
private structure PairInv (libs : Libs) (l : RoleLink) (d : Text) (s : Pool) : Prop where
  consistent : s.world.Consistent
  link : l ∈ s.world.roleLinks
  bound : s.world.Binds l
  keeps : ∀ t ∈ s.threads, Keeps libs l d t s.world
  alone : (s.threads.map (·.run)).Pairwise fun r r' => ¬ (r.Touches l.key d ∧ r'.Touches l.key d)
  settled : (∀ r ∈ s.threads.map (·.run), ¬ r.Touches l.key d) →
    Settled libs l d (World.Owed l.key d) s.world

/-- What the handlers do is within what a run relies on. -/
private theorem PairInv.handler {s : Pool} {w' : World} (hw : PairInv libs l d s)
    (h : Rely libs l d (World.Owed l.key d) s.world w') (hc : w'.Consistent)
    (hforms : w'.forms = s.world.forms) :
    PairInv libs l d { s with world := w' } where
  consistent := hc
  link := h.config.1 ▸ hw.link
  bound := by
    rw [World.Binds, hforms]
    exact hw.bound
  keeps := fun t ht => (hw.keeps t ht).rely h
  alone := hw.alone
  settled := fun hnone => (hw.settled hnone).rely h

private theorem commit_consistent {w : World} (hw : w.Consistent) {u : Text}
    {rows : List FormResponse} (h : writable w u rows = true) : (w.commit u rows).Consistent where
  links_nodup := hw.links_nodup
  responses_form := by
    intro row hrow f hf hid
    rcases List.mem_append.1 hrow with hrow | hrow
    · exact hw.responses_form row (List.mem_of_mem_filter hrow) f hf hid
    · simp only [writable, Bool.and_eq_true, List.all_eq_true, Bool.or_eq_true, Bool.not_eq_true',
        decide_eq_false_iff_not, decide_eq_true_iff] at h
      exact ((h.2 row hrow).2 f hf).resolve_left fun h => h hid
  responses_member := by
    intro row hrow
    rcases List.mem_append.1 hrow with hrow | hrow
    · exact hw.responses_member row (List.mem_of_mem_filter hrow)
    · simp only [writable, Bool.and_eq_true, List.all_eq_true, decide_eq_true_iff] at h
      rw [(h.2 row hrow).1]
      exact h.1

private theorem commit_desired_ne {w : World} {u : Text} {rows : List FormResponse}
    (h : ∀ row ∈ rows, row.discordId = u) (hne : u ≠ d) :
    (w.commit u rows).desired libs l d = w.desired libs l d := by
  have hmem : ∀ row, row.discordId = d → (row ∈ (w.commit u rows).formResponses ↔
      row ∈ w.formResponses) := by
    intro row hrow
    rw [World.commit, List.mem_append, List.mem_filter, decide_eq_true_iff]
    constructor
    · rintro (h' | h')
      · exact h'.1
      · exact absurd ((h row h').symm.trans hrow) hne
    · exact fun h' => Or.inl ⟨h', fun hu => hne (hu.symm.trans hrow)⟩
  rw [Bool.eq_iff_iff]
  simp only [World.desired, Bool.and_eq_true, List.any_eq_true, decide_eq_true_iff]
  refine and_congr Iff.rfl (exists_congr fun row => ?_)
  constructor
  · rintro ⟨hrow, hq, hev⟩
    exact ⟨(hmem row hq.2).1 hrow, hq, hev⟩
  · rintro ⟨hrow, hq, hev⟩
    exact ⟨(hmem row hq.2).2 hrow, hq, hev⟩

private theorem commit_rely {w : World} (hw : w.Consistent) (hl : w.Binds l) {u : Text}
    {rows : List FormResponse} (h : writable w u rows = true) :
    Rely libs l d (World.Owed l.key d) w (w.commit u rows) where
  config := ⟨rfl, rfl⟩
  mirrored := rfl
  granted := rfl
  sound := fun _ => (commit_consistent hw h).sound hl
  stillOwed := by
    rintro (hq | hn)
    · exact Or.inl hq
    · exact Or.inr (List.mem_cons_of_mem _ hn)
  desired := by
    by_cases hu : u = d
    · exact Or.inr (Or.inr (hu ▸ List.mem_cons_self))
    · refine Or.inl (commit_desired_ne ?_ hu)
      simp only [writable, Bool.and_eq_true, List.all_eq_true, decide_eq_true_iff] at h
      exact fun row hrow => (h.2 row hrow).1

/-- Moving jobs between the handlers and the queue, when no job of the pair is lost. -/
private theorem queue_rely {w : World} {queued : List SyncJob} {notEnqueued : List Text}
    (h : w.Owed l.key d →
      { w with queued := queued, notEnqueued := notEnqueued : World }.Owed l.key d) :
    Rely libs l d (World.Owed l.key d) w { w with queued := queued,
                                                  notEnqueued := notEnqueued } where
  config := ⟨rfl, rfl⟩
  mirrored := rfl
  granted := rfl
  sound := fun hw => ⟨hw.links_nodup, hw.responses_guild, hw.responses_member⟩
  stillOwed := h
  desired := Or.inl rfl

private theorem queue_consistent {w : World} {queued : List SyncJob} {notEnqueued : List Text}
    (hw : w.Consistent) :
    { w with queued := queued, notEnqueued := notEnqueued : World }.Consistent :=
  ⟨hw.links_nodup, hw.responses_form, hw.responses_member⟩

private theorem conflict_of_touches {k : LinkKey} {job : SyncJob} {run : SyncRun}
    (hjob : job.Touches k d) (hrun : run.Touches k d) : conflict k job run = true := by
  cases job <;> cases run <;> simp_all [conflict, SyncJob.Touches, SyncRun.Touches]

private theorem touches_run {k : LinkKey} {schedule : Nat → Nat} {job : SyncJob} :
    (job.run schedule).Touches k d ↔ job.Touches k d := by
  cases job <;> exact Iff.rfl

/-- When the run in the middle touches the pair, none of the others does. -/
private theorem alone_of_touches {pre post : List Thread} {t : Thread}
    (h : ((pre ++ t :: post).map (·.run)).Pairwise fun r r' =>
      ¬ (r.Touches l.key d ∧ r'.Touches l.key d))
    (ht : t.run.Touches l.key d) : ∀ u ∈ pre ++ post, ¬ u.run.Touches l.key d := by
  rw [List.map_append, List.map_cons, List.pairwise_append, List.pairwise_cons] at h
  obtain ⟨-, ⟨hpost, -⟩, hpre⟩ := h
  intro u hu htouch
  rcases List.mem_append.1 hu with hu | hu
  · exact hpre _ (List.mem_map_of_mem hu) _ List.mem_cons_self ⟨htouch, ht⟩
  · exact hpost _ (List.mem_map_of_mem hu) ⟨ht, htouch⟩

private theorem forall_mem_middle {pre post : List Thread} {t : Thread} {P : Thread → Prop} :
    (∀ u ∈ pre ++ t :: post, P u) ↔ P t ∧ ∀ u ∈ pre ++ post, P u := by
  simp only [List.mem_append, List.mem_cons]
  constructor
  · exact fun h => ⟨h t (Or.inr (Or.inl rfl)), fun u hu => h u (hu.imp_right Or.inr)⟩
  · rintro ⟨ht, h⟩ u (hu | rfl | hu)
    · exact h u (Or.inl hu)
    · exact ht
    · exact h u (Or.inr hu)

private theorem PairInv.call {w : World} {pre post : List Thread} {run : SyncRun} {c : SyncCall}
    {k : Except AppError c.Answer → SyncProgram (Except AppError Unit)}
    (h : PairInv libs l d ⟨w, pre ++ ⟨run, .call c k⟩ :: post⟩) :
    PairInv libs l d ⟨(serve c w).2, pre ++ ⟨run, k (serve c w).1⟩ :: post⟩ := by
  obtain ⟨hmid, hothers⟩ := forall_mem_middle.1 h.keeps
  have halone := h.alone
  have hsettled := h.settled
  simp only [List.map_append, List.map_cons] at halone hsettled
  by_cases htouch : run.Touches l.key d
  · rw [Keeps, if_pos htouch] at hmid
    obtain ⟨hguar, hrest⟩ := hmid w (Rely.refl w)
    have hnone := alone_of_touches h.alone htouch
    refine ⟨hguar.frame.consistent h.consistent, hguar.frame.roleLinks ▸ h.link,
      hguar.frame.binds h.bound, ?_,
      by simpa using halone, ?_⟩
    · refine forall_mem_middle.2 ⟨?_, fun u hu => ?_⟩
      · rw [Keeps, if_pos htouch]
        exact hrest
      · exact (hothers u hu).config (hnone u hu) ⟨hguar.frame.roleLinks, hguar.frame.optouts⟩
    · exact fun hno => absurd htouch (hno run (by simp))
  · rw [Keeps, if_neg htouch] at hmid
    obtain ⟨hguar, hrest⟩ := hmid w (Config.refl w)
    have hrely : Rely libs l d (World.Owed l.key d) w (serve c w).2 :=
      hguar.rely (owed_frame l.key d)
    refine ⟨hguar.frame.consistent h.consistent, hguar.frame.roleLinks ▸ h.link,
      hguar.frame.binds h.bound, ?_,
      by simpa using halone, ?_⟩
    · refine forall_mem_middle.2 ⟨?_, fun u hu => (hothers u hu).rely hrely⟩
      rw [Keeps, if_neg htouch]
      exact hrest
    · exact fun hno => (hsettled (by simpa using hno)).rely hrely

private theorem PairInv.done {w : World} {pre post : List Thread} {run : SyncRun}
    {r : Except AppError Unit} (h : PairInv libs l d ⟨w, pre ++ ⟨run, .pure r⟩ :: post⟩) :
    (∃ a, r = .ok a) ∧ PairInv libs l d ⟨w, pre ++ post⟩ := by
  obtain ⟨hmid, hothers⟩ := forall_mem_middle.1 h.keeps
  have halone := h.alone
  have hsettled := h.settled
  simp only [List.map_append, List.map_cons] at halone hsettled
  have halone' : ((pre ++ post).map (·.run)).Pairwise fun r r' =>
    ¬ (r.Touches l.key d ∧ r'.Touches l.key d) := by
    rw [List.map_append]
    exact halone.sublist (List.Sublist.append_left (List.sublist_cons_self _ _) _)
  by_cases htouch : run.Touches l.key d
  · rw [Keeps, if_pos htouch] at hmid
    obtain ⟨a, hr, hset⟩ := hmid w (Rely.refl w)
    exact ⟨⟨a, hr⟩, h.consistent, h.link, h.bound, hothers, halone', fun _ => hset⟩
  · rw [Keeps, if_neg htouch] at hmid
    obtain ⟨a, hr, -⟩ := hmid w (Config.refl w)
    refine ⟨⟨a, hr⟩, h.consistent, h.link, h.bound, hothers, halone', fun hno =>
      hsettled fun r' hr' => ?_⟩
    rcases List.mem_append.1 hr' with hr' | hr'
    · exact hno r' (by rw [List.map_append]; exact List.mem_append_left _ hr')
    · rcases List.mem_cons.1 hr' with rfl | hr'
      · exact htouch
      · exact hno r' (by rw [List.map_append]; exact List.mem_append_right _ hr')

/-- A run that starts when no other one in flight conflicts with it. -/
private theorem PairInv.start {s : Pool} (h : PairInv libs l d s) {formId : Text}
    (hform : l.formId = some formId) {job : SyncJob} {schedule : Nat → Nat}
    (hserial : ∀ t ∈ s.threads, conflict l.key job t.run = false) :
    PairInv libs l d
      { world := { s.world with queued := s.world.queued.erase job }
        threads := ⟨job.run schedule, ((job.run schedule).program libs).run⟩ :: s.threads } := by
  set w' : World := { s.world with queued := s.world.queued.erase job } with hw'
  have hconsistent : w'.Consistent := queue_consistent h.consistent
  by_cases htouch : job.Touches l.key d
  · have hnone : ∀ t ∈ s.threads, ¬ t.run.Touches l.key d := by
      intro t ht htouch'
      have hconflict := conflict_of_touches htouch htouch'
      rw [hserial t ht] at hconflict
      cases hconflict
    have hset := h.settled fun r hr => by
      obtain ⟨t, ht, rfl⟩ := List.mem_map.1 hr
      exact hnone t ht
    refine ⟨hconsistent, h.link, h.bound, ?_, ?_, fun hno =>
      absurd (touches_run.2 htouch) (hno _ List.mem_cons_self)⟩
    · rintro t ht
      rcases List.mem_cons.1 ht with rfl | ht
      · rw [Keeps, if_pos (touches_run.2 htouch)]
        exact SyncRun.settles (touches_run.2 htouch) (owed_frame l.key d) hform
          (hconsistent.sound h.bound) h.link hset.1
      · exact (h.keeps t ht).config (hnone t ht) (show Config s.world w' from ⟨rfl, rfl⟩)
    · refine List.pairwise_cons.2 ⟨fun r hr hboth => ?_, h.alone⟩
      obtain ⟨t, ht, rfl⟩ := List.mem_map.1 hr
      exact hnone t ht hboth.2
  · have hrely : Rely libs l d (World.Owed l.key d) s.world w' := by
      refine queue_rely ?_
      rintro (⟨j, hj, hjt⟩ | hn)
      · refine Or.inl ⟨j, (List.mem_erase_of_ne fun hjj : j = job => htouch (hjj ▸ hjt)).2 hj, hjt⟩
      · exact Or.inr hn
    refine ⟨hconsistent, h.link, h.bound, ?_, ?_, fun hno =>
      (h.settled fun r hr => hno r (List.mem_cons_of_mem _ hr)).rely hrely⟩
    · rintro t ht
      rcases List.mem_cons.1 ht with rfl | ht
      · rw [Keeps, if_neg fun h => htouch (touches_run.1 h)]
        exact Program.Meets.mono (fun _ _ h => h) (fun _ _ h => h) (fun _ _ h => h)
          (SyncRun.untouched libs (fun h => htouch (touches_run.1 h)) w')
      · exact (h.keeps t ht).rely hrely
    · exact List.pairwise_cons.2 ⟨fun r hr hboth => htouch (touches_run.1 hboth.1), h.alone⟩

/-- Every step that starts no conflicting run keeps the invariant. -/
private theorem pairInv_step {formId : Text} (hform : l.formId = some formId) {s s' : Pool}
    {e : PoolEvent} (h : PairInv libs l d s) (hserial : serialAt l.key s e = true)
    (hstep : poolStep libs s e = some s') :
    PairInv libs l d s' := by
  cases e with
  | commit u rows =>
    simp only [poolStep, Option.ite_none_right_eq_some, Option.some.injEq] at hstep
    obtain ⟨hrows, rfl⟩ := hstep
    exact h.handler (commit_rely h.consistent h.bound hrows)
      (commit_consistent h.consistent hrows) rfl
  | enqueuePlayer u =>
    simp only [poolStep, Option.ite_none_right_eq_some, Option.some.injEq] at hstep
    obtain ⟨hu, rfl⟩ := hstep
    refine h.handler (queue_rely ?_) (queue_consistent h.consistent) rfl
    rintro (⟨j, hj, hjt⟩ | hn)
    · exact Or.inl ⟨j, List.mem_append_left _ hj, hjt⟩
    · -- the note that the member is owed a sync is redeemed by the job
      by_cases hud : d = u
      · exact Or.inl ⟨.playerSync u, by simp, hud.symm⟩
      · exact Or.inr ((List.mem_erase_of_ne hud).2 hn)
  | enqueueConfig g r =>
    simp only [poolStep, Option.some.injEq] at hstep
    subst hstep
    refine h.handler (queue_rely ?_) (queue_consistent h.consistent) rfl
    rintro (⟨j, hj, hjt⟩ | hn)
    · exact Or.inl ⟨j, List.mem_append_left _ hj, hjt⟩
    · exact Or.inr hn
  | start job schedule =>
    simp only [poolStep, Option.ite_none_right_eq_some, Option.some.injEq] at hstep
    obtain ⟨-, rfl⟩ := hstep
    simp only [serialAt, List.all_eq_true, Bool.not_eq_true'] at hserial
    exact h.start hform hserial
  | step i =>
    simp only [poolStep] at hstep
    split at hstep
    · rename_i run c k waiting hdrop
      have hsplit := List.take_append_drop i s.threads
      rw [hdrop] at hsplit
      simp only [Option.some.injEq] at hstep
      subst hstep
      refine PairInv.call ?_
      rw [hsplit]
      exact h
    · cases hstep
  | finish i =>
    have hsplit := List.take_append_drop i s.threads
    simp only [poolStep] at hstep
    split at hstep
    · rename_i run a waiting hdrop
      rw [hdrop] at hsplit
      simp only [Option.some.injEq] at hstep
      subst hstep
      have hdone : PairInv libs l d ⟨s.world, s.threads.take i ++ ⟨run, .pure (.ok a)⟩ ::
          waiting⟩ := by
        rw [hsplit]
        exact h
      exact hdone.done.2
    · rename_i run e waiting hdrop
      rw [hdrop] at hsplit
      have hfailed : PairInv libs l d ⟨s.world, s.threads.take i ++ ⟨run, .pure (.error e)⟩ ::
          waiting⟩ := by
        rw [hsplit]
        exact h
      -- a sync of the invariant does not end with an error
      obtain ⟨⟨a, ha⟩, -⟩ := hfailed.done
      cases ha
    · cases hstep

end

/-- In a run of the pool in which no sync of the link starts while a conflicting one is in flight,
RoleLogic's list and the mirror equal the desired set whenever all work is done. -/
theorem syncs_converge (libs : Libs) {l : RoleLink} {s t : Pool} {es : List PoolEvent}
    (hs : s.Initial libs l)
    (hrun : (poolSystem libs).Run (fun s e _ => serialAt l.key s e = true) s es t)
    (hquiet : t.Quiet) :
    Converged libs l t.world := by
  obtain ⟨f, -, hform, -⟩ := hs.bound
  intro d
  have hinit : PairInv libs l d s := by
    refine ⟨hs.consistent, hs.link, hs.bound, ?_, ?_, fun _ => hs.settled d⟩
    · rw [hs.threads]
      exact fun t ht => absurd ht List.not_mem_nil
    · rw [hs.threads]
      exact List.Pairwise.nil
  have hinv : PairInv libs l d t :=
    hrun.invariant (fun _ _ _ h hserial hstep => pairInv_step hform h hserial hstep) hinit
  have hset := hinv.settled (by rw [hquiet.threads]; exact fun r hr => absurd hr List.not_mem_nil)
  have hnotOwed : ¬ World.Owed l.key d t.world := by
    rw [World.Owed, hquiet.queued, hquiet.notEnqueued]
    rintro (⟨j, hj, -⟩ | hn)
    · exact absurd hj List.not_mem_nil
    · exact absurd hn List.not_mem_nil
  have hmirrored := hset.2.resolve_left hnotOwed
  exact ⟨hset.1.symm.trans hmirrored, hmirrored⟩

/-! ### A lost grant -/

def ann : Text := "ann".toList

/-- The survey before anyone has responded, with a bulk sync of its link in the queue. -/
def raceStart : Pool where
  world := { surveyWorld with
    formResponses := []
    roleAssignments := []
    roleLogic := []
    queued := [.configSync "guild".toList "role".toList] }
  threads := []

/-- The bulk run reads the responses; a member responds and is granted the role by their own run;
the bulk run then reads the mirror, replaces the list by the empty set it computed, and rewrites the
mirror. -/
def raceEvents : List PoolEvent :=
  [.start (.configSync "guild".toList "role".toList) fun _ => 0, .step 0, .step 0, .step 0,
    .commit ann [surveyResponse ann], .enqueuePlayer ann, .start (.playerSync ann) fun _ => 0] ++
  List.replicate 8 (.step 0) ++ [.finish 0, .step 0, .step 0, .step 0, .finish 0]

private theorem raceStart_initial : raceStart.Initial surveyLibs surveyLink where
  threads := rfl
  consistent :=
    { links_nodup := List.nodup_singleton _
      responses_form := fun _ h => absurd h List.not_mem_nil
      responses_member := fun _ h => absurd h List.not_mem_nil }
  link := List.mem_singleton_self _
  bound := surveyWorld_steady.links_bound _ (List.mem_singleton_self _)
  settled _ := ⟨rfl, Or.inr rfl⟩

/-- All work is done, the member is in the desired set, and neither the mirror nor RoleLogic's list
has them. -/
def lostGrant (t : Pool) : Bool :=
  t.threads.isEmpty && t.world.queued.isEmpty && t.world.notEnqueued.isEmpty &&
    t.world.desired surveyLibs surveyLink ann && !t.world.mirrored surveyLink.key ann &&
    !t.world.granted surveyLink.key ann

/-- Runs of one link that overlap need not converge. -/
theorem not_syncs_converge :
    ¬ ∀ (libs : Libs) (l : RoleLink) (s t : Pool) (es : List PoolEvent), s.Initial libs l →
      (poolSystem libs).exec s es = some t → t.Quiet → Converged libs l t.world := by
  intro h
  have hlost : ((poolSystem surveyLibs).exec raceStart raceEvents).any lostGrant = true := by decide
  obtain ⟨t, ht, hlost⟩ := (Option.any_eq_true _ _).1 hlost
  simp only [lostGrant, Bool.and_eq_true, List.isEmpty_iff, Bool.not_eq_true'] at hlost
  obtain ⟨⟨⟨⟨⟨hthreads, hqueued⟩, hnot⟩, hdesired⟩, hmirrored⟩, -⟩ := hlost
  have hconverged := h surveyLibs surveyLink raceStart t raceEvents raceStart_initial ht
    ⟨hthreads, hqueued, hnot⟩
  have hann := (hconverged ann).2
  rw [hmirrored, hdesired] at hann
  cases hann

/-- The same events with the bulk run finished before the member's. -/
def serialEvents : List PoolEvent :=
  [.start (.configSync "guild".toList "role".toList) fun _ => 0] ++ List.replicate 4 (.step 0) ++
    [.finish 0, .commit ann [surveyResponse ann], .enqueuePlayer ann,
      .start (.playerSync ann) fun _ => 0] ++
    List.replicate 8 (.step 0) ++ [.finish 0]

def quiet (t : Pool) : Bool :=
  t.threads.isEmpty && t.world.queued.isEmpty && t.world.notEnqueued.isEmpty

theorem syncs_converge_survey :
    ∃ t, (poolSystem surveyLibs).exec raceStart serialEvents = some t ∧
      Converged surveyLibs surveyLink t.world := by
  have hquiet : ((poolSystem surveyLibs).check (fun s e _ => serialAt surveyLink.key s e) raceStart
      serialEvents).any quiet = true := by decide
  obtain ⟨t, ht, hquiet⟩ := (Option.any_eq_true _ _).1 hquiet
  simp only [quiet, Bool.and_eq_true, List.isEmpty_iff] at hquiet
  have hrun := System.Run.of_check ht
  exact ⟨t, hrun.exec_eq, syncs_converge surveyLibs raceStart_initial hrun
    ⟨hquiet.1.1, hquiet.1.2, hquiet.2⟩⟩

end FormRespondentRole
