import FormRespondentRole.BuilderTabs
import FormRespondentRole.Statements
import FormRespondentRole.FormReferences

/-!
# Versions of forms

A version of a form is one row: over any run of the service, in which requests and submits overlap
as they like, the rows that a form has had under one version are the same, and its versions only
grow (`versions_determine_forms`).  So what has been graded or loaded with the version of a form has
been graded or loaded with that form, column by column.

A statement changes forms in few ways (`FormsAfter`), as a request that edits forms has no
transaction, and one that has a transaction edits no form.
-/

namespace FormRespondentRole

open Foundations

/-- What a form may become: its columns change, all but a few of them, with its version. -/
structure Form.Becomes (form later : Form) : Prop where
  guildId : later.guildId = form.guildId
  slug : later.slug = form.slug
  previewToken : later.previewToken = form.previewToken
  version : form.version ≤ later.version
  same : later.version = form.version → later = form

/-- A request that edits forms has no transaction, and one that has a transaction edits no form. -/
def Connection.EditsAlone {α : Type} (conn : Connection α) : Prop :=
  (conn.tx = none ∧ conn.program.Asks (· ≠ .begin)) ∨
    (conn.program.Asks (·.editsForms = false) ∧ ∀ w ∈ conn.tx.getD [], w.call.editsForms = false)

/-- What the end of a statement makes of the forms: some may be gone, a form may be added, and those
of a version may be edited. -/
inductive FormsAfter (conn : Connection Reply) (now : Instant) (d d' : Database) : Prop
  | kept (h : d'.forms.rows.Sublist d.forms.rows)
  | inserted {form : Form} {k : Except AppError Bool → AdminProgram (Except AppError Reply)}
      (hprogram : conn.program = .call (.insertForm form) k)
        (hslug : form.slug ∉ d.forms.rows.map (·.slug))
      (h : d'.forms.rows = d.forms.rows ++ [{ form with updatedAt := now }])
  | updated {id : Uuid} {guildId : Text} {version : Int32} {edit : FormEdit}
      {k : Except AppError Nat → AdminProgram (Except AppError Reply)}
      (hprogram : conn.program = .call (.updateForm id guildId version edit) k) {p : Form → Bool}
      (hp : ∀ form ∈ d.forms.rows, p form = true → form.version = version ∧ version < version + 1)
      (h : d'.forms = d.forms.update p (edit.set now))

section

variable {α : Type} {libs : AdminLibs} {submitLibs : SubmitLibs} {d d' : Database}
  {rows : List RowRef} {now : Instant}
  {c : AdminCall} {conn next : Connection Reply} {s s' : Service}

theorem Form.Becomes.refl (form : Form) : form.Becomes form :=
  ⟨rfl, rfl, rfl, Int32.le_refl _, fun _ => rfl⟩

theorem Form.Becomes.trans {f g h : Form} (hfg : f.Becomes g) (hgh : g.Becomes h) :
    f.Becomes h where
  guildId := hgh.guildId.trans hfg.guildId
  slug := hgh.slug.trans hfg.slug
  previewToken := hgh.previewToken.trans hfg.previewToken
  version := Int32.le_trans hfg.version hgh.version
  same hversion := by
    -- the version in between is the same one
    have hmid : g.version = f.version := Int32.le_antisymm (hversion ▸ hgh.version) hfg.version
    rw [hgh.same (hversion.trans hmid.symm), hfg.same hmid]

private theorem Form.becomes_set {form : Form} {edit : FormEdit}
    (h : form.version < form.version + 1) :
    form.Becomes ((edit.set now).set form) where
  guildId := rfl
  slug := rfl
  previewToken := rfl
  version := Int32.le_of_lt h
  same hversion := by
    rw [show form.version + 1 = form.version from hversion] at h
    exact absurd h Int32.lt_irrefl

/-! ### Requests -/

theorem AdminCall.editsForms_of_reads (h : c.reads = true) : c.editsForms = false := by
  cases c <;> first | rfl | cases h

/-- Only three of the requests edit forms, and these do not begin a transaction. -/
theorem AdminRequest.edits_or_begins (req : AdminRequest) :
    (∀ c, req.MayAsk c → c ≠ .begin) ∨ ∀ c, req.MayAsk c → c.editsForms = false := by
  cases req with
  | createForm | updateForm | duplicateForm =>
    left
    rintro c (h | h) rfl <;> cases h
  | _ =>
    right
    rintro c (h | h)
    · exact AdminCall.editsForms_of_reads h
    · cases c <;> first | rfl | cases h

private theorem AdminTask.of_editsAlone (guildId : Text) (req : AdminRequest) :
    (AdminTask.of libs guildId req).conn.EditsAlone := by
  have hasks := program_asks libs guildId req
  rcases req.edits_or_begins with h | h
  · exact Or.inl ⟨rfl, Program.Asks.mono h hasks⟩
  · exact Or.inr ⟨Program.Asks.mono h hasks, fun w hw => absurd hw List.not_mem_nil⟩

/-! ### Statements -/

theorem forms_effectOn_sublist (h : c.editsForms = false) :
    (d.effectOn rows now c).forms.rows.Sublist d.forms.rows := by
  cases c with
  | insertForm form => cases h
  | updateForm id guildId version edit => cases h
  | deleteForm id guildId => exact List.filter_sublist
  | _ => exact List.Sublist.refl _

/-- A transaction that edits no form may have deleted some. -/
theorem forms_applyWrites_sublist {ws : List Write} (h : ∀ w ∈ ws, w.call.editsForms = false) :
    (applyWrites ws d).forms.rows.Sublist d.forms.rows := by
  induction ws with
  | nil => exact List.Sublist.refl _
  | cons w ws ih =>
    have hlast : ((applyWrites ws d).effectOn w.rows w.now w.call).forms.rows.Sublist
        (applyWrites ws d).forms.rows :=
      forms_effectOn_sublist (h w List.mem_cons_self)
    exact hlast.trans (ih fun w hw => h w (List.mem_cons_of_mem _ hw))

/-- The forms as the request finds them. -/
theorem Connection.EditsAlone.forms_view (halone : conn.EditsAlone) :
    (conn.view d).forms.rows.Sublist d.forms.rows := by
  refine forms_applyWrites_sublist ?_
  rcases halone with ⟨htx, -⟩ | ⟨-, hws⟩
  · rw [htx]
    exact fun w hw => absurd hw List.not_mem_nil
  · exact hws

/-- Outside of transactions. -/
theorem forms_effectOn (hrefusal : d.refusalOn rows c = none)
    {k : Except AppError c.Answer → AdminProgram (Except AppError Reply)}
    (hprogram : conn.program = .call c k) : FormsAfter conn now d (d.effectOn rows now c) := by
  by_cases hedits : c.editsForms = false
  · exact .kept (forms_effectOn_sublist hedits)
  · cases c with
    | insertForm form =>
      dsimp only [Database.effectOn, Database.effect]
      split
      · split
        · rename_i hslug
          exact .inserted hprogram hslug rfl
        · exact .kept (List.Sublist.refl _)
      · exact .kept (List.Sublist.refl _)
    | updateForm id guildId version edit =>
      refine .updated hprogram (fun form hform hmatch => ?_) rfl
      obtain ⟨hfound, hid, hguild, hversion⟩ := of_decide_eq_true hmatch
      have hmatching : d.matching rows (.updateForm id guildId version edit) ≠ [] := by
        refine List.ne_nil_of_mem (a := RowRef.form form.id)
          (List.mem_filter.2 ⟨?_, decide_eq_true hfound⟩)
        exact List.mem_map_of_mem
          (List.mem_filter.2 ⟨hform, decide_eq_true ⟨hid, hguild, hversion⟩⟩)
      exact ⟨hversion, lt_succ_of_ne_max (Database.version_ne_max hrefusal hmatching)⟩
    | _ => exact absurd rfl hedits

/-- A statement that is carried out. -/
theorem forms_carry {k : Except AppError c.Answer → AdminProgram (Except AppError Reply)}
    (hprogram : conn.program = .call c k) (halone : conn.EditsAlone)
    (hrefusal : (conn.view d).refusalOn rows c = none) :
    FormsAfter conn now d (conn.carry rows now d c).2 := by
  have hkept : FormsAfter conn now d d := .kept (List.Sublist.refl _)
  have hchange : FormsAfter conn now d (conn.change rows now d c).2 := by
    rw [Connection.change]
    cases htx : conn.tx with
    | some ws => exact hkept
    | none =>
      have hview : conn.view d = d := by rw [Connection.view, htx]; rfl
      exact forms_effectOn (hview ▸ hrefusal) hprogram
  cases c with
  | begin => exact hkept
  | commit => exact .kept halone.forms_view
  | _ => exact hchange

theorem Connection.EditsAlone.carry
    {k : Except AppError c.Answer → AdminProgram (Except AppError Reply)}
    (hprogram : conn.program = .call c k) (halone : conn.EditsAlone)
    (r : Except AppError c.Answer) :
    Connection.EditsAlone ⟨k r, (conn.carry rows now d c).1, none⟩ := by
  rcases halone with ⟨htx, hasks⟩ | ⟨hasks, hws⟩
  · left
    rw [hprogram] at hasks
    refine ⟨?_, hasks.2 r⟩
    have hchange : (conn.change rows now d c).1 = none := by rw [Connection.change, htx]
    cases c with
    | begin => exact absurd rfl hasks.1
    | commit => rfl
    | _ => exact hchange
  · right
    rw [hprogram] at hasks
    refine ⟨hasks.2 r, ?_⟩
    have hchange : ∀ w ∈ (conn.change rows now d c).1.getD [], w.call.editsForms = false := by
      rw [Connection.change]
      cases htx : conn.tx with
      | none => exact fun w hw => absurd hw List.not_mem_nil
      | some ws =>
        intro w hw
        rcases List.mem_cons.1 hw with rfl | hw
        · exact hasks.1
        · exact hws w (by rw [htx]; exact hw)
    cases c with
    | begin => exact fun w hw => absurd hw List.not_mem_nil
    | commit => exact fun w hw => absurd hw List.not_mem_nil
    | _ => exact hchange

/-- The end of a statement. -/
theorem Connection.EditsAlone.finish {held : RowRef → Bool} {outcome : Outcome}
    (halone : conn.EditsAlone) (hfinish : conn.finish held outcome now d = some (next, d')) :
    next.EditsAlone ∧ FormsAfter conn now d d' := by
  obtain ⟨c, k, rows, hprogram, -, hcases⟩ := Connection.finish_cases hfinish
  rcases hcases with ⟨-, ⟨e, rfl⟩, rfl⟩ | ⟨-, hrefusal, r, -, rfl, rfl⟩
  · refine ⟨?_, .kept (List.Sublist.refl _)⟩
    rcases halone with ⟨htx, hasks⟩ | ⟨hasks, hws⟩
    · rw [hprogram] at hasks
      exact Or.inl ⟨htx, hasks.2 _⟩
    · rw [hprogram] at hasks
      exact Or.inr ⟨hasks.2 _, hws⟩
  · exact ⟨halone.carry hprogram r, forms_carry hprogram halone hrefusal⟩

end

/-! ### Steps of the service -/

/-- Forms are remembered, and the requests edit them as requests do. -/
structure Service.Remembers (s : Service) : Prop where
  homes : ∀ form ∈ s.db.forms.rows, (s.homes form.id).isSome
  requests : ∀ task ∈ s.requests, task.conn.EditsAlone

/-- What a step makes of the forms. -/
inductive Service.FormsStep (s s' : Service) : ServiceEvent → Prop
  | kept {e : ServiceEvent} (h : s'.db.forms = s.db.forms) : FormsStep s s' e
  | finished {i : Nat} {outcome : Outcome} {now : Instant} {pre post : List AdminTask}
    {task : AdminTask}
      (hparty : partyAt s.requests i = some (pre, task, post))
        (h : FormsAfter task.conn now s.db s'.db)
      (hfresh : ∀ form k, task.conn.program = .call (.insertForm form) k → s.homes form.id = none) :
      FormsStep s s' (.finish i outcome now)

section

variable {libs : AdminLibs} {submitLibs : SubmitLibs} {s s' t : Service} {e : ServiceEvent}

theorem forms_of_serviceStep (h : s.Remembers) (hstep : serviceStep libs submitLibs s e = some s') :
    s.FormsStep s' e := by
  cases e with
  | submit e =>
    rw [serviceStep] at hstep
    split at hstep
    · cases hstep
    · rename_i hwaits
      obtain ⟨t, ht, rfl⟩ := Option.map_eq_some_iff.1 hstep
      exact .kept (forms_of_submitStep ht fun form heq => hwaits (heq ▸ rfl))
  | request guildId req =>
    obtain rfl := Option.some.inj hstep
    exact .kept rfl
  | start i =>
    simp only [serviceStep, Option.bind_eq_some_iff, Option.map_eq_some_iff] at hstep
    obtain ⟨-, -, conn, -, rfl⟩ := hstep
    exact .kept rfl
  | finish i outcome now =>
    simp only [serviceStep, Option.bind_eq_some_iff, Option.ite_none_left_eq_some,
      Option.map_eq_some_iff] at hstep
    obtain ⟨⟨pre, task, post⟩, hparty, hreuses, ⟨conn, d'⟩, hfinish, rfl⟩ := hstep
    refine .finished hparty ((h.requests task (mem_of_partyAt hparty)).finish hfinish).2
      fun form k hprogram => ?_
    rw [Service.reusesId, hprogram] at hreuses
    exact Option.not_isSome_iff_eq_none.1 hreuses
  | close i =>
    simp only [serviceStep, Option.map_eq_some_iff] at hstep
    obtain ⟨-, -, rfl⟩ := hstep
    exact .kept rfl
  | link c =>
    simp only [serviceStep] at hstep
    split at hstep
    · cases hstep
    · obtain rfl := Option.some.inj hstep
      refine .kept ?_
      cases c with
      | register guildId roleId apiToken =>
        dsimp only [Database.link]
        split <;> rfl
      | insertSettings guildId =>
        dsimp only [Database.link]
        split <;> rfl
      | _ => rfl

/-- What has been remembered stays remembered. -/
theorem homes_of_serviceStep {id : Uuid} (hid : (s.homes id).isSome)
    (hstep : serviceStep libs submitLibs s e = some s') :
    (s'.homes id).isSome := by
  cases e with
  | submit e =>
    rw [serviceStep] at hstep
    split at hstep
    · cases hstep
    · obtain ⟨t, -, rfl⟩ := Option.map_eq_some_iff.1 hstep
      exact hid
  | request guildId req =>
    obtain rfl := Option.some.inj hstep
    exact hid
  | start i =>
    simp only [serviceStep, Option.bind_eq_some_iff, Option.map_eq_some_iff] at hstep
    obtain ⟨-, -, conn, -, rfl⟩ := hstep
    exact hid
  | finish i outcome now =>
    simp only [serviceStep, Option.bind_eq_some_iff, Option.ite_none_left_eq_some,
      Option.map_eq_some_iff] at hstep
    obtain ⟨-, -, -, -, -, rfl⟩ := hstep
    obtain ⟨guild, hguild⟩ := Option.isSome_iff_exists.1 hid
    rw [show Service.homes _ id = some guild from remembered_mono hguild]
    rfl
  | close i =>
    simp only [serviceStep, Option.map_eq_some_iff] at hstep
    obtain ⟨-, -, rfl⟩ := hstep
    exact hid
  | link c =>
    simp only [serviceStep] at hstep
    split at hstep
    · cases hstep
    · obtain rfl := Option.some.inj hstep
      exact hid

theorem remembers_step (h : s.Remembers) (hstep : serviceStep libs submitLibs s e = some s') :
    s'.Remembers := by
  constructor
  · intro form hform
    cases forms_of_serviceStep h hstep with
    | kept hforms => exact homes_of_serviceStep (h.homes form (hforms ▸ hform)) hstep
    | finished hparty hafter hfresh =>
      -- the forms that are there after the statement are remembered
      simp only [serviceStep, hparty, Option.bind_some, Option.ite_none_left_eq_some,
        Option.map_eq_some_iff] at hstep
      obtain ⟨-, ⟨conn, d'⟩, -, rfl⟩ := hstep
      have hfound : (d'.forms.rows.find? (·.id = form.id)).isSome :=
        List.find?_isSome.2 ⟨form, hform, decide_eq_true rfl⟩
      change ((s.homes form.id).or ((d'.forms.rows.find? (·.id = form.id)).map (·.guildId))).isSome
      rw [Option.isSome_or, Option.isSome_map, hfound, Bool.or_true]
  · cases e with
    | submit e =>
      rw [serviceStep] at hstep
      split at hstep
      · cases hstep
      · obtain ⟨t, -, rfl⟩ := Option.map_eq_some_iff.1 hstep
        exact h.requests
    | request guildId req =>
      obtain rfl := Option.some.inj hstep
      intro task htask
      rcases List.mem_cons.1 htask with rfl | htask
      · exact AdminTask.of_editsAlone guildId req
      · exact h.requests task htask
    | start i =>
      simp only [serviceStep, Option.bind_eq_some_iff, Option.map_eq_some_iff] at hstep
      obtain ⟨⟨pre, task, post⟩, hparty, conn, hstart, rfl⟩ := hstep
      intro task' htask'
      rcases mem_middle.1 htask' with rfl | htask'
      · obtain ⟨c, k, -, -, rfl⟩ := Connection.start_eq_some hstart
        exact h.requests task (mem_of_partyAt hparty)
      · exact h.requests task' (mem_of_partyAt_others hparty htask')
    | finish i outcome now =>
      simp only [serviceStep, Option.bind_eq_some_iff, Option.ite_none_left_eq_some,
        Option.map_eq_some_iff] at hstep
      obtain ⟨⟨pre, task, post⟩, hparty, -, ⟨conn, d'⟩, hfinish, rfl⟩ := hstep
      intro task' htask'
      rcases mem_middle.1 htask' with rfl | htask'
      · exact ((h.requests task (mem_of_partyAt hparty)).finish hfinish).1
      · exact h.requests task' (mem_of_partyAt_others hparty htask')
    | close i =>
      simp only [serviceStep, Option.map_eq_some_iff] at hstep
      obtain ⟨⟨pre, task, post⟩, hparty, rfl⟩ := hstep
      exact fun task' htask' => h.requests task' (mem_of_partyAt_others hparty htask')
    | link c =>
      simp only [serviceStep] at hstep
      split at hstep
      · cases hstep
      · obtain rfl := Option.some.inj hstep
        exact h.requests

/-! ### Runs -/

/-- A form that there has been: if it is there, it is what it may have become. -/
def Service.Knew (s : Service) (form : Form) : Prop :=
  (s.homes form.id).isSome ∧ ∀ later ∈ s.db.forms.rows, later.id = form.id → form.Becomes later

theorem Service.Remembers.knew {form : Form} (h : s.Remembers) (hform : form ∈ s.db.forms.rows) :
    s.Knew form := by
  refine ⟨h.homes form hform, fun later hlater hid => ?_⟩
  obtain rfl := Table.eq_of_key hlater hform hid
  exact Form.Becomes.refl later

theorem knew_step {form : Form} (hs : s.Remembers) (h : s.Knew form)
    (hstep : serviceStep libs submitLibs s e = some s') :
    s'.Knew form := by
  obtain ⟨hhome, hbecomes⟩ := h
  refine ⟨homes_of_serviceStep hhome hstep, fun later hlater hid => ?_⟩
  cases forms_of_serviceStep hs hstep with
  | kept hforms => exact hbecomes later (hforms ▸ hlater) hid
  | finished hparty hafter hfresh =>
    cases hafter with
    | kept hsub => exact hbecomes later (hsub.subset hlater) hid
    | inserted hprogram hslug hforms =>
      rw [hforms] at hlater
      rcases List.mem_append.1 hlater with hlater | hlater
      · exact hbecomes later hlater hid
      · -- its id would be that of a form that there has been
        obtain rfl := List.mem_singleton.1 hlater
        rw [← hid, show s.homes _ = none from hfresh _ _ hprogram] at hhome
        cases hhome
    | updated hprogram hp hforms =>
      rw [hforms] at hlater
      obtain ⟨row, hrow, rfl⟩ := Table.mem_update.1 hlater
      split at hid
      · rename_i hmatch
        rw [if_pos hmatch]
        obtain ⟨rfl, hlt⟩ := hp row hrow hmatch
        exact (hbecomes row hrow hid).trans (Form.becomes_set hlt)
      · rename_i hmatch
        rw [if_neg hmatch]
        exact hbecomes row hrow hid

theorem Service.Quiet.remembers (hquiet : s.Quiet)
    (hhomes : ∀ form ∈ s.db.forms.rows, (s.homes form.id).isSome) : s.Remembers := by
  refine ⟨hhomes, fun task htask => ?_⟩
  rw [hquiet.2] at htask
  exact absurd htask List.not_mem_nil

private theorem remembers_run {C : Service → ServiceEvent → Service → Prop} {es : List ServiceEvent}
    (h : s.Remembers) (hrun : (serviceSystem libs submitLibs).Run C s es t) : t.Remembers :=
  hrun.invariant (P := Service.Remembers) (fun _ _ _ h _ hstep => remembers_step h hstep) h

private theorem knew_run {form : Form} {fs : List ServiceEvent} (hs : s.Remembers) (h : s.Knew form)
    (hrun : (serviceSystem libs submitLibs).Run (fun _ _ _ => True) s fs t) : t.Knew form := by
  have hinv : t.Remembers ∧ t.Knew form :=
    hrun.invariant (P := fun t => t.Remembers ∧ t.Knew form)
      (fun _ _ _ h _ hstep => ⟨remembers_step h.1 hstep, knew_step h.1 h.2 hstep⟩) ⟨hs, h⟩
  exact hinv.2

/-- From any state of a run to any later one: a form keeps its guild, its slug and its preview
token, its version does not go down, and as long as it keeps its version it keeps all of its
columns. -/
theorem versions_determine_forms {s₀ s t : Service} {es fs : List ServiceEvent} (hquiet : s₀.Quiet)
    (hhomes : ∀ form ∈ s₀.db.forms.rows, (s₀.homes form.id).isSome)
    (hrun : (serviceSystem libs submitLibs).Run (fun _ _ _ => True) s₀ es s)
    (hrun' : (serviceSystem libs submitLibs).Run (fun _ _ _ => True) s fs t) :
    ∀ form ∈ s.db.forms.rows, ∀ later ∈ t.db.forms.rows, later.id = form.id →
      form.Becomes later := by
  have hs := remembers_run (hquiet.remembers hhomes) hrun
  intro form hform
  exact (knew_run hs (hs.knew hform) hrun').2

/-! ### Slugs -/

theorem slugs_step (h : s.Remembers) (hslugs : (s.db.forms.rows.map (·.slug)).Nodup)
    (hstep : serviceStep libs submitLibs s e = some s') :
    (s'.db.forms.rows.map (·.slug)).Nodup := by
  cases forms_of_serviceStep h hstep with
  | kept hforms => exact hforms ▸ hslugs
  | finished hparty hafter hfresh =>
    cases hafter with
    | kept hsub => exact hslugs.sublist (hsub.map _)
    | inserted hprogram hslug hforms =>
      rw [hforms, List.map_append, List.map_singleton, List.nodup_append]
      refine ⟨hslugs, List.nodup_singleton _, ?_⟩
      rintro slug hmem _ hnew rfl
      exact hslug (List.mem_singleton.1 hnew ▸ hmem)
    | updated hprogram hp hforms =>
      -- an edit sets no slug
      have hkept : ∀ (p : Form → Bool) (c : SetClause Form.id),
        (∀ row, (c.set row).slug = row.slug) →
          (s.db.forms.update p c).rows.map (·.slug) = s.db.forms.rows.map (·.slug) := by
        intro p c hc
        rw [Table.update, List.map_map]
        refine List.map_congr_left fun row _ => ?_
        simp only [Function.comp]
        split
        · exact hc row
        · rfl
      rw [hforms, hkept _ _ fun _ => rfl]
      exact hslugs

/-- The slug of a form leads to it as long as it is there, whatever is created, copied or deleted
meanwhile. -/
theorem slug_leads_to_form {s₀ s t : Service} {es fs : List ServiceEvent} (hquiet : s₀.Quiet)
    (hhomes : ∀ form ∈ s₀.db.forms.rows, (s₀.homes form.id).isSome)
    (hslugs : (s₀.db.forms.rows.map (·.slug)).Nodup)
    (hrun : (serviceSystem libs submitLibs).Run (fun _ _ _ => True) s₀ es s)
    (hrun' : (serviceSystem libs submitLibs).Run (fun _ _ _ => True) s fs t) :
    ∀ form ∈ s.db.forms.rows, ∀ later ∈ t.db.forms.rows, later.id = form.id →
      t.db.forms.rows.find? (·.slug = form.slug) = some later := by
  intro form hform later hlater hid
  have hs := remembers_run (hquiet.remembers hhomes) hrun
  have hslug : later.slug = form.slug :=
    ((knew_run hs (hs.knew hform) hrun').2 later hlater hid).slug
  have ht : t.Remembers ∧ (t.db.forms.rows.map (·.slug)).Nodup := by
    refine (hrun.append hrun').invariant (P := fun t => t.Remembers ∧
      (t.db.forms.rows.map (·.slug)).Nodup)
      (fun _ _ _ h _ hstep => ⟨remembers_step h.1 hstep, slugs_step h.1 h.2 hstep⟩)
        ⟨hquiet.remembers hhomes, hslugs⟩
  have hsome : (t.db.forms.rows.find? (·.slug = form.slug)).isSome :=
    List.find?_isSome.2 ⟨later, hlater, decide_eq_true hslug⟩
  obtain ⟨found, hfound⟩ := Option.isSome_iff_exists.1 hsome
  have hfoundSlug : found.slug = form.slug := by simpa using List.find?_some hfound
  rw [hfound, List.inj_on_of_nodup_map ht.2 (List.mem_of_find?_eq_some hfound) hlater
    (hfoundSlug.trans hslug.symm)]

end

/-! ### A save and a copy -/

/-- The only form is saved and then copied. -/
def saveAndCopy : List ServiceEvent :=
  .request ['g'] (.updateForm surveyId.text (titled "mine" 1)) :: stepsOf 0 4 ++
    .request ['g'] (.duplicateForm surveyId.text ⟨0xc, ['p'], fun n => Text.ofNat n⟩) :: stepsOf 0 2

theorem surveyDatabase_remembered : ∀ form ∈ (quietService surveyDatabase).db.forms.rows,
    ((quietService surveyDatabase).homes form.id).isSome := by
  intro form hform
  obtain rfl := List.mem_singleton.1 hform
  rfl

private theorem saveAndCopy_runs :
    ∃ t, (serviceSystem tabLibs quizLibs).Run (fun _ _ _ => True)
    (quietService surveyDatabase) saveAndCopy t ∧
    t.db.forms.rows.map (fun form => (form.id, form.slug, form.version)) =
      [(surveyId, ['s'], 2), (0xc, ['0'], 1)] := by
  have hexec : ((serviceSystem tabLibs quizLibs).exec (quietService surveyDatabase) saveAndCopy).any
      (fun t =>
        t.db.forms.rows.map (fun form => (form.id, form.slug, form.version)) =
            [(surveyId, ['s'], 2), (0xc, ['0'], 1)]) := by
    decide +kernel
  obtain ⟨t, ht, hforms⟩ := (Option.any_eq_true _ _).1 hexec
  exact ⟨t, System.Run.of_exec ht fun _ _ _ _ => trivial, of_decide_eq_true hforms⟩

theorem versions_determine_forms_survey : ∃ t : Service, t.db.forms.rows.map (·.version) = [2, 1] ∧
    ∀ form ∈ surveyDatabase.forms.rows, ∀ later ∈ t.db.forms.rows, later.id = form.id →
      form.Becomes later := by
  obtain ⟨t, hrun, hforms⟩ := saveAndCopy_runs
  refine ⟨t, ?_, versions_determine_forms ⟨rfl, rfl⟩ surveyDatabase_remembered (.nil _) hrun⟩
  simpa [Function.comp_def] using congrArg (List.map fun row => row.2.2) hforms

theorem slug_leads_to_form_survey : ∃ t : Service, t.db.forms.rows.map (·.slug) = [['s'], ['0']] ∧
    ∀ form ∈ surveyDatabase.forms.rows, ∀ later ∈ t.db.forms.rows, later.id = form.id →
      t.db.forms.rows.find? (·.slug = form.slug) = some later := by
  obtain ⟨t, hrun, hforms⟩ := saveAndCopy_runs
  refine ⟨t, ?_, slug_leads_to_form ⟨rfl, rfl⟩ surveyDatabase_remembered (by decide) (.nil _) hrun⟩
  simpa [Function.comp_def] using congrArg (List.map fun row => row.2.1) hforms

end FormRespondentRole
