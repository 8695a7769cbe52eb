import FormRespondentRole.CanonicalRow
import FormRespondentRole.Homes

/-!
# Requests of one guild

A request of a guild leaves the rows of the other guilds as they are, and its answer goes by the
rows of its own guild (`tenants_isolated`).  Many of its statements filter by form only: they stay
within the guild because the form has been seen to be of the guild, and because links and responses
are of the guild of their form (`service_sound_run`).
-/

namespace FormRespondentRole

open Foundations

/-! ### Rows by guild -/

structure GuildRows where
  forms : List Form
  responses : List FormResponse
  roleLinks : List RoleLink
  guildSettings : List GuildSettings

/-- The rows of these guilds. -/
def Database.rowsOf (d : Database) (p : Text → Bool) : GuildRows where
  forms := d.forms.rows.filter fun form => p form.guildId
  responses := d.responses.rows.filter fun row => p row.guildId
  roleLinks := d.roleLinks.rows.filter fun link => p link.guildId
  guildSettings := d.guildSettings.rows.filter fun settings => p settings.guildId

section

variable {α : Type} {l : List α} {p q : α → Bool}

/-- A selection within a selection. -/
theorem filter_within (h : ∀ a ∈ l, q a = true → p a = true) :
    l.filter q = (l.filter p).filter q := by
  rw [List.filter_filter]
  refine List.filter_congr fun a ha => ?_
  cases hq : q a with
  | false => rfl
  | true => rw [h a ha hq]; rfl

private theorem any_within (h : ∀ a ∈ l, q a = true → p a = true) :
    l.any q = (l.filter p).any q := by
  rw [Bool.eq_iff_iff, List.any_eq_true, List.any_eq_true]
  constructor
  · rintro ⟨a, ha, hq⟩
    exact ⟨a, List.mem_filter.2 ⟨ha, h a ha hq⟩, hq⟩
  · rintro ⟨a, ha, hq⟩
    exact ⟨a, (List.mem_filter.1 ha).1, hq⟩

end

/-- The settings of a guild after an upsert. -/
theorem filter_upsert (d : Database) (guildId viewPermission : Text) :
    (d.upsertViewPermission guildId viewPermission).rows.filter (·.guildId = guildId) =
      if d.guildSettings.rows.filter (·.guildId = guildId) = [] then [⟨guildId, viewPermission⟩]
      else (d.guildSettings.rows.filter (·.guildId = guildId)).map
      (viewPermissionSet viewPermission).set := by
  have hempty : d.guildSettings.rows.filter (·.guildId = guildId) = [] ↔
      guildId ∉ d.guildSettings.rows.map GuildSettings.guildId := by
    simp [List.filter_eq_nil_iff]
  unfold Database.upsertViewPermission
  split
  · rename_i hnew
    rw [if_pos (hempty.2 hnew), Table.insert_rows, List.filter_append, hempty.2 hnew,
      List.filter_singleton]
    simp
  · rename_i hnew
    rw [if_neg fun h => hnew (hempty.1 h), Table.filter_update _ _ fun _ => rfl]
    refine List.map_congr_left fun settings hsettings => ?_
    rw [if_pos (List.mem_filter.1 hsettings).2]

/-! ### What a statement touches -/

section

variable {homes : Uuid → Option Text} {guildId : Text} {inserts : Form → Prop} {owned : List Uuid}
  {d d₁ d₂ : Database}
  {rows : List RowRef} {now : Instant} {c : AdminCall}

private theorem Homed.link_guild (h : Homed homes d) {u : Uuid} (hu : homes u = some guildId)
    {link : RoleLink} (hlink : link ∈ d.roleLinks.rows) (hbound : link.formId = some u.text) :
    link.guildId = guildId :=
  (h.links link hlink _ hbound).eq hu

private theorem Homed.response_guild (h : Homed homes d) {u : Uuid} (hu : homes u = some guildId)
    {row : FormResponse} (hrow : row ∈ d.responses.rows) (hform : row.formId = u.text) :
    row.guildId = guildId := by
  have hhome := h.responses row hrow
  rw [hform] at hhome
  exact hhome.eq hu

private theorem others_insertForm {form : Form} (hguild : form.guildId = guildId) :
    (d.effect now (.insertForm form)).rowsOf (· ≠ guildId) = d.rowsOf (· ≠ guildId) := by
  dsimp only [Database.effect]
  split
  · split
    · simp only [Database.rowsOf, Table.insert_rows, List.filter_append, GuildRows.mk.injEq,
        and_true]
      simp [hguild]
    · rfl
  · rfl

/-- A statement leaves the rows of the other guilds as they are. -/
theorem others_effectOn (h : Homed homes d) (howned : ∀ u ∈ owned, homes u = some guildId)
    (hc : Permits guildId owned c) :
    (d.effectOn rows now c).rowsOf (· ≠ guildId) = d.rowsOf (· ≠ guildId) := by
  cases c with
  | insertForm form => exact others_insertForm hc
  | updateForm id guild version edit =>
    have hguild : guild = guildId := hc
    refine congrArg (fun forms => { d.rowsOf (· ≠ guildId) with forms := forms }) ?_
    refine Table.filter_update_of_not (fun _ => rfl) fun form _ hother =>
      decide_eq_false fun hmatch => ?_
    exact of_decide_eq_true hother (hmatch.2.2.1.trans hguild)
  | deleteForm id guild =>
    have hguild : guild = guildId := hc
    refine congrArg (fun forms => { d.rowsOf (· ≠ guildId) with forms := forms }) ?_
    refine Table.filter_delete_of_not fun form _ hother => decide_eq_false fun hmatch => ?_
    exact of_decide_eq_true hother (hmatch.2.2.trans hguild)
  | unbindLinks formId =>
    obtain ⟨u, hu, rfl⟩ := hc
    refine congrArg (fun links => { d.rowsOf (· ≠ guildId) with roleLinks := links }) ?_
    refine Table.filter_update_of_not (fun _ => rfl) fun link hlink hother =>
      decide_eq_false fun hmatch => ?_
    exact of_decide_eq_true hother (h.link_guild (howned u hu) hlink hmatch.2)
  | saveLink guild roleId formId grantOnAnySubmission conditions =>
    have hguild : guild = guildId := hc.1
    refine congrArg (fun links => { d.rowsOf (· ≠ guildId) with roleLinks := links }) ?_
    refine Table.filter_update_of_not (fun _ => rfl) fun link _ hother =>
      decide_eq_false fun hmatch => ?_
    exact of_decide_eq_true hother ((congrArg Prod.fst hmatch.2).trans hguild)
  | deleteResponse id formId =>
    obtain ⟨u, hu, rfl⟩ := hc
    refine congrArg (fun rows => { d.rowsOf (· ≠ guildId) with responses := rows }) ?_
    refine Table.filter_delete_of_not fun row hrow hother => decide_eq_false fun hmatch => ?_
    exact of_decide_eq_true hother (h.response_guild (howned u hu) hrow hmatch.2.2)
  | deleteResponses formId =>
    obtain ⟨u, hu, rfl⟩ := hc
    refine congrArg (fun rows => { d.rowsOf (· ≠ guildId) with responses := rows }) ?_
    refine Table.filter_delete_of_not fun row hrow hother => decide_eq_false fun hmatch => ?_
    exact of_decide_eq_true hother (h.response_guild (howned u hu) hrow hmatch.2)
  | upsertViewPermission guild viewPermission =>
    have hguild : guild = guildId := hc
    refine congrArg (fun settings => { d.rowsOf (· ≠ guildId) with guildSettings := settings }) ?_
    change (d.upsertViewPermission guild viewPermission).rows.filter _ = _
    unfold Database.upsertViewPermission
    split
    · rw [Table.insert_rows, List.filter_append, List.filter_singleton]
      simp [hguild]
    · refine Table.filter_update_of_not (fun _ => rfl) fun settings _ hother =>
        decide_eq_false fun hmatch => ?_
      exact of_decide_eq_true hother (hmatch.trans hguild)
  | _ => rfl

private theorem others_effect (h : Homed homes d) (howned : ∀ u ∈ owned, homes u = some guildId)
    (hc : Permits guildId owned c) :
    (d.effect now c).rowsOf (· ≠ guildId) = d.rowsOf (· ≠ guildId) := by
  rw [← Database.effectOn_targets]
  exact others_effectOn h howned hc

private theorem others_applyWrites (h : Homed homes d)
    (howned : ∀ u ∈ owned, homes u = some guildId) {ws : List Write}
    (hws : ∀ w ∈ ws, Permits guildId owned w.call ∧ ∀ form, w.call ≠ .insertForm form) :
    (applyWrites ws d).rowsOf (· ≠ guildId) = d.rowsOf (· ≠ guildId) := by
  induction ws with
  | nil => rfl
  | cons w ws ih =>
    have htail : ∀ w ∈ ws, Permits guildId owned w.call ∧ ∀ form, w.call ≠ .insertForm form :=
      fun w hw => hws w (List.mem_cons_of_mem _ hw)
    exact (others_effectOn (homed_applyWrites h howned htail) howned
      (hws w List.mem_cons_self).1).trans (ih htail)

/-- The end of a statement of a request leaves the rows of the other guilds as they are. -/
theorem AdminTask.Sound.others_finish {task : AdminTask} {g : Conduct} {d' : Database}
    {held : RowRef → Bool} {outcome : Outcome} {conn : Connection Reply}
    (h : task.Sound homes inserts g) (hd : Homed homes d)
    (hfinish : task.conn.finish held outcome now d = some (conn, d')) :
    d'.rowsOf (· ≠ task.guildId) = d.rowsOf (· ≠ task.guildId) := by
  obtain ⟨c, k, rows, hprogram, -, hcases⟩ := Connection.finish_cases hfinish
  have hfollows := h.follows
  rw [hprogram] at hfollows
  obtain ⟨hasks, -⟩ := hfollows
  rcases hcases with ⟨-, -, rfl⟩ | ⟨-, -, r, -, -, rfl⟩
  · rfl
  have hchange : (task.conn.change rows now d c).2.rowsOf (· ≠ task.guildId) =
      d.rowsOf (· ≠ task.guildId) := by
    rw [Connection.change]
    cases task.conn.tx with
    | none => exact others_effectOn hd h.owned (permits_of_asks hasks)
    | some ws => rfl
  cases c with
  | begin => rfl
  | commit =>
    obtain ⟨calls, htx⟩ := Option.isSome_iff_exists.1 hasks
    have hws := h.tx
    rw [htx] at hws
    obtain ⟨ws, hconn, rfl⟩ := Option.map_eq_some_iff.1 hws.symm
    change (task.conn.view d).rowsOf _ = _
    rw [Connection.view, hconn]
    exact others_applyWrites hd h.owned fun w hw => (h.transacts _ htx).writes hw
  | _ => exact hchange

/-- What a statement makes of the rows of its guild goes by these rows. -/
theorem own_effect (hrows : d₁.rowsOf (· = guildId) = d₂.rowsOf (· = guildId))
    (hc : Permits guildId owned c) (hinsert : ∀ form, c ≠ .insertForm form) :
    (d₁.effect now c).rowsOf (· = guildId) = (d₂.effect now c).rowsOf (· = guildId) := by
  have hforms := congrArg GuildRows.forms hrows
  have hresponses := congrArg GuildRows.responses hrows
  have hlinks := congrArg GuildRows.roleLinks hrows
  have hsettings := congrArg GuildRows.guildSettings hrows
  dsimp only [Database.rowsOf] at hforms hresponses hlinks hsettings
  cases c with
  | insertForm form => exact absurd rfl (hinsert form)
  | updateForm id guild version edit =>
    simp only [Database.rowsOf, Database.effect, GuildRows.mk.injEq]
    refine ⟨?_, hresponses, hlinks, hsettings⟩
    rw [Table.filter_update _ _ fun _ => rfl, Table.filter_update _ _ fun _ => rfl, hforms]
  | deleteForm id guild =>
    simp only [Database.rowsOf, Database.effect, GuildRows.mk.injEq]
    refine ⟨?_, hresponses, hlinks, hsettings⟩
    rw [Table.filter_delete, Table.filter_delete, hforms]
  | unbindLinks formId =>
    simp only [Database.rowsOf, Database.effect, GuildRows.mk.injEq]
    refine ⟨hforms, hresponses, ?_, hsettings⟩
    rw [Table.filter_update _ _ fun _ => rfl, Table.filter_update _ _ fun _ => rfl, hlinks]
  | saveLink guild roleId formId grantOnAnySubmission conditions =>
    simp only [Database.rowsOf, Database.effect, GuildRows.mk.injEq]
    refine ⟨hforms, hresponses, ?_, hsettings⟩
    rw [Table.filter_update _ _ fun _ => rfl, Table.filter_update _ _ fun _ => rfl, hlinks]
  | deleteResponse id formId =>
    simp only [Database.rowsOf, Database.effect, GuildRows.mk.injEq]
    refine ⟨hforms, ?_, hlinks, hsettings⟩
    rw [Table.filter_delete, Table.filter_delete, hresponses]
  | deleteResponses formId =>
    simp only [Database.rowsOf, Database.effect, GuildRows.mk.injEq]
    refine ⟨hforms, ?_, hlinks, hsettings⟩
    rw [Table.filter_delete, Table.filter_delete, hresponses]
  | upsertViewPermission guild viewPermission =>
    obtain rfl : guild = guildId := hc
    simp only [Database.rowsOf, Database.effect, GuildRows.mk.injEq]
    refine ⟨hforms, hresponses, hlinks, ?_⟩
    rw [filter_upsert, filter_upsert, hsettings]
  | _ => exact hrows

/-! ### What a statement finds -/

variable {homes₁ homes₂ : Uuid → Option Text} {g : Conduct} {formId : Text}

/-- Selections within a guild are the same where the rows of the guild are. -/
theorem filter_forms (hrows : d₁.rowsOf (· = guildId) = d₂.rowsOf (· = guildId)) {q : Form → Bool}
    (hq : ∀ form, q form = true → form.guildId = guildId) :
    d₁.forms.rows.filter q = d₂.forms.rows.filter q := by
  have hwithin : ∀ d : Database, d.forms.rows.filter q = (d.rowsOf (· = guildId)).forms.filter q :=
    fun d => filter_within fun form _ hform => decide_eq_true (hq form hform)
  rw [hwithin d₁, hwithin d₂, hrows]

private theorem form?_eq (hrows : d₁.rowsOf (· = guildId) = d₂.rowsOf (· = guildId)) (id : Uuid) :
    d₁.form? id guildId = d₂.form? id guildId := by
  unfold Database.form?
  rw [← List.head?_filter, ← List.head?_filter, filter_forms hrows fun form hform =>
    (of_decide_eq_true hform).2]

private theorem filter_responses (hrows : d₁.rowsOf (· = guildId) = d₂.rowsOf (· = guildId))
    {q : FormResponse → Bool} (h₁ : ∀ row ∈ d₁.responses.rows, q row = true → row.guildId = guildId)
    (h₂ : ∀ row ∈ d₂.responses.rows, q row = true → row.guildId = guildId) :
    d₁.responses.rows.filter q = d₂.responses.rows.filter q := by
  have hwithin : ∀ d : Database, (∀ row ∈ d.responses.rows, q row = true → row.guildId = guildId) →
      d.responses.rows.filter q = (d.rowsOf (· = guildId)).responses.filter q := fun d h =>
    filter_within fun row hrow hq => decide_eq_true (h row hrow hq)
  rw [hwithin d₁ h₁, hwithin d₂ h₂, hrows]

private theorem filter_links (hrows : d₁.rowsOf (· = guildId) = d₂.rowsOf (· = guildId))
    {q : RoleLink → Bool} (h₁ : ∀ link ∈ d₁.roleLinks.rows, q link = true → link.guildId = guildId)
    (h₂ : ∀ link ∈ d₂.roleLinks.rows, q link = true → link.guildId = guildId) :
    d₁.roleLinks.rows.filter q = d₂.roleLinks.rows.filter q := by
  have hwithin :
    ∀ d : Database, (∀ link ∈ d.roleLinks.rows, q link = true → link.guildId = guildId) →
      d.roleLinks.rows.filter q = (d.rowsOf (· = guildId)).roleLinks.filter q := fun d h =>
    filter_within fun link hlink hq => decide_eq_true (h link hlink hq)
  rw [hwithin d₁ h₁, hwithin d₂ h₂, hrows]

/-- The responses and the links of a form of the guild. -/
theorem formResponses_eq (h₁ : Homed homes₁ d₁) (h₂ : Homed homes₂ d₂)
    (hrows : d₁.rowsOf (· = guildId) = d₂.rowsOf (· = guildId)) {u : Uuid}
    (hu₁ : homes₁ u = some guildId) (hu₂ : homes₂ u = some guildId) {q : FormResponse → Bool}
    (hq : ∀ row, q row = true → row.formId = u.text) :
    d₁.responses.rows.filter q = d₂.responses.rows.filter q :=
  filter_responses hrows (fun row hrow h => h₁.response_guild hu₁ hrow (hq row h))
    fun row hrow h => h₂.response_guild hu₂ hrow (hq row h)

private theorem boundLinks_eq (h₁ : Homed homes₁ d₁) (h₂ : Homed homes₂ d₂)
    (hrows : d₁.rowsOf (· = guildId) = d₂.rowsOf (· = guildId)) {u : Uuid}
    (hu₁ : homes₁ u = some guildId) (hu₂ : homes₂ u = some guildId) :
    d₁.boundLinks u.text = d₂.boundLinks u.text :=
  filter_links hrows (fun _ hlink hq => h₁.link_guild hu₁ hlink (of_decide_eq_true hq))
    fun _ hlink hq => h₂.link_guild hu₂ hlink (of_decide_eq_true hq)

/-- A form of the guild is at home in both databases. -/
theorem homes_of_rows (h₁ : Homed homes₁ d₁) (h₂ : Homed homes₂ d₂)
    (hrows : d₁.rowsOf (· = guildId) = d₂.rowsOf (· = guildId)) {form : Form}
    (hform : form ∈ d₂.forms.rows) (hguild : form.guildId = guildId) :
    homes₁ form.id = some guildId ∧ homes₂ form.id = some guildId := by
  have hmem : form ∈ (d₁.rowsOf (· = guildId)).forms := by
    rw [hrows]
    exact List.mem_filter.2 ⟨hform, decide_eq_true hguild⟩
  constructor
  · rw [← hguild]
    exact h₁.forms form (List.mem_filter.1 hmem).1
  · rw [← hguild]
    exact h₂.forms form hform

/-- Pairs of rows that go by one key and forms of that key. -/
theorem length_flatMap_forms {α : Type} (d : Database) (rows : List α) (formOf : α → Form → Bool)
    (q : Form → Bool) (h : ∀ row ∈ rows, ∀ form, formOf row form = q form) :
    (rows.flatMap fun row => d.forms.rows.filter (formOf row)).length =
      rows.length * (d.forms.rows.filter q).length := by
  induction rows with
  | nil => simp
  | cons row rows ih =>
    have hrow : d.forms.rows.filter (formOf row) = d.forms.rows.filter q :=
      List.filter_congr fun form _ => h row List.mem_cons_self form
    rw [List.flatMap_cons, List.length_append, ih fun row hrow =>
      h row (List.mem_cons_of_mem _ hrow), hrow,
      List.length_cons, Nat.succ_mul, Nat.add_comm]

private theorem countResponses_eq (h₁ : Homed homes₁ d₁) (h₂ : Homed homes₂ d₂)
    (hrows : d₁.rowsOf (· = guildId) = d₂.rowsOf (· = guildId)) :
    d₁.answer (.countResponses formId guildId) = d₂.answer (.countResponses formId guildId) := by
  let q : Form → Bool := fun form => decide (form.id.text = formId ∧ form.guildId = guildId)
  have hcount : ∀ d : Database, d.answer (.countResponses formId guildId) =
      (d.formResponses formId).length * (d.forms.rows.filter q).length := by
    intro d
    refine length_flatMap_forms d _ _ q fun row hrow form => ?_
    rw [of_decide_eq_true (List.mem_filter.1 hrow).2]
  have hforms : d₁.forms.rows.filter q = d₂.forms.rows.filter q :=
    filter_forms hrows fun form hform => (of_decide_eq_true hform).2
  rw [hcount, hcount, hforms]
  by_cases hnone : d₂.forms.rows.filter q = []
  · rw [hnone, List.length_nil, Nat.mul_zero, Nat.mul_zero]
  · obtain ⟨form, hfound⟩ := List.exists_mem_of_ne_nil _ hnone
    obtain ⟨hform, hq⟩ := List.mem_filter.1 hfound
    obtain ⟨rfl, hguild⟩ := of_decide_eq_true hq
    obtain ⟨hu₁, hu₂⟩ := homes_of_rows h₁ h₂ hrows hform hguild
    have hresponses : d₁.formResponses form.id.text = d₂.formResponses form.id.text :=
      formResponses_eq h₁ h₂ hrows hu₁ hu₂ fun row hrow => of_decide_eq_true hrow
    rw [hresponses]

private theorem countLinks_eq (h₁ : Homed homes₁ d₁) (h₂ : Homed homes₂ d₂)
    (hrows : d₁.rowsOf (· = guildId) = d₂.rowsOf (· = guildId)) :
    d₁.answer (.countLinks formId guildId) = d₂.answer (.countLinks formId guildId) := by
  let q : Form → Bool := fun form => decide (form.id.text = formId ∧ form.guildId = guildId)
  have hcount : ∀ d : Database, d.answer (.countLinks formId guildId) =
      (d.boundLinks formId).length * (d.forms.rows.filter q).length := by
    intro d
    refine length_flatMap_forms d _ _ q fun link hlink form => ?_
    rw [of_decide_eq_true (List.mem_filter.1 hlink).2]
    exact decide_eq_decide.2 (and_congr_left fun _ => Option.some_inj)
  have hforms : d₁.forms.rows.filter q = d₂.forms.rows.filter q :=
    filter_forms hrows fun form hform => (of_decide_eq_true hform).2
  rw [hcount, hcount, hforms]
  by_cases hnone : d₂.forms.rows.filter q = []
  · rw [hnone, List.length_nil, Nat.mul_zero, Nat.mul_zero]
  · obtain ⟨form, hfound⟩ := List.exists_mem_of_ne_nil _ hnone
    obtain ⟨hform, hq⟩ := List.mem_filter.1 hfound
    obtain ⟨rfl, hguild⟩ := of_decide_eq_true hq
    obtain ⟨hu₁, hu₂⟩ := homes_of_rows h₁ h₂ hrows hform hguild
    rw [boundLinks_eq h₁ h₂ hrows hu₁ hu₂]

private theorem listForms_eq (h₁ : Homed homes₁ d₁) (h₂ : Homed homes₂ d₂)
    (hrows : d₁.rowsOf (· = guildId) = d₂.rowsOf (· = guildId)) :
    d₁.answer (.listForms guildId) = d₂.answer (.listForms guildId) := by
  have hforms : d₁.forms.rows.filter (·.guildId = guildId) =
      d₂.forms.rows.filter (·.guildId = guildId) :=
    filter_forms hrows fun form hform => of_decide_eq_true hform
  simp only [Database.answer, hforms]
  refine List.map_congr_left fun form hform => ?_
  obtain ⟨hform, hguild⟩ := List.mem_filter.1 ((List.mem_insertionSort _).1 hform)
  obtain ⟨hu₁, hu₂⟩ := homes_of_rows h₁ h₂ hrows hform (of_decide_eq_true hguild)
  have hresponses : d₁.formResponses form.id.text = d₂.formResponses form.id.text :=
    formResponses_eq h₁ h₂ hrows hu₁ hu₂ fun row hrow => of_decide_eq_true hrow
  rw [hresponses, boundLinks_eq h₁ h₂ hrows hu₁ hu₂]

/-- A statement of the protocol answers by the rows of its guild. -/
theorem answer_eq (h₁ : Homed homes₁ d₁) (h₂ : Homed homes₂ d₂)
    (howned₁ : ∀ u ∈ g.owned, homes₁ u = some guildId)
    (howned₂ : ∀ u ∈ g.owned, homes₂ u = some guildId)
    (hrows : d₁.rowsOf (· = guildId) = d₂.rowsOf (· = guildId))
    (hasks : (conduct guildId inserts).asks g c) (hinsert : ∀ form, c ≠ .insertForm form) :
    d₁.answer c = d₂.answer c := by
  -- statements that filter by form, of a form of the guild
  have hresponses : ∀ {u : Uuid} {q : FormResponse → Bool}, u ∈ g.owned →
    (∀ row, q row = true → row.formId = u.text) →
      d₁.responses.rows.filter q = d₂.responses.rows.filter q :=
    fun hu => formResponses_eq h₁ h₂ hrows (howned₁ _ hu) (howned₂ _ hu)
  cases c with
  | ownsForm id guild =>
    obtain ⟨rfl, -⟩ := hasks
    exact congrArg Option.isSome (form?_eq hrows id)
  | selectForm id guild =>
    obtain ⟨rfl, -⟩ := hasks
    exact form?_eq hrows id
  | selectVersion id guild =>
    obtain ⟨rfl, -⟩ := hasks
    exact congrArg (Option.map (·.version)) (form?_eq hrows id)
  | listForms guild =>
    obtain ⟨rfl, -⟩ := hasks
    exact listForms_eq h₁ h₂ hrows
  | selectGuildForms guild =>
    obtain ⟨rfl, -⟩ := hasks
    have hforms : d₁.forms.rows.filter (·.guildId = guild) =
        d₂.forms.rows.filter (·.guildId = guild) :=
      filter_forms hrows fun form hform => of_decide_eq_true hform
    simp only [Database.answer, hforms]
  | countResponses formId guild =>
    obtain ⟨rfl, -⟩ := hasks
    exact countResponses_eq h₁ h₂ hrows
  | countLinks formId guild =>
    obtain ⟨rfl, -⟩ := hasks
    exact countLinks_eq h₁ h₂ hrows
  | selectRecentResponses formId =>
    obtain ⟨⟨u, hu, rfl⟩, -⟩ := hasks
    have hform : d₁.formResponses u.text = d₂.formResponses u.text :=
      hresponses hu fun row hrow => of_decide_eq_true hrow
    simp only [Database.answer, hform]
  | selectResponses formId =>
    obtain ⟨⟨u, hu, rfl⟩, -⟩ := hasks
    have hform : d₁.formResponses u.text = d₂.formResponses u.text :=
      hresponses hu fun row hrow => of_decide_eq_true hrow
    simp only [Database.answer, hform]
  | selectBound formId =>
    obtain ⟨⟨u, hu, rfl⟩, -⟩ := hasks
    exact congrArg (List.map RoleLink.key) (boundLinks_eq h₁ h₂ hrows (howned₁ u hu) (howned₂ u hu))
  | selectLink guild roleId =>
    obtain ⟨rfl, -⟩ := hasks
    have hlinks : d₁.roleLinks.rows.filter (·.key = (guild, roleId)) =
        d₂.roleLinks.rows.filter (·.key = (guild, roleId)) :=
      filter_links hrows (fun link _ hq => congrArg Prod.fst (of_decide_eq_true hq))
        fun link _ hq => congrArg Prod.fst (of_decide_eq_true hq)
    simp only [Database.answer]
    rw [← List.head?_filter, ← List.head?_filter, hlinks]
  | selectViewPermission guild =>
    obtain ⟨rfl, -⟩ := hasks
    have hsettings : d₁.guildSettings.rows.filter (·.guildId = guild) =
        d₂.guildSettings.rows.filter (·.guildId = guild) :=
      congrArg GuildRows.guildSettings hrows
    simp only [Database.answer]
    rw [← List.head?_filter, ← List.head?_filter, hsettings]
  | insertForm form => exact absurd rfl (hinsert form)
  | updateForm id guild version edit =>
    obtain ⟨rfl, -⟩ := hasks
    exact congrArg List.length (filter_forms hrows fun form hform => (of_decide_eq_true hform).2.1)
  | deleteForm id guild =>
    obtain rfl : guild = guildId := permits_of_asks hasks
    exact congrArg List.length (filter_forms hrows fun form hform => (of_decide_eq_true hform).2)
  | deleteResponse id formId =>
    obtain ⟨⟨u, hu, rfl⟩, -⟩ := hasks
    simp only [Database.answer]
    rw [← List.head?_filter, ← List.head?_filter, hresponses hu fun row hrow =>
      (of_decide_eq_true hrow).2]
  | deleteResponses formId =>
    obtain ⟨⟨u, hu, rfl⟩, -⟩ := hasks
    exact congrArg List.length (hresponses hu fun row hrow => of_decide_eq_true hrow)
  | _ => rfl

private theorem refusal_eq (hrows : d₁.rowsOf (· = guildId) = d₂.rowsOf (· = guildId))
    (hasks : (conduct guildId inserts).asks g c) (hinsert : ∀ form, c ≠ .insertForm form) :
    d₁.refusal c = d₂.refusal c := by
  cases c with
  | insertForm form => exact absurd rfl (hinsert form)
  | updateForm id guild version edit =>
    obtain ⟨rfl, -⟩ := hasks
    have hany : ∀ d : Database,
      (d.forms.rows.any fun form => decide (form.id = id ∧ form.guildId = guild ∧
        form.version = version ∧ form.version = Int32.maxValue)) =
            (d.rowsOf (· = guild)).forms.any fun form =>
          decide (form.id = id ∧ form.guildId = guild ∧ form.version = version ∧
              form.version = Int32.maxValue) :=
      fun d => any_within fun form _ hform => decide_eq_true (of_decide_eq_true hform).2.1
    simp only [Database.refusal]
    rw [hany d₁, hany d₂, hrows]
  | _ => rfl

/-! ### Requests -/

variable {weather : Weather} {s s₁ s₂ : Session} {rest : GuildRows}

/-- A statement that is carried out works on what the session sees. -/
theorem Session.current_after (hbegin : c = .begin → s.tx = none) :
    (s.after weather c).current = s.current.effect (weather.clock s.calls) c := by
  have hput : ∀ d : Database, (Session.put { s with calls := s.calls + 1 } d).current = d := by
    intro d
    unfold Session.put
    split
    · rfl
    · rename_i hnone
      have hnone : s.tx = none := Option.not_isSome_iff_eq_none.1 hnone
      simp only [Session.current, hnone, Option.getD_none]
  cases c with
  | begin =>
    have hnone := hbegin rfl
    simp only [Session.after, Session.exec, Session.current, Database.effect, hnone,
      Option.getD_none, Option.getD_some]
  | commit => rfl
  | _ => exact hput _

private theorem Session.db_after (weather : Weather) (s : Session) (c : AdminCall) :
    (s.after weather c).db = s.db ∨ (s.after weather c).db = s.current ∨
      (s.after weather c).db = s.current.effect (weather.clock s.calls) c := by
  have hput : ∀ d : Database, (Session.put { s with calls := s.calls + 1 } d).db = s.db ∨
      (Session.put { s with calls := s.calls + 1 } d).db = d := by
    intro d
    unfold Session.put
    split
    · exact Or.inl rfl
    · exact Or.inr rfl
  cases c with
  | begin => exact Or.inl rfl
  | commit => exact Or.inr (Or.inl rfl)
  | _ => exact (hput _).imp id Or.inr

private theorem Session.tx_after (h : s.tx.isSome = g.tx.isSome) :
    (s.after weather c).tx.isSome = (g.after c).tx.isSome := by
  have hput : ∀ d : Database, (Session.put { s with calls := s.calls + 1 } d).tx.isSome =
      (g.tx.map (c :: ·)).isSome := by
    intro d
    rw [Option.isSome_map, ← h]
    unfold Session.put
    split
    · rename_i hsome
      exact hsome.symm
    · rfl
  cases c with
  | begin => rfl
  | commit => rfl
  | _ => exact hput _

private theorem Session.after_calls (weather : Weather) (s : Session) (c : AdminCall) :
    (s.after weather c).calls = s.calls + 1 := by
  have hput : ∀ d : Database, (Session.put { s with calls := s.calls + 1 } d).calls =
      s.calls + 1 := by
    intro d
    unfold Session.put
    split <;> rfl
  cases c with
  | begin => rfl
  | commit => rfl
  | _ => exact hput _

/-- Two sessions in which a request of the guild has found the same. -/
structure Alike (homes₁ homes₂ : Uuid → Option Text) (guildId : Text) (g : Conduct)
    (s₁ s₂ : Session) : Prop where
  first : Homed homes₁ s₁.current
  second : Homed homes₂ s₂.current
  first_owned : ∀ u ∈ g.owned, homes₁ u = some guildId
  second_owned : ∀ u ∈ g.owned, homes₂ u = some guildId
  rows : s₁.current.rowsOf (· = guildId) = s₂.current.rowsOf (· = guildId)
  first_tx : s₁.tx.isSome = g.tx.isSome
  second_tx : s₂.tx.isSome = g.tx.isSome
  calls : s₁.calls = s₂.calls

/-- The other guilds have these rows, and will have them when the transaction commits. -/
def Session.Leaves (s : Session) (guildId : Text) (rest : GuildRows) : Prop :=
  s.db.rowsOf (· ≠ guildId) = rest ∧ s.current.rowsOf (· ≠ guildId) = rest

private theorem tx_eq_none_of_begin (htx : s.tx.isSome = g.tx.isSome)
    (hasks : (conduct guildId inserts).asks g c) (hc : c = .begin) :
    s.tx = none := by
  subst hc
  have hnone : g.tx = none := hasks
  rw [hnone] at htx
  exact Option.not_isSome_iff_eq_none.1 (by rw [htx]; exact Bool.false_ne_true)

/-- A statement of a request leaves the rows of the other guilds as they are. -/
theorem Session.Leaves.after (h : s.Leaves guildId rest) (hd : Homed homes s.current)
    (howned : ∀ u ∈ g.owned, homes u = some guildId) (htx : s.tx.isSome = g.tx.isSome)
    (hasks : (conduct guildId inserts).asks g c) :
    (s.after weather c).Leaves guildId rest := by
  have heffect : (s.current.effect (weather.clock s.calls) c).rowsOf (· ≠ guildId) = rest :=
    (others_effect hd howned (permits_of_asks hasks)).trans h.2
  refine ⟨?_, ?_⟩
  · rcases s.db_after weather c with hdb | hdb | hdb <;> rw [hdb]
    · exact h.1
    · exact h.2
    · exact heffect
  · rw [Session.current_after fun hc => tx_eq_none_of_begin htx hasks hc]
    exact heffect

/-- A statement that both sessions carry out. -/
theorem Alike.after {g' : Conduct} (h : Alike homes₁ homes₂ guildId g s₁ s₂)
    (hasks : (conduct guildId inserts).asks g c) (hinsert : ∀ form, c ≠ .insertForm form)
    (htx : g'.tx = (g.after c).tx)
    (hseen : ∀ u ∈ g'.owned, u ∈ g.owned ∨ ∃ form ∈ s₁.current.forms.rows, form.id = u ∧
      form.guildId = guildId) :
    Alike homes₁ homes₂ guildId g' (s₁.after weather c) (s₂.after weather c) := by
  have hpermits := permits_of_asks hasks
  have hcurrent₁ : (s₁.after weather c).current = s₁.current.effect (weather.clock s₁.calls) c :=
    Session.current_after fun hc => tx_eq_none_of_begin h.first_tx hasks hc
  have hcurrent₂ : (s₂.after weather c).current = s₂.current.effect (weather.clock s₂.calls) c :=
    Session.current_after fun hc => tx_eq_none_of_begin h.second_tx hasks hc
  -- a form that is seen to be of the guild is there in both databases
  have hhomes : ∀ form ∈ s₁.current.forms.rows, form.guildId = guildId →
      homes₁ form.id = some guildId ∧ homes₂ form.id = some guildId :=
    fun form hform hguild => (homes_of_rows h.second h.first h.rows.symm hform hguild).symm
  constructor
  · rw [hcurrent₁, ← Database.effectOn_targets]
    exact homed_effectOn h.first h.first_owned hpermits hinsert
  · rw [hcurrent₂, ← Database.effectOn_targets]
    exact homed_effectOn h.second h.second_owned hpermits hinsert
  · intro u hu
    rcases hseen u hu with hu | ⟨form, hform, rfl, hguild⟩
    · exact h.first_owned u hu
    · exact (hhomes form hform hguild).1
  · intro u hu
    rcases hseen u hu with hu | ⟨form, hform, rfl, hguild⟩
    · exact h.second_owned u hu
    · exact (hhomes form hform hguild).2
  · rw [hcurrent₁, hcurrent₂, h.calls]
    exact own_effect h.rows hpermits hinsert
  · rw [htx]
    exact Session.tx_after h.first_tx
  · rw [htx]
    exact Session.tx_after h.second_tx
  · rw [Session.after_calls, Session.after_calls, h.calls]

/-- A statement answers both sessions alike, and leaves them alike. -/
theorem Alike.step (weather : Weather) (rest : GuildRows) (h : Alike homes₁ homes₂ guildId g s₁ s₂)
    (hasks : (conduct guildId inserts).asks g c) (hinsert : ∀ form, c ≠ .insertForm form) :
    (serveSql weather c s₁).1 = (serveSql weather c s₂).1 ∧
      (∃ g', (conduct guildId inserts).moves g c (serveSql weather c s₁).1 g' ∧
        Alike homes₁ homes₂ guildId g' (serveSql weather c s₁).2 (serveSql weather c s₂).2) ∧
      (s₁.Leaves guildId rest → (serveSql weather c s₁).2.Leaves guildId rest) := by
  have herror : ∀ e g', g' = g ∨ g' = g.after c →
      (conduct guildId inserts).moves g c (.error e) g' := by
    intro e g' hg'
    cases c <;> exact hg'
  have hrefusal : s₁.current.refusal c = s₂.current.refusal c := refusal_eq h.rows hasks hinsert
  have hstay : Alike homes₁ homes₂ guildId g { s₁ with calls := s₁.calls + 1 }
      { s₂ with calls := s₂.calls + 1 } :=
    ⟨h.first, h.second, h.first_owned, h.second_owned, h.rows, h.first_tx, h.second_tx,
      congrArg (· + 1) h.calls⟩
  have hleaves : s₁.Leaves guildId rest → (s₁.after weather c).Leaves guildId rest :=
    fun hl => hl.after h.first h.first_owned h.first_tx hasks
  cases houtcome : weather.outcome s₁.calls with
  | failed e =>
    rw [serveSql_failed houtcome, serveSql_failed (h.calls ▸ houtcome)]
    exact ⟨rfl, ⟨g, herror _ g (Or.inl rfl), hstay⟩, id⟩
  | done =>
    cases hrefused : s₁.current.refusal c with
    | some e =>
      have hcarried : (weather.outcome s₁.calls).carried = true := by rw [houtcome]; rfl
      rw [serveSql_refused hcarried hrefused,
        serveSql_refused (h.calls ▸ hcarried) (hrefusal.symm.trans hrefused)]
      exact ⟨rfl, ⟨g, herror _ g (Or.inl rfl), hstay⟩, id⟩
    | none =>
      rw [serveSql_done houtcome hrefused, serveSql_done (h.calls ▸ houtcome)
        (hrefusal.symm.trans hrefused)]
      refine ⟨congrArg (fun a => Except.ok a)
        (answer_eq h.first h.second h.first_owned h.second_owned h.rows hasks hinsert), ?_, hleaves⟩
      obtain ⟨g', hmove, htx, -, hseen⟩ :=
        moves_answerOn (s₁.current.targets c) h.first h.first_owned hasks
      rw [Database.answerOn_targets] at hmove
      exact ⟨g', hmove, h.after hasks hinsert htx hseen⟩
  | lost e =>
    cases hrefused : s₁.current.refusal c with
    | some e' =>
      have hcarried : (weather.outcome s₁.calls).carried = true := by rw [houtcome]; rfl
      rw [serveSql_refused hcarried hrefused,
        serveSql_refused (h.calls ▸ hcarried) (hrefusal.symm.trans hrefused)]
      exact ⟨rfl, ⟨g, herror _ g (Or.inl rfl), hstay⟩, id⟩
    | none =>
      rw [serveSql_lost houtcome hrefused, serveSql_lost (h.calls ▸ houtcome)
        (hrefusal.symm.trans hrefused)]
      refine ⟨rfl, ⟨g.after c, herror _ _ (Or.inr rfl), h.after hasks hinsert rfl fun u hu =>
        Or.inl ?_⟩, hleaves⟩
      rwa [Conduct.after_owned] at hu

/-- A program of the protocol that inserts no form ends alike in both sessions. -/
theorem Alike.run {α : Type} (weather : Weather) (rest : GuildRows) {p : AdminProgram α}
    {post : Conduct → α → Prop} (hno : ∀ form, ¬ inserts form)
    (hfollows : p.Follows (conduct guildId inserts) post g)
    (h : Alike homes₁ homes₂ guildId g s₁ s₂) :
    (p.run (serveSql weather) s₁).1 = (p.run (serveSql weather) s₂).1 ∧
      (s₁.Leaves guildId rest → (p.run (serveSql weather) s₁).2.Leaves guildId rest) := by
  induction p generalizing g s₁ s₂ with
  | pure a => exact ⟨rfl, id⟩
  | call c k ih =>
    obtain ⟨hasks, hmoves⟩ := hfollows
    have hinsert : ∀ form, c ≠ .insertForm form := by
      rintro form rfl
      exact hno form hasks.2.2
    obtain ⟨hresult, ⟨g', hmove, hnext⟩, hleaves⟩ := h.step weather rest hasks hinsert
    obtain ⟨hruns, hrest⟩ := ih _ (hmoves _ g' hmove) hnext
    rw [Program.run_call, Program.run_call]
    refine ⟨?_, fun hl => hrest (hleaves hl)⟩
    rw [hruns, hresult]

/-! ### New forms -/

/-- The databases have the same of what a request draws. -/
def DrawsAlike (req : AdminRequest) (d₁ d₂ : Database) : Prop :=
  ∀ draws, req.draws? = some draws →
    (draws.newId ∈ d₁.forms.rows.map Form.id ↔ draws.newId ∈ d₂.forms.rows.map Form.id) ∧
      ∀ slug ∈ Admin.slugs draws, slug ∈ d₁.forms.rows.map (·.slug) ↔
        slug ∈ d₂.forms.rows.map (·.slug)

/-- A form that may be inserted goes in under the first slug that is free, and else the table stays
as it is. -/
theorem insertWithRetry_alike (weather : Weather) {form : Form} (hguild : form.guildId = guildId)
    (hid : form.id ∈ d₁.forms.rows.map Form.id ↔ form.id ∈ d₂.forms.rows.map Form.id)
    {slugs : List Text}
    (hslugs : ∀ slug ∈ slugs, slug ∈ d₁.forms.rows.map (·.slug) ↔
      slug ∈ d₂.forms.rows.map (·.slug))
    (n : Nat) :
    ((Admin.insertWithRetry form slugs).exec weather ⟨d₁, none, n⟩).1 =
      ((Admin.insertWithRetry form slugs).exec weather ⟨d₂, none, n⟩).1 ∧
      ((Admin.insertWithRetry form slugs).exec weather ⟨d₁, none, n⟩).2.db.rowsOf (· ≠ guildId) =
        d₁.rowsOf (· ≠ guildId) := by
  induction slugs generalizing n with
  | nil => exact ⟨rfl, rfl⟩
  | cons slug slugs ih =>
    -- the id is taken in both or in neither
    have hrefusal : d₁.refusal (.insertForm { form with slug := slug }) =
        d₂.refusal (.insertForm { form with slug := slug }) := by
      simp only [Database.refusal, hid]
    have hafter : ∀ d : Database, (⟨d, none, n⟩ : Session).after weather
      (.insertForm { form with slug := slug }) =
        ⟨d.effect (weather.clock n) (.insertForm { form with slug := slug }), none, n + 1⟩ :=
          fun _ => rfl
    have hothers : (d₁.effect (weather.clock n) (.insertForm { form with slug := slug })).rowsOf
      (· ≠ guildId) =
        d₁.rowsOf (· ≠ guildId) := others_insertForm hguild
    rw [Admin.insertWithRetry, exec_query_bind, exec_query_bind]
    cases houtcome : weather.outcome n with
    | failed e =>
      rw [serveSql_failed (s := ⟨d₁, none, n⟩) houtcome,
        serveSql_failed (s := ⟨d₂, none, n⟩) houtcome]
      exact ⟨rfl, rfl⟩
    | done =>
      cases hrefused : d₁.refusal (.insertForm { form with slug := slug }) with
      | some e =>
        have hcarried : (weather.outcome n).carried = true := by rw [houtcome]; rfl
        rw [serveSql_refused (s := ⟨d₁, none, n⟩) hcarried hrefused,
          serveSql_refused (s := ⟨d₂, none, n⟩) hcarried (hrefusal.symm.trans hrefused)]
        exact ⟨rfl, rfl⟩
      | none =>
        rw [serveSql_done (s := ⟨d₁, none, n⟩) houtcome hrefused,
          serveSql_done (s := ⟨d₂, none, n⟩) houtcome (hrefusal.symm.trans hrefused), hafter,
            hafter]
        have hslug := hslugs slug List.mem_cons_self
        by_cases htaken : slug ∈ d₁.forms.rows.map (·.slug)
        · -- the slug is taken in both, and the next one is tried
          have hfalse : ∀ d : Database, slug ∈ d.forms.rows.map (·.slug) →
              (Session.current ⟨d, none, n⟩).answer (.insertForm { form with slug := slug }) =
                  false :=
            fun d h => decide_eq_false (not_not_intro h)
          have hkeep : ∀ d : Database, slug ∈ d.forms.rows.map (·.slug) →
              d.effect (weather.clock n) (.insertForm { form with slug := slug }) = d := by
            intro d h
            simp only [Database.effect, h, not_true_eq_false, if_false, dite_eq_ite, ite_self]
          rw [hfalse d₁ htaken, hfalse d₂ (hslug.1 htaken), hkeep d₁ htaken,
            hkeep d₂ (hslug.1 htaken)]
          exact ih (fun slug hmem => hslugs slug (List.mem_cons_of_mem _ hmem)) (n + 1)
        · have htrue : ∀ d : Database, slug ∉ d.forms.rows.map (·.slug) →
              (Session.current ⟨d, none, n⟩).answer (.insertForm { form with slug := slug }) =
                  true :=
            fun d h => decide_eq_true h
          rw [htrue d₁ htaken, htrue d₂ fun h => htaken (hslug.2 h)]
          exact ⟨rfl, hothers⟩
    | lost e =>
      cases hrefused : d₁.refusal (.insertForm { form with slug := slug }) with
      | some e' =>
        have hcarried : (weather.outcome n).carried = true := by rw [houtcome]; rfl
        rw [serveSql_refused (s := ⟨d₁, none, n⟩) hcarried hrefused,
          serveSql_refused (s := ⟨d₂, none, n⟩) hcarried (hrefusal.symm.trans hrefused)]
        exact ⟨rfl, rfl⟩
      | none =>
        rw [serveSql_lost (s := ⟨d₁, none, n⟩) houtcome hrefused,
          serveSql_lost (s := ⟨d₂, none, n⟩) houtcome (hrefusal.symm.trans hrefused), hafter,
            hafter]
        exact ⟨rfl, hothers⟩

/-! ### Requests on two databases -/

variable {libs : AdminLibs} {submitLibs : SubmitLibs}

private theorem exec_map {α β : Type} (f : α → β) (p : AdminM α) (s : Session) :
    (f <$> p).exec weather s = ((p.exec weather s).1.map f, (p.exec weather s).2) := by
  have hbind : f <$> p = p >>= fun a => pure (f a) := (bind_pure_comp f p).symm
  rw [hbind, exec_bind]
  rcases p.exec weather s with ⟨_ | a, next⟩ <;> rfl

/-- A request of a guild, on two databases in which the guild has the same rows. -/
theorem request_alike {req : AdminRequest} (hcanonical : req.Canonical libs) (h₁ : Homed homes₁ d₁)
    (h₂ : Homed homes₂ d₂) (hrows : d₁.rowsOf (· = guildId) = d₂.rowsOf (· = guildId))
    (hdraws : DrawsAlike req d₁ d₂) :
    ((req.program libs guildId).exec weather ⟨d₁, none, 0⟩).1 =
      ((req.program libs guildId).exec weather ⟨d₂, none, 0⟩).1 ∧
      ((req.program libs guildId).exec weather ⟨d₁, none, 0⟩).2.db.rowsOf (· ≠ guildId) =
        d₁.rowsOf (· ≠ guildId) := by
  by_cases hno : req.draws? = none
  · have hinserts : ∀ form, ¬req.Inserts form := by
      rintro form ⟨draws, hsome, -⟩
      cases hno.symm.trans hsome
    have halike : Alike homes₁ homes₂ guildId {} ⟨d₁, none, 0⟩ ⟨d₂, none, 0⟩ :=
      ⟨h₁, h₂, fun u hu => absurd hu List.not_mem_nil, fun u hu => absurd hu List.not_mem_nil,
        hrows, rfl, rfl, rfl⟩
    obtain ⟨hresult, hleaves⟩ := halike.run weather (d₁.rowsOf (· ≠ guildId)) hinserts
      (program_conducted hcanonical)
    exact ⟨hresult, (hleaves ⟨rfl, rfl⟩).1⟩
  cases req with
  | createForm draws templateName title =>
    obtain ⟨hid, hslugs⟩ := hdraws draws rfl
    rw [AdminRequest.program, exec_map, exec_map, Admin.createForm]
    cases hfresh : Admin.freshForm libs guildId draws templateName title with
    | error e => exact ⟨rfl, rfl⟩
    | ok form =>
      obtain ⟨hguild, hnew⟩ := freshForm_eq_ok hfresh
      rw [← hnew] at hid
      obtain ⟨hresult, hothers⟩ := insertWithRetry_alike weather hguild hid hslugs 0
      exact ⟨congrArg (Except.map Reply.json) hresult, hothers⟩
  | duplicateForm formId draws =>
    obtain ⟨hid, hslugs⟩ := hdraws draws rfl
    rw [AdminRequest.program, exec_map, exec_map, Admin.duplicateForm, Admin.formUuid]
    cases hu : libs.parseUuid formId with
    | none => exact ⟨rfl, rfl⟩
    | some u =>
      simp only [pure_bind]
      rw [exec_query_bind, exec_query_bind]
      cases houtcome : weather.outcome 0 with
      | failed e =>
        rw [serveSql_failed (s := ⟨d₁, none, 0⟩) houtcome,
          serveSql_failed (s := ⟨d₂, none, 0⟩) houtcome]
        exact ⟨rfl, rfl⟩
      | lost e =>
        rw [serveSql_lost (s := ⟨d₁, none, 0⟩) houtcome rfl,
          serveSql_lost (s := ⟨d₂, none, 0⟩) houtcome rfl]
        exact ⟨rfl, rfl⟩
      | done =>
        rw [serveSql_done (s := ⟨d₁, none, 0⟩) houtcome rfl,
          serveSql_done (s := ⟨d₂, none, 0⟩) houtcome rfl]
        have hsame : (Session.current ⟨d₁, none, 0⟩).answer (.selectForm u guildId) =
            (Session.current ⟨d₂, none, 0⟩).answer (.selectForm u guildId) := form?_eq hrows u
        rw [hsame]
        cases (Session.current ⟨d₂, none, 0⟩).answer (.selectForm u guildId) with
        | none => exact ⟨rfl, rfl⟩
        | some src =>
          have hguild : (Admin.copyOf src guildId draws).guildId = guildId := rfl
          obtain ⟨hresult, hothers⟩ := insertWithRetry_alike weather hguild hid hslugs 1
          exact ⟨congrArg (Except.map Reply.json) hresult, hothers⟩
  | _ => exact absurd rfl hno

/-- A state that a run of requests with canonical form ids reaches. -/
def Service.Reachable (libs : AdminLibs) (submitLibs : SubmitLibs) (t : Service) : Prop :=
  ∃ s es, s.Quiet ∧ Homed s.homes s.db ∧
    (serviceSystem libs submitLibs).Run (fun _ e _ => e.Canonical libs) s es t

/-- Guilds are isolated: a link that is bound to a form is bound to one of its guild, no statement
of a request changes a row of another guild, also when it runs among others, and what a request
answers goes by the rows of its guild. -/
theorem tenants_isolated {t : Service} (ht : t.Reachable libs submitLibs) :
    (∀ link ∈ t.db.roleLinks.rows, ∀ form ∈ t.db.forms.rows, link.formId = some form.id.text →
      form.guildId = link.guildId) ∧
    (∀ i pre task post outcome now t', partyAt t.requests i = some (pre, task, post) →
      serviceStep libs submitLibs t (.finish i outcome now) = some t' →
        t'.db.rowsOf (· ≠ task.guildId) = t.db.rowsOf (· ≠ task.guildId)) ∧
    ∀ (guildId : Text) (req : AdminRequest) (weather : Weather), req.Canonical libs →
      ((req.program libs guildId).exec weather ⟨t.db, none, 0⟩).2.db.rowsOf (· ≠ guildId) =
      t.db.rowsOf (· ≠ guildId) ∧
      ∀ t₂ : Service, t₂.Reachable libs submitLibs →
        t.db.rowsOf (· = guildId) = t₂.db.rowsOf (· = guildId) →
        DrawsAlike req t.db t₂.db → ((req.program libs guildId).exec weather ⟨t.db, none, 0⟩).1 =
          ((req.program libs guildId).exec weather ⟨t₂.db, none, 0⟩).1 := by
  have hsound : ∀ {t : Service}, t.Reachable libs submitLibs → t.Sound := by
    rintro t ⟨s, es, hquiet, hhomed, hrun⟩
    exact service_sound_run hquiet hhomed hrun
  have hs := hsound ht
  refine ⟨fun link hlink form hform hbound => ?_, fun i pre task post outcome now t' hparty hstep =>
    ?_,
    fun guildId req weather hcanonical => ⟨?_, fun t₂ ht₂ hrows hdraws => ?_⟩⟩
  · exact (hs.homed.link_guild (hs.homed.forms form hform) hlink hbound).symm
  · simp only [serviceStep, hparty, Option.bind_some, Option.ite_none_left_eq_some,
      Option.map_eq_some_iff] at hstep
    obtain ⟨-, ⟨conn, d'⟩, hfinish, rfl⟩ := hstep
    obtain ⟨inserts, g, hg⟩ := hs.requests task (mem_of_partyAt hparty)
    exact hg.others_finish hs.homed hfinish
  · exact (request_alike hcanonical hs.homed hs.homed rfl fun _ _ =>
      ⟨Iff.rfl, fun _ _ => Iff.rfl⟩).2
  · exact (request_alike hcanonical hs.homed (hsound ht₂).homed hrows hdraws).1

end

/-! ### A neighbour -/

/-- The small guild, beside a form of another one. -/
def neighbourDatabase : Database :=
  { surveyDatabase with
    forms := ⟨[{ id := surveyId, guildId := ['g'], slug := ['s'], title := ['t'],
                 schema := .object [] },
      { id := 0xb, guildId := ['h'], slug := ['u'], title := ['t'], schema := .object [] }],
        by decide⟩ }

def surveyHomes (id : Uuid) : Option Text := if id = surveyId then some ['g'] else if id = 0xb then
    some ['h'] else none

def quietService (d : Database) : Service := ⟨d, [], [], [], surveyHomes⟩

private theorem quietService_reachable {submitLibs : SubmitLibs} {d : Database}
    (hforms : ∀ form ∈ d.forms.rows, surveyHomes form.id = some form.guildId)
    (hlinks : d.roleLinks = surveyDatabase.roleLinks)
    (hresponses : d.responses = surveyDatabase.responses) :
    (quietService d).Reachable plainAdminLibs submitLibs := by
  refine ⟨_, [], ⟨rfl, rfl⟩, ⟨hforms, fun link hlink f hf => ?_, fun row hrow => ?_⟩, .nil _⟩
  · change link ∈ d.roleLinks.rows at hlink
    rw [hlinks] at hlink
    obtain rfl := List.mem_singleton.1 hlink
    exact ⟨surveyId, (Option.some.inj hf).symm, rfl⟩
  · change row ∈ d.responses.rows at hrow
    rw [hresponses] at hrow
    obtain rfl := List.mem_singleton.1 hrow
    exact ⟨surveyId, rfl, rfl⟩

theorem deleteSurvey_canonical :
    (AdminRequest.deleteForm surveyId.text).Canonical plainAdminLibs := by
  intro formId hformId u hu
  obtain rfl := Option.some.inj hformId
  exact congrArg Uuid.text (Option.some.inj ((Uuid.parseHyphenated_text surveyId).symm.trans hu))

theorem tenants_isolated_survey :
    (((AdminRequest.deleteForm surveyId.text).program plainAdminLibs ['g']).exec (calm fun _ => 0)
      ⟨neighbourDatabase, none, 0⟩).2.db.rowsOf
        (· ≠ ['g']) = neighbourDatabase.rowsOf (· ≠ ['g']) ∧
      (((AdminRequest.deleteForm surveyId.text).program plainAdminLibs ['g']).exec (calm fun _ => 0)
        ⟨neighbourDatabase, none, 0⟩).1 =
        (((AdminRequest.deleteForm surveyId.text).program plainAdminLibs ['g']).exec
          (calm fun _ => 0) ⟨surveyDatabase, none, 0⟩).1 := by
  have hsurvey : (quietService surveyDatabase).Reachable plainAdminLibs quizLibs :=
    quietService_reachable (by decide +kernel) rfl rfl
  have hneighbour : (quietService neighbourDatabase).Reachable plainAdminLibs quizLibs :=
    quietService_reachable (by decide +kernel) rfl rfl
  obtain ⟨hothers, hsame⟩ :=
    (tenants_isolated hneighbour).2.2 ['g'] (.deleteForm surveyId.text) (calm fun _ => 0)
    deleteSurvey_canonical
  exact ⟨hothers, hsame (quietService surveyDatabase) hsurvey rfl fun _ h => by cases h⟩

end FormRespondentRole
