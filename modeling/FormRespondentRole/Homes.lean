import FormRespondentRole.Conduct
import FormRespondentRole.SubmitInvariant

/-!
# The guilds of forms, links and responses

A form stays in its guild, a link is bound to a form of its own guild, and a response carries the
guild of its form, in every state that the service reaches (`service_sound_run`).  Nothing in the
tables says so: the binding is a text, which only `role_config_save` writes, after it has found the
form among those of the guild.
-/

namespace FormRespondentRole

open Foundations

/-! ### What requests may change -/

/-- The changes that a request of a guild may make that has seen these forms to be of the guild. -/
def Permits (guildId : Text) (owned : List Uuid) : AdminCall → Prop
  | .insertForm form => form.guildId = guildId
  | .updateForm _ guild .. | .deleteForm _ guild | .upsertViewPermission guild _ => guild = guildId
  | .unbindLinks formId | .deleteResponses formId | .deleteResponse _ formId => ∃ u ∈ owned,
    formId = u.text
  | .saveLink guild _ formId .. => guild = guildId ∧ ∀ f, formId = some f → ∃ u ∈ owned, f = u.text
  | _ => True

section

variable {guildId : Text} {inserts : Form → Prop} {owned : List Uuid} {g : Conduct} {c : AdminCall}
  {calls : List AdminCall}

private theorem Transacts.permits (h : Transacts guildId owned calls) (hc : c ∈ calls) :
    Permits guildId owned c := by
  cases h with
  | deletion hu hsuffix =>
    have hmem := hsuffix.subset hc
    simp only [List.mem_cons, List.not_mem_nil, or_false] at hmem
    rcases hmem with rfl | rfl | rfl
    · exact rfl
    · exact ⟨_, hu, rfl⟩
    · exact ⟨_, hu, rfl⟩
  | save hform hsuffix =>
    have hmem := hsuffix.subset hc
    simp only [List.mem_cons, List.not_mem_nil, or_false] at hmem
    rcases hmem with rfl | rfl
    · exact rfl
    · exact ⟨rfl, hform⟩

theorem permits_of_asks (h : (conduct guildId inserts).asks g c) : Permits guildId g.owned c := by
  cases c with
  | insertForm form => exact h.1
  | updateForm id guild version edit => exact h.1
  | upsertViewPermission guild viewPermission => exact h.1
  | deleteResponse id formId => exact h.1
  | deleteResponses formId => exact h.1
  | deleteForm id guild =>
    obtain ⟨calls, -, h⟩ := h
    exact h.permits List.mem_cons_self
  | unbindLinks formId =>
    obtain ⟨calls, -, h⟩ := h
    exact h.permits List.mem_cons_self
  | saveLink guild roleId formId grantOnAnySubmission conditions =>
    obtain ⟨calls, -, h⟩ := h
    exact h.permits List.mem_cons_self
  | _ => trivial

end

/-! ### Homes -/

/-- The text is the id of a form that there has been in the guild. -/
def IsHome (homes : Uuid → Option Text) (formId guildId : Text) : Prop :=
    ∃ u : Uuid, formId = u.text ∧ homes u = some guildId

/-- Forms are in the guilds that are remembered, links are bound to forms of their own guild, and
responses carry the guilds of their forms. -/
structure Homed (homes : Uuid → Option Text) (d : Database) : Prop where
  forms : ∀ form ∈ d.forms.rows, homes form.id = some form.guildId
  links : ∀ link ∈ d.roleLinks.rows, ∀ f, link.formId = some f → IsHome homes f link.guildId
  responses : ∀ row ∈ d.responses.rows, IsHome homes row.formId row.guildId

section

variable {homes : Uuid → Option Text} {d : Database} {guildId : Text} {owned : List Uuid}
  {rows : List RowRef} {now : Instant}
  {c : AdminCall}

theorem IsHome.eq {u : Uuid} {guild : Text} (h : IsHome homes u.text guild)
    (hu : homes u = some guildId) : guild = guildId := by
  obtain ⟨u', htext, hhome⟩ := h
  obtain rfl := Uuid.text_injective htext
  exact Option.some.inj (hhome.symm.trans hu)

/-- What remains of an update of the links, row by row. -/
theorem links_update {p : RoleLink → Bool} {set : SetClause RoleLink.key} (h : Homed homes d)
    (hset : ∀ link ∈ d.roleLinks.rows, p link = true → ∀ f, (set.set link).formId = some f →
      IsHome homes f (set.set link).guildId) :
    ∀ link ∈ (d.roleLinks.update p set).rows, ∀ f, link.formId = some f →
      IsHome homes f link.guildId := by
  intro link hlink f hf
  obtain ⟨link₀, hlink₀, rfl⟩ := Table.mem_update.1 hlink
  by_cases hp : p link₀ = true
  · rw [if_pos hp] at hf ⊢
    exact hset link₀ hlink₀ hp f hf
  · rw [if_neg hp] at hf ⊢
    exact h.links link₀ hlink₀ f hf

/-- A statement that adds no form. -/
theorem homed_effectOn (h : Homed homes d) (howned : ∀ u ∈ owned, homes u = some guildId)
    (hc : Permits guildId owned c) (hinsert : ∀ form, c ≠ .insertForm form) :
    Homed homes (d.effectOn rows now c) := by
  cases c with
  | insertForm form => exact absurd rfl (hinsert form)
  | updateForm id guild version edit =>
    refine ⟨fun form hform => ?_, h.links, h.responses⟩
    obtain ⟨form₀, hform₀, rfl⟩ := Table.mem_update.1 hform
    split <;> exact h.forms form₀ hform₀
  | deleteForm id guild => exact ⟨fun form hform => h.forms form (Table.mem_delete.1 hform).1,
    h.links, h.responses⟩
  | unbindLinks formId => exact ⟨h.forms, links_update h fun link _ _ f hf => (by cases hf),
    h.responses⟩
  | saveLink guild roleId formId grantOnAnySubmission conditions =>
    refine ⟨h.forms, links_update h fun link _ hmatch f hf => ?_, h.responses⟩
    obtain ⟨-, hkey⟩ := of_decide_eq_true hmatch
    obtain ⟨u, hu, rfl⟩ := hc.2 f hf
    refine ⟨u, rfl, (howned u hu).trans ?_⟩
    exact congrArg some (hc.1.symm.trans (congrArg Prod.fst hkey).symm)
  | deleteResponse id formId => exact ⟨h.forms, h.links, fun row hrow =>
    h.responses row (Table.mem_delete.1 hrow).1⟩
  | deleteResponses formId => exact ⟨h.forms, h.links, fun row hrow =>
    h.responses row (Table.mem_delete.1 hrow).1⟩
  | _ => exact ⟨h.forms, h.links, h.responses⟩

/-- A transaction makes only permitted changes, and adds no form. -/
theorem Transacts.writes {ws : List Write} (hws : Transacts guildId owned (ws.map Write.call))
    {w : Write} (hw : w ∈ ws) :
    Permits guildId owned w.call ∧ ∀ form, w.call ≠ .insertForm form := by
  have hmem := List.mem_map_of_mem (f := Write.call) hw
  refine ⟨hws.permits hmem, fun form heq => ?_⟩
  rw [heq] at hmem
  cases hws with
  | deletion hu hsuffix => simpa using hsuffix.subset hmem
  | save hform hsuffix => simpa using hsuffix.subset hmem

/-- The changes of an open transaction. -/
theorem homed_applyWrites (h : Homed homes d) (howned : ∀ u ∈ owned, homes u = some guildId)
    {ws : List Write}
    (hws : ∀ w ∈ ws, Permits guildId owned w.call ∧ ∀ form, w.call ≠ .insertForm form) :
    Homed homes (applyWrites ws d) := by
  induction ws with
  | nil => exact h
  | cons w ws ih =>
    obtain ⟨hw, hinsert⟩ := hws w List.mem_cons_self
    exact homed_effectOn (ih fun w hw => hws w (List.mem_cons_of_mem _ hw)) howned hw hinsert

end

/-! ### Requests under way -/

/-- The request keeps to the protocol, and what it has seen to be of its guild is. -/
structure AdminTask.Sound (homes : Uuid → Option Text) (task : AdminTask) (inserts : Form → Prop)
    (g : Conduct) : Prop where
  follows : task.conn.program.Follows (conduct task.guildId inserts) (fun _ _ => True) g
  tx : g.tx = task.conn.tx.map (·.map Write.call)
  owned : ∀ u ∈ g.owned, homes u = some task.guildId
  transacts : ∀ calls, g.tx = some calls → Transacts task.guildId g.owned calls

section

variable {homes homes' : Uuid → Option Text} {d d' : Database} {task : AdminTask} {inserts : Form →
  Prop} {g : Conduct}

theorem AdminTask.Sound.mono (h : task.Sound homes inserts g)
    (hhomes : ∀ u guild, homes u = some guild → homes' u = some guild) :
    task.Sound homes' inserts g :=
  ⟨h.follows, h.tx, fun u hu => hhomes u _ (h.owned u hu), h.transacts⟩

theorem AdminTask.Sound.view (h : task.Sound homes inserts g) (hd : Homed homes d) :
    Homed homes (task.conn.view d) := by
  rw [Connection.view]
  cases htx : task.conn.tx with
  | none => exact hd
  | some ws =>
    have hg := h.tx
    rw [htx] at hg
    exact homed_applyWrites hd h.owned fun w hw => (h.transacts _ hg).writes hw

theorem Conduct.after_owned (g : Conduct) (c : AdminCall) : (g.after c).owned = g.owned := by
  cases c <;> rfl

theorem form?_eq_some {d : Database} {id : Uuid} {guild : Text} {form : Form}
    (h : d.form? id guild = some form) :
    form ∈ d.forms.rows ∧ form.id = id ∧ form.guildId = guild := by
  unfold Database.form? at h
  refine ⟨List.mem_of_find?_eq_some h, ?_⟩
  simpa using List.find?_some h

/-- The state that an answer leads to: what it knows besides of the guild are forms that are
there. -/
theorem moves_answerOn {guildId : Text} (rows : List RowRef) {c : AdminCall} (hd : Homed homes d)
    (howned : ∀ u ∈ g.owned, homes u = some guildId) (hasks : (conduct guildId inserts).asks g c) :
    ∃ g', (conduct guildId inserts).moves g c (.ok (d.answerOn rows c)) g' ∧
      g'.tx = (g.after c).tx ∧
      g.owned ⊆ g'.owned ∧ ∀ u ∈ g'.owned, u ∈ g.owned ∨ ∃ form ∈ d.forms.rows, form.id = u ∧
        form.guildId = guildId := by
  -- a form that is seen to be of the guild
  have hown : ∀ {id : Uuid} {guild : Text} {form : Form}, guild = guildId → form ∈ d.forms.rows →
    form.id = id →
      form.guildId = guild → g.owned ⊆ (g.own id).owned ∧
        ∀ u ∈ (g.own id).owned, u ∈ g.owned ∨ ∃ form ∈ d.forms.rows, form.id = u ∧
            form.guildId = guildId := by
    rintro id guild form rfl hform rfl hguild
    refine ⟨List.subset_cons_self _ _, fun u hu => ?_⟩
    rcases List.mem_cons.1 hu with rfl | hu
    · exact Or.inr ⟨form, hform, rfl, hguild⟩
    · exact Or.inl hu
  cases c with
  | ownsForm id guild =>
    obtain ⟨hguild, htx⟩ := hasks
    have hafter := Conduct.after_eq htx (c := .ownsForm id guild) (by simp)
    cases hform : d.form? id guild with
    | none =>
      have hanswer : d.answerOn rows (.ownsForm id guild) = false := congrArg Option.isSome hform
      rw [hanswer, hafter]
      exact ⟨g, rfl, rfl, List.Subset.refl _, fun _ => Or.inl⟩
    | some form =>
      have hanswer : d.answerOn rows (.ownsForm id guild) = true := congrArg Option.isSome hform
      obtain ⟨hmem, hid, hguild'⟩ := form?_eq_some hform
      rw [hanswer, hafter]
      exact ⟨g.own id, rfl, rfl, hown hguild hmem hid hguild'⟩
  | selectForm id guild =>
    obtain ⟨hguild, htx⟩ := hasks
    have hafter := Conduct.after_eq htx (c := .selectForm id guild) (by simp)
    cases hform : d.form? id guild with
    | none =>
      have hanswer : d.answerOn rows (.selectForm id guild) = none := hform
      rw [hanswer, hafter]
      exact ⟨g, rfl, rfl, List.Subset.refl _, fun _ => Or.inl⟩
    | some form =>
      have hanswer : d.answerOn rows (.selectForm id guild) = some form := hform
      obtain ⟨hmem, hid, hguild'⟩ := form?_eq_some hform
      rw [hanswer, hafter]
      exact ⟨g.own id, rfl, rfl, hown hguild hmem hid hguild'⟩
  | updateForm id guild version edit =>
    obtain ⟨hguild, htx⟩ := hasks
    have hafter := Conduct.after_eq htx (c := .updateForm id guild version edit) (by simp)
    rw [hafter]
    by_cases hcount : d.answerOn rows (.updateForm id guild version edit) = (0 : Nat)
    · exact ⟨g, (if_pos hcount).symm, rfl, List.Subset.refl _, fun _ => Or.inl⟩
    · obtain ⟨ref, href⟩ := List.exists_mem_of_length_pos (Nat.pos_of_ne_zero hcount)
      obtain ⟨form, hform, -⟩ := List.mem_map.1 (List.mem_filter.1 href).1
      obtain ⟨hmem, hmatch⟩ := List.mem_filter.1 hform
      obtain ⟨hid, hguild', -⟩ := of_decide_eq_true hmatch
      exact ⟨g.own id, (if_neg hcount).symm, rfl, hown hguild hmem hid hguild'⟩
  | selectBound formId =>
    obtain ⟨⟨u, hu, rfl⟩, htx⟩ := hasks
    refine ⟨g, ⟨rfl, fun key hkey => ?_⟩,
      (congrArg Conduct.tx (Conduct.after_eq htx (by simp))).symm, List.Subset.refl _,
      fun _ => Or.inl⟩
    obtain ⟨link, hlink, rfl⟩ := List.mem_map.1 hkey
    obtain ⟨hlink, hbound⟩ := List.mem_filter.1 hlink
    exact (hd.links link hlink _ (of_decide_eq_true hbound)).eq (howned u hu)
  | _ => exact ⟨_, rfl, rfl, List.Subset.refl _, fun _ => Or.inl⟩

theorem Transacts.mono {guildId : Text} {owned owned' : List Uuid} {calls : List AdminCall}
    (h : Transacts guildId owned calls) (hsub : owned ⊆ owned') :
    Transacts guildId owned' calls := by
  cases h with
  | deletion hu hsuffix => exact .deletion (hsub hu) hsuffix
  | save hform hsuffix =>
    refine .save (fun f hf => ?_) hsuffix
    obtain ⟨u, hu, hf⟩ := hform f hf
    exact ⟨u, hsub hu, hf⟩

/-- The transaction after a statement is one of those that requests have. -/
theorem transacts_after {guildId : Text} {c : AdminCall}
    (hasks : (conduct guildId inserts).asks g c) :
    ∀ calls, (g.after c).tx = some calls → Transacts guildId g.owned calls := by
  -- a statement that is asked outside of transactions only
  have hnone : ∀ {c : AdminCall}, c ≠ .begin → g.tx = none → ∀ calls, (g.after c).tx = some calls →
      Transacts guildId g.owned calls := by
    intro c hc htx calls hcalls
    rw [Conduct.after_eq htx hc, htx] at hcalls
    cases hcalls
  -- a statement that is asked inside of transactions
  have hsome : ∀ {c : AdminCall}, (g.after c).tx = g.tx.map (c :: ·) →
      (∀ calls, g.tx = some calls → Transacts guildId g.owned (c :: calls)) →
        ∀ calls, (g.after c).tx = some calls → Transacts guildId g.owned calls := by
    intro c hafter hall calls hcalls
    rw [hafter] at hcalls
    obtain ⟨calls', hcalls', rfl⟩ := Option.map_eq_some_iff.1 hcalls
    exact hall calls' hcalls'
  cases c with
  | begin =>
    intro calls hcalls
    cases hcalls
    exact .nil
  | commit =>
    intro calls hcalls
    cases hcalls
  | deleteResponses formId => exact hsome rfl hasks.2
  | upsertViewPermission guild viewPermission => exact hsome rfl hasks.2
  | deleteForm id guild =>
    obtain ⟨calls, htx, hcalls⟩ := hasks
    exact hsome rfl fun calls' h' => Option.some.inj (htx.symm.trans h') ▸ hcalls
  | unbindLinks formId =>
    obtain ⟨calls, htx, hcalls⟩ := hasks
    exact hsome rfl fun calls' h' => Option.some.inj (htx.symm.trans h') ▸ hcalls
  | saveLink guild roleId formId grantOnAnySubmission conditions =>
    obtain ⟨calls, htx, hcalls⟩ := hasks
    exact hsome rfl fun calls' h' => Option.some.inj (htx.symm.trans h') ▸ hcalls
  | enqueuePlayerSync payload => exact hnone (by simp) hasks
  | enqueueConfigSync guild roleId => exact hnone (by simp) hasks
  | insertForm form => exact hnone (by simp) hasks.2.1
  | _ => exact hnone (by simp) hasks.2

/-- The changes of a transaction are its statements. -/
theorem carry_tx {rows : List RowRef} {now : Instant} {conn : Connection Reply} {c : AdminCall}
    (h : g.tx = conn.tx.map (·.map Write.call)) :
    (g.after c).tx = (conn.carry rows now d c).1.map (·.map Write.call) := by
  have hchange : g.tx.map (c :: ·) = (conn.change rows now d c).1.map (·.map Write.call) := by
    rw [h, Connection.change]
    cases conn.tx <;> rfl
  cases c with
  | begin => rfl
  | commit => rfl
  | _ => exact hchange

/-! ### Steps of a request -/

/-- The homes after the forms that are there are remembered. -/
def remembered (homes : Uuid → Option Text) (d : Database) : Uuid → Option Text :=
  fun id => (homes id).or ((d.forms.rows.find? (·.id = id)).map (·.guildId))

theorem remembered_mono {u : Uuid} {guild : Text} (h : homes u = some guild) :
    remembered homes d u = some guild := by
  rw [remembered, h]
  rfl

theorem IsHome.remember {formId guildId : Text} (h : IsHome homes formId guildId) :
    IsHome (remembered homes d) formId guildId := by
  obtain ⟨u, htext, hhome⟩ := h
  exact ⟨u, htext, remembered_mono hhome⟩

private theorem homed_remembered
    (hforms : ∀ form ∈ d.forms.rows, ∀ guild, homes form.id = some guild → guild = form.guildId)
    (hlinks : ∀ link ∈ d.roleLinks.rows, ∀ f, link.formId = some f → IsHome homes f link.guildId)
    (hresponses : ∀ row ∈ d.responses.rows, IsHome homes row.formId row.guildId) :
    Homed (remembered homes d) d where
  forms form hform := by
    cases hhome : homes form.id with
    | some guild =>
      rw [hforms form hform guild hhome] at hhome
      exact remembered_mono hhome
    | none =>
      have hsome : (d.forms.rows.find? (·.id = form.id)).isSome := by
        rw [List.find?_isSome]
        exact ⟨form, hform, decide_eq_true rfl⟩
      obtain ⟨found, hfound⟩ := Option.isSome_iff_exists.1 hsome
      have hid : found.id = form.id := by simpa using List.find?_some hfound
      obtain rfl := Table.eq_of_key (List.mem_of_find?_eq_some hfound) hform hid
      rw [remembered, hhome, hfound]
      rfl
  links link hlink f hf := (hlinks link hlink f hf).remember
  responses row hrow := (hresponses row hrow).remember

/-- The homes stay what they are as long as no form is added. -/
theorem Homed.remember (hd : Homed homes d) : Homed (remembered homes d) d := by
  refine homed_remembered (fun form hform guild hguild => ?_) hd.links hd.responses
  exact Option.some.inj (hguild.symm.trans (hd.forms form hform))

/-- What a statement leaves when it is carried out. -/
theorem homed_carry {rows : List RowRef} {now : Instant} {c : AdminCall} (hd : Homed homes d)
    (h : task.Sound homes inserts g) (hasks : (conduct task.guildId inserts).asks g c)
    (hfresh : ∀ form, c = .insertForm form → homes form.id = none) :
    Homed (remembered homes (task.conn.carry rows now d c).2) (task.conn.carry rows now d c).2 := by
  have hchange : Homed (remembered homes (task.conn.change rows now d c).2)
      (task.conn.change rows now d c).2 := by
    rw [Connection.change]
    cases task.conn.tx with
    | some ws => exact hd.remember
    | none =>
      by_cases hinsert : ∃ form, c = .insertForm form
      · obtain ⟨form, rfl⟩ := hinsert
        have hnone := hfresh form rfl
        dsimp only [Database.effectOn, Database.effect]
        split
        · split
          · refine homed_remembered (fun form' hform' guild hguild => ?_) hd.links hd.responses
            rcases List.mem_append.1 hform' with hform' | hform'
            · exact Option.some.inj (hguild.symm.trans (hd.forms form' hform'))
            · obtain rfl := List.mem_singleton.1 hform'
              cases hguild.symm.trans hnone
          · exact hd.remember
        · exact hd.remember
      · exact (homed_effectOn hd h.owned (permits_of_asks hasks) fun form heq =>
          hinsert ⟨form, heq⟩).remember
  cases c with
  | begin => exact hd.remember
  | commit => exact (h.view hd).remember
  | _ => exact hchange

/-- The end of a statement of a request. -/
theorem AdminTask.Sound.finish {held : RowRef → Bool} {outcome : Outcome} {now : Instant}
    {conn : Connection Reply} (h : task.Sound homes inserts g) (hd : Homed homes d)
    (hfresh : ∀ form k, task.conn.program = .call (.insertForm form) k → homes form.id = none)
    (hfinish : task.conn.finish held outcome now d = some (conn, d')) :
    Homed (remembered homes d') d' ∧
      ∃ g', AdminTask.Sound homes { task with conn := conn } inserts g' := by
  obtain ⟨c, k, rows, hprogram, -, hcases⟩ := Connection.finish_cases hfinish
  have hfollows := h.follows
  rw [hprogram] at hfollows
  obtain ⟨hasks, hmoves⟩ := hfollows
  have herror : ∀ e g', g' = g ∨ g' = g.after c →
      (conduct task.guildId inserts).moves g c (.error e) g' := by
    intro e g' hg'
    cases c <;> exact hg'
  rcases hcases with ⟨-, ⟨e, rfl⟩, rfl⟩ | ⟨-, -, r, hr, rfl, rfl⟩
  · exact ⟨hd.remember, g, hmoves _ g (herror e g (Or.inl rfl)), h.tx, h.owned, h.transacts⟩
  · have hcarry : (g.after c).tx = (task.conn.carry rows now d c).1.map (·.map Write.call) :=
      carry_tx h.tx
    have htransacts := transacts_after hasks
    refine ⟨homed_carry hd h hasks fun form heq => ?_, ?_⟩
    · subst heq
      exact hfresh form k hprogram
    · rcases hr with ⟨-, rfl⟩ | ⟨e, -, rfl⟩
      · obtain ⟨g', hmove, htx, hsub, hseen⟩ :=
          moves_answerOn rows (h.view hd) h.owned hasks
        have howned : ∀ u ∈ g'.owned, homes u = some task.guildId := by
          intro u hu
          rcases hseen u hu with hu | ⟨form, hform, rfl, hguild⟩
          · exact h.owned u hu
          · rw [← hguild]
            exact (h.view hd).forms form hform
        refine ⟨g', hmoves _ g' hmove, htx.trans hcarry, howned, fun calls hcalls => ?_⟩
        exact (htransacts calls (htx.symm.trans hcalls)).mono hsub
      · refine ⟨g.after c, hmoves _ _ (herror (.database e) _ (Or.inr rfl)), hcarry, ?_,
          fun calls hcalls => ?_⟩
        · rw [Conduct.after_owned]
          exact h.owned
        · rw [Conduct.after_owned]
          exact htransacts calls hcalls

end

/-! ### Runs of the service -/

structure Service.Sound (s : Service) : Prop where
  homed : Homed s.homes s.db
  submits : ∀ tx ∈ s.submits, ∀ form, tx.form? = some form → s.homes form.id = some form.guildId
  requests : ∀ task ∈ s.requests, ∃ inserts g, task.Sound s.homes inserts g

/-- Requests name forms by the canonical texts of their ids. -/
def ServiceEvent.Canonical (libs : AdminLibs) : ServiceEvent → Prop
  | request _ req => req.Canonical libs
  | _ => True

section

variable {libs : AdminLibs} {submitLibs : SubmitLibs} {homes : Uuid → Option Text} {d : Database}
  {s s' : Service}

private theorem homed_link (h : Homed homes d) (c : LinkCall) : Homed homes (d.link c) := by
  refine ⟨?_, ?_, ?_⟩
  · cases c with
    | register guildId roleId apiToken =>
      rw [Database.link]
      split <;> exact h.forms
    | insertSettings guildId =>
      rw [Database.link]
      split <;> exact h.forms
    | _ => exact h.forms
  · cases c with
    | register guildId roleId apiToken =>
      rw [Database.link]
      split
      · intro link hlink f hf
        rcases List.mem_append.1 hlink with hlink | hlink
        · exact h.links link hlink f hf
        · obtain rfl := List.mem_singleton.1 hlink
          cases hf
      · exact links_update h fun link hlink _ f hf => h.links link hlink f hf
    | insertSettings guildId =>
      rw [Database.link]
      split <;> exact h.links
    | deleteConfig guildId roleId apiToken =>
      exact fun link hlink => h.links link (Table.mem_delete.1 hlink).1
    | deleteOrphan guildId roleId =>
      exact fun link hlink => h.links link (Table.mem_delete.1 hlink).1
  · cases c with
    | register guildId roleId apiToken =>
      rw [Database.link]
      split <;> exact h.responses
    | insertSettings guildId =>
      rw [Database.link]
      split <;> exact h.responses
    | _ => exact h.responses

private theorem Service.Sound.of_requests (h : s.Sound) {requests : List AdminTask}
    (hrequests : ∀ task ∈ requests, task ∈ s.requests ∨ ∃ inserts g, task.Sound s.homes inserts g) :
    Service.Sound { s with requests := requests } :=
  ⟨h.homed, h.submits, fun task htask => (hrequests task htask).elim (h.requests task) id⟩

theorem service_sound_step {e : ServiceEvent} (h : s.Sound) (hcanonical : e.Canonical libs)
    (hstep : serviceStep libs submitLibs s e = some s') : s'.Sound := by
  cases e with
  | submit e =>
    rw [serviceStep] at hstep
    split at hstep
    · cases hstep
    · rename_i hwaits
      obtain ⟨t, ht, rfl⟩ := Option.map_eq_some_iff.1 hstep
      have hforms := forms_of_submitStep ht fun form heq => hwaits (heq ▸ rfl)
      refine ⟨⟨fun form hform => ?_, h.homed.links, fun row hrow => ?_⟩, ?_, h.requests⟩
      · rw [show (s.withSubmitState t).db.forms = t.forms from rfl, hforms] at hform
        exact h.homed.forms form hform
      · rcases mem_responses_of_submitStep ht hrow with
          ⟨row₀, hrow₀, -, hformId, hguildId⟩ | ⟨i, pre, tx, post, form, -, hparty, hinserts,
            hformId, hguildId⟩
        · rw [← hformId, ← hguildId]
          exact h.homed.responses row₀ hrow₀
        · have hhome := h.submits tx (mem_of_partyAt hparty) form (tx.form?_of_inserts? hinserts)
          exact ⟨form.id, hformId.symm, hhome.trans (congrArg some hguildId)⟩
      · exact loaded_of_submitStep (P := fun _ form => s.homes form.id = some form.guildId)
          (fun _ _ _ _ form _ _ hform => h.homed.forms form (List.mem_of_find?_eq_some hform))
            h.submits ht
  | request guildId req =>
    obtain rfl := Option.some.inj hstep
    refine h.of_requests fun task htask => ?_
    rcases List.mem_cons.1 htask with rfl | htask
    · refine Or.inr ⟨req.Inserts, {}, program_conducted hcanonical, rfl, fun u hu => ?_,
        fun calls hcalls => ?_⟩
      · exact absurd hu List.not_mem_nil
      · cases hcalls
    · exact Or.inl htask
  | start i =>
    simp only [serviceStep, Option.bind_eq_some_iff, Option.map_eq_some_iff] at hstep
    obtain ⟨⟨pre, task, post⟩, hparty, conn, hstart, rfl⟩ := hstep
    have hall := h.requests
    rw [partyAt_eq_some hparty] at hall
    refine h.of_requests fun task' htask' => ?_
    rw [partyAt_eq_some hparty]
    rcases mem_middle.1 htask' with rfl | htask'
    · obtain ⟨inserts, g, hg⟩ := hall task (mem_middle.2 (Or.inl rfl))
      obtain ⟨c, k, -, -, rfl⟩ := Connection.start_eq_some hstart
      exact Or.inr ⟨inserts, g, hg.follows, hg.tx, hg.owned, hg.transacts⟩
    · exact Or.inl (mem_middle.2 (Or.inr htask'))
  | finish i outcome now =>
    simp only [serviceStep, Option.bind_eq_some_iff, Option.ite_none_left_eq_some,
      Option.map_eq_some_iff] at hstep
    obtain ⟨⟨pre, task, post⟩, hparty, hreuses, ⟨conn, d'⟩, hfinish, rfl⟩ := hstep
    have hall := h.requests
    rw [partyAt_eq_some hparty] at hall
    obtain ⟨inserts, g, hg⟩ := hall task (mem_middle.2 (Or.inl rfl))
    have hfresh : ∀ form k, task.conn.program = .call (.insertForm form) k →
        s.homes form.id = none := by
      intro form k hprogram
      rw [Service.reusesId, hprogram] at hreuses
      exact Option.not_isSome_iff_eq_none.1 hreuses
    obtain ⟨hhomed, g', hg'⟩ := hg.finish h.homed hfresh hfinish
    refine ⟨hhomed, fun tx htx form hform => remembered_mono (h.submits tx htx form hform),
      fun task' htask' => ?_⟩
    rcases mem_middle.1 htask' with rfl | htask'
    · exact ⟨inserts, g', hg'.mono fun u guild hu => remembered_mono hu⟩
    · obtain ⟨inserts', g'', hg''⟩ := hall task' (mem_middle.2 (Or.inr htask'))
      exact ⟨inserts', g'', hg''.mono fun u guild hu => remembered_mono hu⟩
  | close i =>
    simp only [serviceStep, Option.map_eq_some_iff] at hstep
    obtain ⟨⟨pre, task, post⟩, hparty, rfl⟩ := hstep
    refine h.of_requests fun task' htask' => Or.inl ?_
    rw [partyAt_eq_some hparty]
    exact mem_middle.2 (Or.inr htask')
  | link c =>
    simp only [serviceStep] at hstep
    split at hstep
    · cases hstep
    · obtain rfl := Option.some.inj hstep
      exact ⟨homed_link h.homed c, h.submits, h.requests⟩

/-- In a run whose requests name forms by their canonical ids, from a quiet state in which forms and
links are at home, they stay at home. -/
theorem service_sound_run {t : Service} {es : List ServiceEvent} (hquiet : s.Quiet)
    (hs : Homed s.homes s.db)
    (hrun : (serviceSystem libs submitLibs).Run (fun _ e _ => e.Canonical libs) s es t) :
    t.Sound := by
  refine hrun.invariant (P := Service.Sound) (fun _ _ _ h hcanonical hstep =>
    service_sound_step h hcanonical hstep)
    ⟨hs, fun tx htx => ?_, fun task htask => ?_⟩
  · rw [hquiet.1] at htx
    exact absurd htx List.not_mem_nil
  · rw [hquiet.2] at htask
    exact absurd htask List.not_mem_nil

end

end FormRespondentRole
