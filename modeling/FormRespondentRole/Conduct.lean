import FormRespondentRole.Service

/-!
# What admin requests ask

Many statements of the handlers filter by form and not by guild.  `conduct` is the protocol that all
handlers keep to all the same: a request asks for the rows of a form only once it has seen that the
form belongs to its guild, and its transactions are the deletion of such a form with what refers to
it, and the save of a role configuration.
-/

namespace FormRespondentRole

open Foundations

/-! ### The protocol -/

structure Conduct where
  /-- The forms that the request has seen to be of its guild. -/
  owned : List Uuid := []
  /-- The statements of the open transaction, the newest first. -/
  tx : Option (List AdminCall) := none

/-- The statements of a transaction so far. -/
inductive Transacts (guildId : Text) (owned : List Uuid) : List AdminCall → Prop
  | deletion {u : Uuid} {calls : List AdminCall} (hu : u ∈ owned)
      (h : calls <:+ [.deleteForm u guildId, .deleteResponses u.text, .unbindLinks u.text]) :
        Transacts guildId owned calls
  | save {roleId : Text} {formId : Option Text} {grantOnAnySubmission : Bool} {conditions : Value}
    {viewPermission : Text}
      {calls : List AdminCall} (hform : ∀ f, formId = some f → ∃ u ∈ owned, f = u.text)
      (h : calls <:+ [.upsertViewPermission guildId viewPermission,
        .saveLink guildId roleId formId grantOnAnySubmission conditions]) :
          Transacts guildId owned calls

theorem Transacts.nil {guildId : Text} {owned : List Uuid} : Transacts guildId owned [] :=
  @Transacts.save guildId owned [] none false .null [] [] (fun _ h => by cases h) List.nil_suffix

namespace Conduct

def own (g : Conduct) (u : Uuid) : Conduct := { g with owned := u :: g.owned }

/-- The transaction after a statement that is carried out. -/
def after (g : Conduct) : AdminCall → Conduct
  | .begin => { g with tx := some [] }
  | .commit => { g with tx := none }
  | c => { g with tx := g.tx.map (c :: ·) }

def Owns (g : Conduct) (formId : Text) : Prop := ∃ u ∈ g.owned, formId = u.text

end Conduct

namespace AdminRequest

def draws? : AdminRequest → Option Admin.Draws
  | createForm draws .. | duplicateForm _ draws => some draws
  | _ => none

/-- A form that the request may insert. -/
def Inserts (req : AdminRequest) (form : Form) : Prop :=
  ∃ draws, req.draws? = some draws ∧ form.id = draws.newId ∧ form.slug ∈ Admin.slugs draws

end AdminRequest

section

variable (guildId : Text) (inserts : Form → Prop)

def conduct : Protocol AdminCall (fun c => Except AppError c.Answer) Conduct where
  asks g c := match c with
    | .begin => g.tx = none
    | .commit => g.tx.isSome
    | .ownsForm _ guild | .selectForm _ guild | .selectVersion _ guild | .listForms guild
    | .selectGuildForms guild | .countResponses _ guild | .countLinks _ guild | .selectLink guild _
    | .selectViewPermission guild | .updateForm _ guild .. => guild = guildId ∧ g.tx = none
    | .insertForm form => form.guildId = guildId ∧ g.tx = none ∧ inserts form
    | .selectRecentResponses formId | .selectResponses formId | .selectBound formId
    | .deleteResponse _ formId =>
      g.Owns formId ∧ g.tx = none
    | .enqueuePlayerSync _ | .enqueueConfigSync .. => g.tx = none
    | .deleteResponses formId => g.Owns formId ∧ ∀ calls, g.tx = some calls →
      Transacts guildId g.owned (c :: calls)
    | .upsertViewPermission guild _ => guild = guildId ∧ ∀ calls, g.tx = some calls →
      Transacts guildId g.owned (c :: calls)
    | .deleteForm .. | .unbindLinks _ | .saveLink .. => ∃ calls, g.tx = some calls ∧
      Transacts guildId g.owned (c :: calls)
  moves g c r g' := match c, r with
    | .ownsForm id _, .ok owns => g' = if owns = true then g.own id else g
    | .selectForm id _, .ok form => g' = if form.isSome then g.own id else g
    | .updateForm id .., .ok count => g' = if count = (0 : Nat) then g else g.own id
    | .selectBound _, .ok keys => g' = g ∧ ∀ key ∈ keys, key.1 = guildId
    | c, .ok _ => g' = g.after c
    | c, .error _ => g' = g ∨ g' = g.after c

variable {guildId inserts} {libs : AdminLibs} {g : Conduct}

/-- The handlers keep to the protocol, whatever they answer in the end. -/
abbrev Conducted {α : Type} (guildId : Text) (inserts : Form → Prop) (p : AdminM α)
    (g : Conduct) : Prop :=
  p.run.Follows (conduct guildId inserts) (fun _ _ => True) g

theorem Conduct.after_eq (htx : g.tx = none) {c : AdminCall} (hc : c ≠ .begin) : g.after c = g := by
  obtain ⟨owned, tx⟩ := g
  cases htx
  cases c <;> first | exact absurd rfl hc | rfl

/-! ### The handlers -/

theorem Conducted.bind {α β : Type} {x : AdminM α} {f : α → AdminM β}
    (h : x.run.Follows (conduct guildId inserts) (fun g r => ∀ a, r = .ok a →
      Conducted guildId inserts (f a) g) g) :
    Conducted guildId inserts (x >>= f) g := by
  refine Program.Follows.except_bind (h.mono fun g r hr => ?_)
  cases r with
  | ok a => exact hr a rfl
  | error e => trivial

/-- A statement whose failure ends the request. -/
theorem conducted_query_bind {α : Type} {c : AdminCall} {f : c.Answer → AdminM α}
    (hasks : (conduct guildId inserts).asks g c)
    (h : ∀ a g', (conduct guildId inserts).moves g c (.ok a) g' →
      Conducted guildId inserts (f a) g') :
    Conducted guildId inserts (query c >>= f) g :=
  Program.follows_ask_bind.2 ⟨hasks, fun _ _ _ => trivial, h⟩

private theorem enqueueEach_follows (htx : g.tx = none) (keys : List LinkKey) :
    (Admin.enqueueEach keys).run.Follows (conduct guildId inserts) (fun g' _ => g' = g) g := by
  induction keys with
  | nil => rfl
  | cons key keys ih =>
    refine Program.follows_attempt_bind.2 ⟨htx, fun r g' hmove => ?_⟩
    have hafter := Conduct.after_eq htx (c := .enqueueConfigSync key.1 key.2) (by simp)
    obtain rfl : g' = g := by
      cases r with
      | ok a => exact hmove.trans hafter
      | error e => exact hmove.elim id fun h => h.trans hafter
    exact ih

private theorem resyncLinks_conducted {parsed : FormSchema} (htx : g.tx = none)
    {keys : List LinkKey} (hkeys : ∀ key ∈ keys, key.1 = guildId) :
    (Admin.resyncLinks parsed keys).run.Follows (conduct guildId inserts)
    (fun g' _ => g' = g) g := by
  induction keys with
  | nil => rfl
  | cons key keys ih =>
    obtain rfl := hkeys key List.mem_cons_self
    have hselect := Conduct.after_eq htx (c := .selectLink key.1 key.2) (by simp)
    have henqueue := Conduct.after_eq htx (c := .enqueueConfigSync key.1 key.2) (by simp)
    refine Program.follows_ask_bind.2 ⟨⟨rfl, htx⟩, fun e g' hmove => hmove.elim id fun h =>
      h.trans hselect,
      fun link g' hmove => ?_⟩
    obtain rfl : g' = g := hmove.trans hselect
    cases link with
    | none => rfl
    | some link =>
      refine Program.follows_attempt_bind.2 ⟨htx, fun r g'' hmove => ?_⟩
      obtain rfl : g'' = g' := by
        cases r with
        | ok a => exact hmove.trans henqueue
        | error e => exact hmove.elim id fun h => h.trans henqueue
      refine Program.Follows.except_bind
        ((ih fun key hkey => hkeys key (List.mem_cons_of_mem _ hkey)).mono fun g r hg => ?_)
      cases r with
      | ok warnings => exact hg
      | error e => exact hg

private theorem insertWithRetry_conducted {form : Form} (hform : form.guildId = guildId)
    (htx : g.tx = none) {slugs : List Text}
    (hinserts : ∀ slug ∈ slugs, inserts { form with slug := slug }) :
    Conducted guildId inserts (Admin.insertWithRetry form slugs) g := by
  induction slugs with
  | nil => trivial
  | cons slug slugs ih =>
    refine conducted_query_bind ⟨hform, htx, hinserts slug List.mem_cons_self⟩
      fun inserted g' hmove => ?_
    obtain rfl : g' = g := hmove.trans (Conduct.after_eq htx (by simp))
    cases inserted with
    | true => trivial
    | false => exact ih fun slug hslug => hinserts slug (List.mem_cons_of_mem _ hslug)

private theorem Conducted.formUuid_bind {α : Type} {formId : Text} {f : Uuid → AdminM α}
    (h : ∀ u, libs.parseUuid formId = some u → Conducted guildId inserts (f u) g) :
    Conducted guildId inserts (Admin.formUuid libs formId >>= f) g := by
  rw [Admin.formUuid]
  cases hid : libs.parseUuid formId with
  | none => trivial
  | some u => exact h u hid

private theorem Conducted.liftExcept_bind {α β : Type} {x : Except AppError α} {f : α → AdminM β}
    (h : ∀ a, x = .ok a → Conducted guildId inserts (f a) g) :
    Conducted guildId inserts (Admin.liftExcept x >>= f) g := by
  cases x with
  | error e => trivial
  | ok a => exact h a rfl

/-- A look at a form of the guild, by its id. -/
theorem conducted_selectForm_bind {α : Type} {u : Uuid} {f : Option Form → AdminM α}
    (htx : g.tx = none) (hnone : Conducted guildId inserts (f none) g)
    (hsome : ∀ form, Conducted guildId inserts (f (some form)) (g.own u)) :
    Conducted guildId inserts (query (.selectForm u guildId) >>= f) g := by
  refine conducted_query_bind ⟨rfl, htx⟩ fun form g' hmove => ?_
  cases form with
  | none =>
    obtain rfl : g' = g := hmove
    exact hnone
  | some form =>
    obtain rfl : g' = g.own u := hmove
    exact hsome form

private theorem conducted_ownsForm_bind {α : Type} {u : Uuid} {f : Bool → AdminM α}
    (htx : g.tx = none) (hfalse : Conducted guildId inserts (f false) g)
    (htrue : Conducted guildId inserts (f true) (g.own u)) :
    Conducted guildId inserts (query (.ownsForm u guildId) >>= f) g := by
  refine conducted_query_bind ⟨rfl, htx⟩ fun owns g' hmove => ?_
  cases owns with
  | false =>
    obtain rfl : g' = g := hmove
    exact hfalse
  | true =>
    obtain rfl : g' = g.own u := hmove
    exact htrue

private theorem Conduct.owns_own {u : Uuid} {formId : Text} (h : formId = u.text) :
    (g.own u).Owns formId :=
  ⟨u, List.mem_cons_self, h⟩

open Admin

private theorem builderData_conducted {formId : Text} (htx : g.tx = none) :
    Conducted guildId inserts (builderData libs guildId formId) g := by
  refine Conducted.formUuid_bind fun u _ => conducted_selectForm_bind htx trivial fun form => ?_
  refine conducted_query_bind ⟨rfl, htx⟩ fun responses g' hmove => ?_
  obtain rfl : g' = g.own u := hmove.trans (Conduct.after_eq (g := g.own u) htx (by simp))
  exact conducted_query_bind ⟨rfl, htx⟩ fun _ _ _ => trivial

private theorem updateForm_conducted {formId : Text} {body : UpdateBody} (htx : g.tx = none)
    (hcanonical : ∀ u, libs.parseUuid formId = some u → formId = u.text) :
    Conducted guildId inserts (Admin.updateForm libs guildId formId body) g := by
  refine Conducted.formUuid_bind fun u hu => Conducted.liftExcept_bind fun checked _ => ?_
  obtain ⟨edit, parsed⟩ := checked
  refine conducted_query_bind ⟨rfl, htx⟩ fun count g' hmove => ?_
  have hmove : g' = if count = (0 : Nat) then g else g.own u := hmove
  by_cases hcount : count = (0 : Nat)
  · rw [if_pos hcount] at hmove
    subst hmove
    simp only [hcount, if_true]
    refine conducted_query_bind ⟨rfl, htx⟩ fun version g' _ => ?_
    cases version <;> trivial
  · rw [if_neg hcount] at hmove
    subst hmove
    simp only [hcount, if_false]
    refine conducted_query_bind ⟨Conduct.owns_own (hcanonical u hu), htx⟩ fun keys g' hmove => ?_
    obtain ⟨rfl, hkeys⟩ := hmove
    refine Conducted.bind ((resyncLinks_conducted (g := g.own u) htx hkeys).mono
      fun g' r hg warnings _ => ?_)
    subst hg
    refine conducted_query_bind ⟨rfl, htx⟩ fun version g' _ => ?_
    cases version <;> trivial

private theorem deleteForm_conducted {formId : Text} (htx : g.tx = none)
    (hcanonical : ∀ u, libs.parseUuid formId = some u → formId = u.text) :
    Conducted guildId inserts (Admin.deleteForm libs guildId formId) g := by
  refine Conducted.formUuid_bind fun u hu => conducted_ownsForm_bind htx trivial ?_
  obtain rfl := hcanonical u hu
  have hmem : u ∈ (g.own u).owned := List.mem_cons_self
  refine conducted_query_bind ⟨Conduct.owns_own rfl, htx⟩ fun keys g' hmove => ?_
  obtain ⟨rfl, -⟩ := hmove
  refine conducted_query_bind htx fun _ g' hmove => ?_
  obtain rfl : g' = { g.own u with tx := some [] } := hmove
  refine conducted_query_bind ⟨_, rfl, .deletion hmem ⟨[_, _], rfl⟩⟩ fun _ g' hmove => ?_
  obtain rfl : g' = { g.own u with tx := some [.unbindLinks u.text] } := hmove
  refine conducted_query_bind ⟨⟨u, hmem, rfl⟩, fun calls hcalls => ?_⟩ fun _ g' hmove => ?_
  · cases hcalls
    exact .deletion hmem (List.suffix_cons _ _)
  obtain rfl : g' = { g.own u with tx := some [.deleteResponses u.text, .unbindLinks u.text] } :=
    hmove
  refine conducted_query_bind ⟨_, rfl, .deletion hmem List.suffix_rfl⟩ fun deleted g' hmove => ?_
  obtain rfl : g' = { g.own u with tx := some [.deleteForm u guildId, .deleteResponses u.text,
    .unbindLinks u.text] } := hmove
  by_cases hdeleted : deleted = (0 : Nat)
  · simp only [hdeleted, if_true]
    trivial
  · simp only [hdeleted, if_false]
    refine conducted_query_bind rfl fun _ g' hmove => ?_
    obtain rfl : g' = { g.own u with tx := none } := hmove
    exact Conducted.bind ((enqueueEach_follows rfl keys).mono fun _ _ _ _ _ => trivial)

theorem freshForm_eq_ok {draws : Draws} {templateName : Text} {title : Option Text} {form : Form}
    (h : freshForm libs guildId draws templateName title = .ok form) :
    form.guildId = guildId ∧ form.id = draws.newId := by
  simp only [freshForm, bind, Except.bind] at h
  split at h
  · cases h
  · split at h
    · cases h
    · cases h
      exact ⟨rfl, rfl⟩

private theorem createForm_conducted {draws : Draws} {templateName : Text} {title : Option Text}
    (htx : g.tx = none)
    (hinserts : ∀ form, form.id = draws.newId → form.slug ∈ slugs draws → inserts form) :
    Conducted guildId inserts (createForm libs guildId draws templateName title) g := by
  refine Conducted.liftExcept_bind fun form hform => ?_
  obtain ⟨hguild, hid⟩ := freshForm_eq_ok hform
  exact insertWithRetry_conducted hguild htx fun slug hslug => hinserts _ hid hslug

private theorem duplicateForm_conducted {formId : Text} {draws : Draws} (htx : g.tx = none)
    (hinserts : ∀ form, form.id = draws.newId → form.slug ∈ slugs draws → inserts form) :
    Conducted guildId inserts (duplicateForm libs guildId formId draws) g := by
  refine Conducted.formUuid_bind fun u _ => conducted_selectForm_bind htx trivial fun src => ?_
  have hcopy : (copyOf src guildId draws).guildId = guildId := rfl
  exact insertWithRetry_conducted (g := g.own u) hcopy htx fun slug hslug => hinserts _ rfl hslug

private theorem listData_conducted (htx : g.tx = none) :
    Conducted guildId inserts (listData libs guildId) g := by
  refine conducted_query_bind ⟨rfl, htx⟩ fun _ g' hmove => ?_
  obtain rfl : g' = g := hmove.trans (Conduct.after_eq htx (by simp))
  exact conducted_query_bind ⟨rfl, htx⟩ fun _ _ _ => trivial

private theorem responsesData_conducted {formId : Text} (htx : g.tx = none)
    (hcanonical : ∀ u, libs.parseUuid formId = some u → formId = u.text) :
    Conducted guildId inserts (responsesData libs guildId formId) g :=
  Conducted.formUuid_bind fun u hu => conducted_selectForm_bind htx trivial fun _ =>
    conducted_query_bind ⟨Conduct.owns_own (hcanonical u hu), htx⟩ fun _ _ _ => trivial

private theorem responsesCsv_conducted {formId : Text} (htx : g.tx = none)
    (hcanonical : ∀ u, libs.parseUuid formId = some u → formId = u.text) :
    Conducted guildId inserts (responsesCsv libs guildId formId) g :=
  Conducted.formUuid_bind fun u hu => conducted_selectForm_bind htx trivial fun _ =>
    Conducted.liftExcept_bind fun _ _ =>
    conducted_query_bind ⟨Conduct.owns_own (hcanonical u hu), htx⟩ fun _ _ _ => trivial

private theorem setViewPermission_conducted {viewPermission : Text} (htx : g.tx = none) :
    Conducted guildId inserts (setViewPermission guildId viewPermission) g := by
  rw [setViewPermission]
  split
  · trivial
  · refine conducted_query_bind ⟨rfl, fun calls hcalls => ?_⟩ fun _ _ _ => trivial
    rw [htx] at hcalls
    cases hcalls

private theorem roleConfigData_conducted {roleId : Text} (htx : g.tx = none) :
    Conducted guildId inserts (roleConfigData libs guildId roleId) g := by
  refine conducted_query_bind ⟨rfl, htx⟩ fun link g' hmove => ?_
  obtain rfl : g' = g := hmove.trans (Conduct.after_eq htx (by simp))
  cases link with
  | none => trivial
  | some link => exact conducted_query_bind ⟨rfl, htx⟩ fun _ _ _ => trivial

private theorem deleteResponse_conducted {formId responseId : Text} (htx : g.tx = none)
    (hcanonical : ∀ u, libs.parseUuid formId = some u → formId = u.text) :
    Conducted guildId inserts (deleteResponse libs guildId formId responseId) g := by
  refine Conducted.formUuid_bind fun u hu => ?_
  cases hresponse : libs.parseUuid responseId with
  | none => trivial
  | some respId =>
    refine conducted_ownsForm_bind htx trivial ?_
    refine conducted_query_bind ⟨Conduct.owns_own (hcanonical u hu), htx⟩ fun discordId g' hmove =>
      ?_
    obtain rfl : g' = g.own u := hmove.trans (Conduct.after_eq (g := g.own u) htx (by simp))
    cases discordId with
    | none => trivial
    | some discordId => exact Program.follows_attempt_bind.2 ⟨htx, fun _ _ _ => trivial⟩

private theorem deleteAllResponses_conducted {formId : Text} (htx : g.tx = none)
    (hcanonical : ∀ u, libs.parseUuid formId = some u → formId = u.text) :
    Conducted guildId inserts (deleteAllResponses libs guildId formId) g := by
  refine Conducted.formUuid_bind fun u hu => conducted_ownsForm_bind htx trivial ?_
  have howns := Conduct.owns_own (g := g) (hcanonical u hu)
  refine conducted_query_bind ⟨howns, htx⟩ fun keys g' hmove => ?_
  obtain ⟨rfl, -⟩ := hmove
  refine conducted_query_bind ⟨howns, fun calls hcalls => ?_⟩ fun _ g' hmove => ?_
  · have hnone : (g.own u).tx = none := htx
    rw [hnone] at hcalls
    cases hcalls
  obtain rfl : g' = g.own u := hmove.trans (Conduct.after_eq (g := g.own u) htx (by simp))
  exact Conducted.bind ((enqueueEach_follows (g := g.own u) htx keys).mono fun _ _ _ _ _ => trivial)

/-- A save binds its link to a form that it has seen to be of the guild. -/
theorem boundSchema_follows {body : RoleConfigBody} (htx : g.tx = none)
    {post : Conduct → Except AppError (Option FormSchema × Bool) → Prop}
    (herror : ∀ g e, post g (.error e)) (hnone : body.boundFormId = none → ∀ r, post g r)
    (hsome : ∀ fid u, body.boundFormId = some fid → libs.parseUuid fid = some u →
      ∀ r, post (g.own u) r) :
    (boundSchema libs guildId body).run.Follows (conduct guildId inserts) post g := by
  rw [boundSchema]
  cases hfid : body.boundFormId with
  | none => exact hnone hfid _
  | some fid =>
    dsimp only
    cases hu : libs.parseUuid fid with
    | none => exact herror g _
    | some u =>
      refine Program.follows_ask_bind.2 ⟨⟨rfl, htx⟩, fun e g' _ => herror g' e, fun form g' hmove =>
        ?_⟩
      cases form with
      | none => exact herror g' _
      | some form =>
        obtain rfl : g' = g.own u := hmove
        exact hsome fid u hfid hu _

private theorem saveLink_conducted {roleId : Text} {body : RoleConfigBody}
    {schema : Option FormSchema} {isQuiz : Bool} (htx : g.tx = none)
    (howns : ∀ fid, body.boundFormId = some fid → g.Owns fid) :
    Conducted guildId inserts (do
      let parsed ← Admin.liftExcept (parseRoleConfig libs.libs body schema isQuiz)
      query .begin
      query (.saveLink guildId roleId parsed.formId parsed.grantOnAnySubmission
        (.array (parsed.conditions.map Condition.toValue)))
      saveViewPermission guildId parsed.viewPermission
      query .commit
      let _ ← tryQuery (.enqueueConfigSync guildId roleId)
      return json [("success", .bool true)]) g := by
  refine Conducted.liftExcept_bind fun parsed hparsed => ?_
  have hform : ∀ f, parsed.formId = some f → g.Owns f := fun f hf =>
    howns f ((formId_of_parseRoleConfig libs.libs hparsed).symm.trans hf)
  refine conducted_query_bind htx fun _ g' hmove => ?_
  obtain rfl : g' = { g with tx := some [] } := hmove
  refine conducted_query_bind
    ⟨_, rfl, .save hform ⟨[.upsertViewPermission guildId (parsed.viewPermission.getD [])], rfl⟩⟩
    fun _ g' hmove => ?_
  obtain rfl : g' = { g with tx := some
                               [.saveLink guildId roleId parsed.formId parsed.grantOnAnySubmission
                                 (.array (parsed.conditions.map Condition.toValue))] } := hmove
  have hcommit : ∀ g : Conduct, g.tx.isSome = true → Conducted guildId inserts (do
      query .commit
      let _ ← tryQuery (.enqueueConfigSync guildId roleId)
      return json [("success", .bool true)]) g := by
    intro g hopen
    refine conducted_query_bind hopen fun _ g' hmove => ?_
    obtain rfl : g' = { g with tx := none } := hmove
    exact Program.follows_attempt_bind.2 ⟨rfl, fun _ _ _ => trivial⟩
  cases hview : parsed.viewPermission with
  | none => exact hcommit _ rfl
  | some viewPermission =>
    refine conducted_query_bind ⟨rfl, fun calls hcalls => ?_⟩ fun _ g' hmove => ?_
    · cases hcalls
      exact .save hform List.suffix_rfl
    · obtain rfl : g' = _ := hmove
      exact hcommit _ rfl

private theorem roleConfigSave_conducted {roleId : Text} {body : RoleConfigBody} (htx : g.tx = none)
    (hcanonical : ∀ formId, body.boundFormId = some formId → ∀ u, libs.parseUuid formId = some u →
      formId = u.text) :
    Conducted guildId inserts (roleConfigSave libs guildId roleId body) g := by
  refine conducted_query_bind ⟨rfl, htx⟩ fun link g' hmove => ?_
  obtain rfl : g' = g := hmove.trans (Conduct.after_eq htx (by simp))
  cases link with
  | none => trivial
  | some link =>
    -- what follows the choice of the form, once it is seen to be of the guild
    refine Conducted.bind (boundSchema_follows htx (fun _ _ _ h => by cases h)
      (fun hnone r a _ => ?_) fun fid u hfid hu r a _ => ?_)
    · exact saveLink_conducted htx fun f hf => absurd (hnone.symm.trans hf) (by simp)
    · refine saveLink_conducted (g := g'.own u) htx fun f hf => ?_
      obtain rfl : fid = f := Option.some.inj (hfid.symm.trans hf)
      exact Conduct.owns_own (hcanonical fid hfid u hu)

theorem Conducted.map {α β : Type} {f : α → β} {p : AdminM α} (h : Conducted guildId inserts p g) :
    Conducted guildId inserts (f <$> p) g :=
  Program.Follows.except_map (h.mono fun _ _ _ => trivial)

/-- Every request keeps to the protocol. -/
theorem program_conducted {req : AdminRequest} (hcanonical : req.Canonical libs) :
    Conducted guildId req.Inserts (req.program libs guildId) {} := by
  cases req with
  | listData => exact (listData_conducted rfl).map
  | createForm draws templateName title =>
    exact (createForm_conducted rfl fun _ hid hslug => ⟨draws, rfl, hid, hslug⟩).map
  | builderData formId => exact (builderData_conducted rfl).map
  | updateForm formId body => exact (updateForm_conducted rfl (hcanonical formId rfl)).map
  | deleteForm formId => exact (deleteForm_conducted rfl (hcanonical formId rfl)).map
  | duplicateForm formId draws =>
    exact (duplicateForm_conducted rfl fun _ hid hslug => ⟨draws, rfl, hid, hslug⟩).map
  | responsesData formId => exact (responsesData_conducted rfl (hcanonical formId rfl)).map
  | responsesCsv formId => exact (responsesCsv_conducted rfl (hcanonical formId rfl)).map
  | deleteResponse formId responseId =>
    exact (deleteResponse_conducted rfl (hcanonical formId rfl)).map
  | deleteAllResponses formId =>
    exact (deleteAllResponses_conducted rfl (hcanonical formId rfl)).map
  | roleConfigData roleId => exact (roleConfigData_conducted rfl).map
  | roleConfigSave roleId body => exact (roleConfigSave_conducted rfl hcanonical).map
  | setViewPermission viewPermission => exact (setViewPermission_conducted rfl).map

end

end FormRespondentRole
