import FormRespondentRole.Homes

/-!
# The transactions of requests

A form is deleted by a transaction that unbinds its links, deletes its responses and then the form
itself, and a link is bound by the transaction that saves a role configuration.  `cascade` is the
protocol that every request keeps to.  Unlike `conduct` it looks at no answers, so a request keeps
to it whatever the tables hold; only the deletion has to name its form as the other tables
do. -/

namespace FormRespondentRole

open Foundations

/-! ### The protocol -/

/-- The statements of a transaction so far, the newest first. -/
inductive Cascades : List AdminCall → Prop
  | deletion {id : Uuid} {guildId : Text} {calls : List AdminCall}
      (h : calls <:+ [.deleteForm id guildId, .deleteResponses id.text, .unbindLinks id.text]) :
        Cascades calls
  | save {guildId roleId viewPermission : Text} {formId : Option Text} {grantOnAnySubmission : Bool}
    {conditions : Value}
      {calls : List AdminCall} (h : calls <:+ [.upsertViewPermission guildId viewPermission,
        .saveLink guildId roleId formId grantOnAnySubmission conditions]) : Cascades calls

theorem Cascades.nil : Cascades [] := @Cascades.save [] [] [] none false .null [] List.nil_suffix

/-- The statement is made in transactions only. -/
def AdminCall.transactional : AdminCall → Bool
  | .deleteForm .. | .unbindLinks _ | .saveLink .. => true
  | _ => false

def cascade : Protocol AdminCall (fun c => Except AppError c.Answer) Conduct where
  asks g c := (c.transactional = true → g.tx.isSome) ∧ ∀ calls, (g.after c).tx = some calls →
    Cascades calls
  moves g c r g' := match r with
    | .ok _ => g' = g.after c
    | .error _ => g' = g ∨ g' = g.after c

/-- A part of a handler that has no transaction. -/
abbrev Orderly {α : Type} (p : AdminM α) : Prop := p.run.Follows cascade (fun g _ => g = {}) {}

section

variable {α β : Type} {libs : AdminLibs} {guildId : Text} {c : AdminCall}

theorem Orderly.bind {p : AdminM α} {f : α → AdminM β} (hp : Orderly p) (hf : ∀ a, Orderly (f a)) :
    Orderly (p >>= f) := by
  refine Program.Follows.except_bind (hp.mono fun g r hg => ?_)
  subst hg
  cases r with
  | ok a => exact hf a
  | error e => rfl

theorem Orderly.map {f : α → β} {p : AdminM α} (h : Orderly p) : Orderly (f <$> p) :=
  Program.Follows.except_map (h.mono fun _ _ hg => hg)

/-- A statement that starts no transaction and needs none. -/
theorem asks_outside (hc : c.transactional = false) (hbegin : c ≠ .begin) :
    cascade.asks {} c ∧ Conduct.after {} c = {} := by
  have hafter : Conduct.after {} c = {} := Conduct.after_eq rfl hbegin
  refine ⟨⟨fun h => ?_, fun calls hcalls => ?_⟩, hafter⟩
  · rw [hc] at h
    cases h
  · rw [hafter] at hcalls
    cases hcalls

private theorem orderly_query_bind {f : c.Answer → AdminM α} (hc : c.transactional = false)
    (hbegin : c ≠ .begin) (h : ∀ a, Orderly (f a)) : Orderly (query c >>= f) := by
  obtain ⟨hasks, hafter⟩ := asks_outside hc hbegin
  refine Program.follows_ask_bind.2 ⟨hasks, fun e g' hmove => ?_, fun a g' hmove => ?_⟩
  · exact hmove.elim id fun hmove => hmove.trans hafter
  · obtain rfl : g' = {} := hmove.trans hafter
    exact h a

private theorem orderly_tryQuery_bind {f : Except AppError c.Answer → AdminM α}
    (hc : c.transactional = false) (hbegin : c ≠ .begin) (h : ∀ r, Orderly (f r)) :
    Orderly (tryQuery c >>= f) := by
  obtain ⟨hasks, hafter⟩ := asks_outside hc hbegin
  refine Program.follows_attempt_bind.2 ⟨hasks, fun r g' hmove => ?_⟩
  obtain rfl : g' = {} := by
    cases r with
    | ok a => exact hmove.trans hafter
    | error e => exact hmove.elim id fun hmove => hmove.trans hafter
  exact h r

private theorem orderly_liftExcept_bind {x : Except AppError α} {f : α → AdminM β}
    (h : ∀ a, Orderly (f a)) :
    Orderly (Admin.liftExcept x >>= f) := by
  cases x with
  | error e => exact rfl
  | ok a => exact h a

private theorem orderly_formUuid_bind {formId : Text} {f : Uuid → AdminM α}
    (h : ∀ u, Orderly (f u)) :
    Orderly (Admin.formUuid libs formId >>= f) := by
  rw [Admin.formUuid]
  cases libs.parseUuid formId with
  | none => exact rfl
  | some u => exact h u

/-! ### Requests without a transaction -/

open Admin

private theorem enqueueEach_orderly (keys : List LinkKey) : Orderly (enqueueEach keys) := by
  induction keys with
  | nil => exact rfl
  | cons key keys ih => exact orderly_tryQuery_bind rfl (by simp) fun _ => ih

private theorem resyncLinks_orderly {parsed : FormSchema} (keys : List LinkKey) :
    Orderly (resyncLinks parsed keys) := by
  induction keys with
  | nil => exact rfl
  | cons key keys ih =>
    refine orderly_query_bind rfl (by simp) fun link => ?_
    cases link with
    | none => exact rfl
    | some link => exact orderly_tryQuery_bind rfl (by simp) fun _ => ih.bind fun _ => rfl

private theorem insertWithRetry_orderly {form : Form} (slugs : List Text) :
    Orderly (insertWithRetry form slugs) := by
  induction slugs with
  | nil => exact rfl
  | cons slug slugs ih =>
    refine orderly_query_bind rfl (by simp) fun inserted => ?_
    cases inserted with
    | true => exact rfl
    | false => exact ih

private theorem listData_orderly : Orderly (listData libs guildId) :=
  orderly_query_bind rfl (by simp) fun _ => orderly_query_bind rfl (by simp) fun _ => rfl

private theorem builderData_orderly {formId : Text} :
    Orderly (builderData libs guildId formId) := by
  refine orderly_formUuid_bind fun u => orderly_query_bind rfl (by simp) fun form => ?_
  cases form with
  | none => exact rfl
  | some form => exact orderly_query_bind rfl (by simp) fun _ =>
    orderly_query_bind rfl (by simp) fun _ => rfl

private theorem updateForm_orderly {formId : Text} {body : UpdateBody} :
    Orderly (Admin.updateForm libs guildId formId body) := by
  refine orderly_formUuid_bind fun u => orderly_liftExcept_bind fun checked =>
    orderly_query_bind rfl (by simp) fun count => ?_
  by_cases hcount : count = (0 : Nat)
  · simp only [hcount, if_true]
    refine orderly_query_bind rfl (by simp) fun version => ?_
    cases version <;> exact rfl
  · simp only [hcount, if_false]
    refine orderly_query_bind rfl (by simp) fun keys =>
      (resyncLinks_orderly keys).bind fun warnings => ?_
    refine orderly_query_bind rfl (by simp) fun version => ?_
    cases version <;> exact rfl

private theorem createForm_orderly {draws : Draws} {templateName : Text} {title : Option Text} :
    Orderly (createForm libs guildId draws templateName title) :=
  orderly_liftExcept_bind fun _ => insertWithRetry_orderly _

private theorem duplicateForm_orderly {formId : Text} {draws : Draws} :
    Orderly (duplicateForm libs guildId formId draws) := by
  refine orderly_formUuid_bind fun u => orderly_query_bind rfl (by simp) fun src => ?_
  cases src with
  | none => exact rfl
  | some src => exact insertWithRetry_orderly _

private theorem responsesData_orderly {formId : Text} :
    Orderly (responsesData libs guildId formId) := by
  refine orderly_formUuid_bind fun u => orderly_query_bind rfl (by simp) fun form => ?_
  cases form with
  | none => exact rfl
  | some form => exact orderly_query_bind rfl (by simp) fun _ => rfl

private theorem responsesCsv_orderly {formId : Text} :
    Orderly (responsesCsv libs guildId formId) := by
  refine orderly_formUuid_bind fun u => orderly_query_bind rfl (by simp) fun form => ?_
  cases form with
  | none => exact rfl
  | some form => exact orderly_liftExcept_bind fun _ => orderly_query_bind rfl (by simp) fun _ =>
    rfl

private theorem deleteResponse_orderly {formId responseId : Text} :
    Orderly (deleteResponse libs guildId formId responseId) := by
  refine orderly_formUuid_bind fun u => ?_
  cases libs.parseUuid responseId with
  | none => exact rfl
  | some respId =>
    refine orderly_query_bind rfl (by simp) fun owns => ?_
    cases owns with
    | false => exact rfl
    | true =>
      refine orderly_query_bind rfl (by simp) fun discordId => ?_
      cases discordId with
      | none => exact rfl
      | some discordId => exact orderly_tryQuery_bind rfl (by simp) fun _ => rfl

private theorem deleteAllResponses_orderly {formId : Text} :
    Orderly (deleteAllResponses libs guildId formId) := by
  refine orderly_formUuid_bind fun u => orderly_query_bind rfl (by simp) fun owns => ?_
  cases owns with
  | false => exact rfl
  | true =>
    refine orderly_query_bind rfl (by simp) fun keys => orderly_query_bind rfl (by simp) fun _ => ?_
    exact (enqueueEach_orderly keys).bind fun _ => rfl

private theorem roleConfigData_orderly {roleId : Text} :
    Orderly (roleConfigData libs guildId roleId) := by
  refine orderly_query_bind rfl (by simp) fun link => ?_
  cases link with
  | none => exact rfl
  | some link => exact orderly_query_bind rfl (by simp) fun _ => rfl

private theorem setViewPermission_orderly {viewPermission : Text} :
    Orderly (setViewPermission guildId viewPermission) := by
  rw [setViewPermission]
  split
  · exact rfl
  · exact orderly_query_bind rfl (by simp) fun _ => rfl

private theorem boundSchema_orderly {body : RoleConfigBody} :
    Orderly (boundSchema libs guildId body) := by
  rw [boundSchema]
  cases body.boundFormId with
  | none => exact rfl
  | some fid =>
    dsimp only
    cases libs.parseUuid fid with
    | none => exact rfl
    | some u =>
      refine orderly_query_bind rfl (by simp) fun form => ?_
      cases form <;> exact rfl

/-! ### Requests with a transaction -/

/-- The handlers keep to the protocol, whatever they answer in the end. -/
abbrev KeepsCascade {α : Type} (p : AdminM α) (g : Conduct) : Prop :=
  p.run.Follows cascade (fun _ _ => True) g

variable {g : Conduct} {calls : List AdminCall}

private theorem Orderly.keepsCascade {p : AdminM α} (h : Orderly p) : KeepsCascade p {} :=
  h.mono fun _ _ _ => trivial

theorem KeepsCascade.map {f : α → β} {p : AdminM α} (h : KeepsCascade p g) :
    KeepsCascade (f <$> p) g :=
  Program.Follows.except_map (h.mono fun _ _ _ => trivial)

private theorem Orderly.bind_keepsCascade {p : AdminM α} {f : α → AdminM β} (hp : Orderly p)
    (hf : ∀ a, KeepsCascade (f a) {}) :
    KeepsCascade (p >>= f) {} := by
  refine Program.Follows.except_bind (hp.mono fun g r hg => ?_)
  subst hg
  cases r with
  | ok a => exact hf a
  | error e => trivial

/-- A statement whose failure ends the request. -/
theorem keepsCascade_query_bind {f : c.Answer → AdminM α} (hasks : cascade.asks g c)
    (h : ∀ a, KeepsCascade (f a) (g.after c)) : KeepsCascade (query c >>= f) g := by
  refine Program.follows_ask_bind.2 ⟨hasks, fun _ _ _ => trivial, fun a g' hmove => ?_⟩
  obtain rfl : g' = g.after c := hmove
  exact h a

/-- A statement of an open transaction. -/
theorem asks_inside (htx : (g.after c).tx = some calls) (hopen : g.tx.isSome)
    (hcalls : Cascades calls) : cascade.asks g c := by
  refine ⟨fun _ => hopen, fun calls' h => ?_⟩
  obtain rfl : calls = calls' := Option.some.inj (htx.symm.trans h)
  exact hcalls

private theorem asks_begin : cascade.asks {} .begin := by
  refine ⟨Bool.noConfusion, fun calls h => ?_⟩
  cases h
  exact .nil

private theorem asks_commit : cascade.asks g .commit := by
  refine ⟨Bool.noConfusion, fun calls h => ?_⟩
  cases h

private theorem deleteForm_keepsCascade {formId : Text}
    (hspelled : ∀ u, libs.parseUuid formId = some u → formId = u.text) :
    KeepsCascade (Admin.deleteForm libs guildId formId) {} := by
  rw [Admin.deleteForm, Admin.formUuid]
  cases hu : libs.parseUuid formId with
  | none => trivial
  | some u =>
    obtain rfl := hspelled u hu
    refine keepsCascade_query_bind (asks_outside rfl (by simp)).1 fun owns => ?_
    cases owns with
    | false => trivial
    | true =>
      refine keepsCascade_query_bind (asks_outside rfl (by simp)).1 fun keys => ?_
      have hpart : ∀ calls, calls <:+ [.deleteForm u guildId, .deleteResponses u.text,
          .unbindLinks u.text] → Cascades calls :=
        fun _ => .deletion
      refine keepsCascade_query_bind asks_begin fun _ => ?_
      refine keepsCascade_query_bind (asks_inside rfl rfl (hpart _ ⟨[_, _], rfl⟩)) fun _ => ?_
      refine keepsCascade_query_bind (asks_inside rfl rfl (hpart _ ⟨[_], rfl⟩)) fun _ => ?_
      refine keepsCascade_query_bind (asks_inside rfl rfl (hpart _ List.suffix_rfl)) fun deleted =>
        ?_
      by_cases hdeleted : deleted = (0 : Nat)
      · simp only [hdeleted, if_true]
        trivial
      · simp only [hdeleted, if_false]
        refine keepsCascade_query_bind asks_commit fun _ => ?_
        exact (enqueueEach_orderly keys).bind_keepsCascade fun _ => trivial

private theorem roleConfigSave_keepsCascade {roleId : Text} {body : RoleConfigBody} :
    KeepsCascade (roleConfigSave libs guildId roleId body) {} := by
  refine keepsCascade_query_bind (asks_outside rfl (by simp)).1 fun link => ?_
  cases link with
  | none => trivial
  | some link =>
    refine boundSchema_orderly.bind_keepsCascade fun schema => ?_
    cases hparsed : parseRoleConfig libs.libs body schema.1 schema.2 with
    | error e =>
      dsimp only
      rw [hparsed]
      trivial
    | ok parsed =>
      dsimp only
      rw [hparsed]
      -- what comes once the view permission is saved
      have hcommit : ∀ tx, KeepsCascade (do
          query .commit
          let _ ← tryQuery (.enqueueConfigSync guildId roleId)
          return json [("success", .bool true)]) { tx := tx } := by
        intro tx
        refine keepsCascade_query_bind asks_commit fun _ => Orderly.keepsCascade ?_
        exact orderly_tryQuery_bind rfl (by simp) fun _ => rfl
      refine keepsCascade_query_bind asks_begin fun _ => ?_
      refine keepsCascade_query_bind (asks_inside rfl rfl
        (.save ⟨[.upsertViewPermission guildId (parsed.viewPermission.getD [])], rfl⟩)) fun _ => ?_
      cases parsed.viewPermission with
      | none => exact hcommit _
      | some viewPermission =>
        exact keepsCascade_query_bind (asks_inside rfl rfl (.save List.suffix_rfl)) fun _ =>
          hcommit _

/-- Every request keeps to the protocol, if a deletion spells the id of its form as the other tables
do. -/
theorem program_keepsCascade {req : AdminRequest}
    (hspelled : ∀ formId, req = .deleteForm formId → ∀ u, libs.parseUuid formId = some u →
      formId = u.text) :
    KeepsCascade (req.program libs guildId) {} := by
  cases req with
  | listData => exact listData_orderly.map.keepsCascade
  | createForm draws templateName title => exact createForm_orderly.map.keepsCascade
  | builderData formId => exact builderData_orderly.map.keepsCascade
  | updateForm formId body => exact updateForm_orderly.map.keepsCascade
  | deleteForm formId => exact (deleteForm_keepsCascade (hspelled formId rfl)).map
  | duplicateForm formId draws => exact duplicateForm_orderly.map.keepsCascade
  | responsesData formId => exact responsesData_orderly.map.keepsCascade
  | responsesCsv formId => exact responsesCsv_orderly.map.keepsCascade
  | deleteResponse formId responseId => exact deleteResponse_orderly.map.keepsCascade
  | deleteAllResponses formId => exact deleteAllResponses_orderly.map.keepsCascade
  | roleConfigData roleId => exact roleConfigData_orderly.map.keepsCascade
  | roleConfigSave roleId body => exact roleConfigSave_keepsCascade.map
  | setViewPermission viewPermission => exact setViewPermission_orderly.map.keepsCascade

end

end FormRespondentRole
