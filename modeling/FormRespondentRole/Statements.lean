import FormRespondentRole.Service

/-!
# The statements of requests

`AdminRequest.writes` is the table of what each request may write: the list of the forms, the data
of the builder, the responses, their export and the data of the rule builder only read.  A request
asks for nothing else, whatever it is answered (`program_asks`).
-/

namespace FormRespondentRole

open Foundations

namespace AdminCall

/-- The statement changes nothing. -/
def reads : AdminCall → Bool
  | ownsForm .. | selectForm .. | selectVersion .. | listForms _ | selectGuildForms _
  | countResponses .. | countLinks ..
  | selectRecentResponses _ | selectResponses _ | selectBound _ | selectLink ..
  | selectViewPermission _ => true
  | _ => false

/-- The statement adds a form, or changes the columns of one. -/
def editsForms : AdminCall → Bool
  | insertForm _ | updateForm .. => true
  | _ => false

end AdminCall

namespace AdminRequest

/-- The statements of a request besides those that only read. -/
def writes : AdminRequest → AdminCall → Bool
  | createForm .., .insertForm _ | duplicateForm .., .insertForm _ => true
  | updateForm .., .updateForm .. | updateForm .., .enqueueConfigSync .. => true
  | deleteForm _, .begin | deleteForm _, .unbindLinks _ | deleteForm _, .deleteResponses _
  | deleteForm _, .deleteForm .. | deleteForm _, .commit | deleteForm _, .enqueueConfigSync .. =>
    true
  | deleteResponse .., .deleteResponse .. | deleteResponse .., .enqueuePlayerSync _ => true
  | deleteAllResponses _, .deleteResponses _ | deleteAllResponses _, .enqueueConfigSync .. => true
  | roleConfigSave .., .begin | roleConfigSave .., .saveLink ..
  | roleConfigSave .., .upsertViewPermission .. | roleConfigSave .., .commit
  | roleConfigSave .., .enqueueConfigSync .. => true
  | setViewPermission _, .upsertViewPermission .. => true
  | _, _ => false

/-- What a request may ask. -/
def MayAsk (req : AdminRequest) (c : AdminCall) : Prop := c.reads = true ∨ req.writes c = true

end AdminRequest

/-! ### The handlers -/

section

open Admin

variable {α β : Type} {allowed : AdminCall → Prop} {libs : AdminLibs} {guildId formId : Text}

/-- Whatever the handler asks is allowed. -/
abbrev Asks (allowed : AdminCall → Prop) (p : AdminM α) : Prop := p.run.Asks allowed

private theorem asks_query_bind {c : AdminCall} {f : c.Answer → AdminM α} (hc : allowed c)
    (h : ∀ a, Asks allowed (f a)) :
    Asks allowed (query c >>= f) := Program.asks_ask_bind.2 ⟨hc, h⟩

private theorem asks_tryQuery_bind {c : AdminCall} {f : Except AppError c.Answer → AdminM α}
    (hc : allowed c) (h : ∀ r, Asks allowed (f r)) : Asks allowed (tryQuery c >>= f) :=
  Program.asks_attempt_bind.2 ⟨hc, h⟩

private theorem asks_liftExcept_bind {x : Except AppError α} {f : α → AdminM β}
    (h : ∀ a, x = .ok a → Asks allowed (f a)) :
    Asks allowed (Admin.liftExcept x >>= f) := by
  cases x with
  | error e => trivial
  | ok a => exact h a rfl

private theorem asks_formUuid_bind {f : Uuid → AdminM α} (h : ∀ u, Asks allowed (f u)) :
    Asks allowed (formUuid libs formId >>= f) := by
  rw [formUuid]
  cases libs.parseUuid formId with
  | none => trivial
  | some u => exact h u

private theorem enqueueEach_asks (h : ∀ guildId roleId, allowed (.enqueueConfigSync guildId roleId))
    (keys : List LinkKey) :
    Asks allowed (enqueueEach keys) := by
  induction keys with
  | nil => trivial
  | cons key keys ih => exact asks_tryQuery_bind (h key.1 key.2) fun _ => ih

private theorem resyncLinks_asks {parsed : FormSchema}
    (hselect : ∀ guildId roleId, allowed (.selectLink guildId roleId))
    (henqueue : ∀ guildId roleId, allowed (.enqueueConfigSync guildId roleId))
    (keys : List LinkKey) :
    Asks allowed (resyncLinks parsed keys) := by
  induction keys with
  | nil => trivial
  | cons key keys ih =>
    refine asks_query_bind (hselect key.1 key.2) fun link => ?_
    cases link with
    | none => trivial
    | some link =>
      exact asks_tryQuery_bind (henqueue key.1 key.2) fun _ => Program.Asks.except_bind ih fun _ =>
        trivial

/-- The slugs that are tried are those of the list. -/
theorem insertWithRetry_asks {form : Form} {slugs : List Text}
    (h : ∀ slug ∈ slugs, allowed (.insertForm { form with slug := slug })) :
    Asks allowed (insertWithRetry form slugs) := by
  induction slugs with
  | nil => trivial
  | cons slug slugs ih =>
    refine asks_query_bind (h slug List.mem_cons_self) fun inserted => ?_
    cases inserted with
    | true => trivial
    | false => exact ih fun slug hslug => h slug (List.mem_cons_of_mem _ hslug)

/-- The `UPDATE` of a save sets what has been checked. -/
theorem updateForm_asks {body : UpdateBody} (hreads : ∀ c : AdminCall, c.reads = true → allowed c)
    (henqueue : ∀ guildId roleId, allowed (.enqueueConfigSync guildId roleId))
    (hupdate : ∀ id edit parsed, checkUpdate libs body = .ok (edit, parsed) →
      allowed (.updateForm id guildId body.version edit)) :
    Asks allowed (updateForm libs guildId formId body) := by
  refine asks_formUuid_bind fun u => asks_liftExcept_bind fun checked hchecked => ?_
  refine asks_query_bind (hupdate u checked.1 checked.2 hchecked) fun count => ?_
  by_cases hcount : count = (0 : Nat)
  · simp only [hcount, if_true]
    refine asks_query_bind (hreads _ rfl) fun version => ?_
    cases version <;> trivial
  · simp only [hcount, if_false]
    refine asks_query_bind (hreads _ rfl) fun keys => ?_
    refine Program.Asks.except_bind (resyncLinks_asks (fun _ _ => hreads _ rfl) henqueue keys)
      fun warnings => ?_
    refine asks_query_bind (hreads _ rfl) fun version => ?_
    cases version <;> trivial

private theorem deleteForm_asks :
    Asks (AdminRequest.deleteForm formId).MayAsk (deleteForm libs guildId formId) := by
  refine asks_formUuid_bind fun u => asks_query_bind (Or.inl rfl) fun owns => ?_
  cases owns with
  | false => trivial
  | true =>
    refine asks_query_bind (Or.inl rfl) fun keys => asks_query_bind (Or.inr rfl) fun _ => ?_
    refine asks_query_bind (Or.inr rfl) fun _ => asks_query_bind (Or.inr rfl) fun _ => ?_
    refine asks_query_bind (Or.inr rfl) fun deleted => ?_
    by_cases hdeleted : deleted = (0 : Nat)
    · simp only [hdeleted, if_true]
      trivial
    · simp only [hdeleted, if_false]
      refine asks_query_bind (Or.inr rfl) fun _ => ?_
      exact Program.Asks.except_bind (enqueueEach_asks (fun _ _ => Or.inr rfl) keys) fun _ =>
        trivial

private theorem deleteResponse_asks {responseId : Text} :
    Asks (AdminRequest.deleteResponse formId responseId).MayAsk
    (deleteResponse libs guildId formId responseId) := by
  refine asks_formUuid_bind fun u => ?_
  cases libs.parseUuid responseId with
  | none => trivial
  | some respId =>
    refine asks_query_bind (Or.inl rfl) fun owns => ?_
    cases owns with
    | false => trivial
    | true =>
      refine asks_query_bind (Or.inr rfl) fun discordId => ?_
      cases discordId with
      | none => trivial
      | some discordId => exact asks_tryQuery_bind (Or.inr rfl) fun _ => trivial

private theorem deleteAllResponses_asks :
    Asks (AdminRequest.deleteAllResponses formId).MayAsk
    (deleteAllResponses libs guildId formId) := by
  refine asks_formUuid_bind fun u => asks_query_bind (Or.inl rfl) fun owns => ?_
  cases owns with
  | false => trivial
  | true =>
    refine asks_query_bind (Or.inl rfl) fun keys => asks_query_bind (Or.inr rfl) fun _ => ?_
    exact Program.Asks.except_bind (enqueueEach_asks (fun _ _ => Or.inr rfl) keys) fun _ => trivial

private theorem boundSchema_asks {body : RoleConfigBody}
    (h : ∀ id guildId, allowed (.selectForm id guildId)) :
    Asks allowed (boundSchema libs guildId body) := by
  rw [boundSchema]
  cases body.boundFormId with
  | none => trivial
  | some fid =>
    dsimp only
    cases libs.parseUuid fid with
    | none => trivial
    | some u =>
      refine asks_query_bind (h u guildId) fun form => ?_
      cases form <;> trivial

/-- A save of the role configuration writes the link that it is of, and the view permission of its
guild. -/
theorem roleConfigSave_asks {roleId : Text} {body : RoleConfigBody}
    (hreads : ∀ c : AdminCall, c.reads = true → allowed c) (hbegin : allowed .begin)
    (hcommit : allowed .commit)
    (hsave : ∀ f grantOnAnySubmission conditions,
      allowed (.saveLink guildId roleId f grantOnAnySubmission conditions))
    (hview : ∀ viewPermission, allowed (.upsertViewPermission guildId viewPermission))
    (henqueue : allowed (.enqueueConfigSync guildId roleId)) :
    Asks allowed (roleConfigSave libs guildId roleId body) := by
  refine asks_query_bind (hreads _ rfl) fun link => ?_
  cases link with
  | none => trivial
  | some link =>
    refine Program.Asks.except_bind (boundSchema_asks fun _ _ => hreads _ rfl) fun schema => ?_
    refine asks_liftExcept_bind fun parsed _ => asks_query_bind hbegin fun _ =>
      asks_query_bind (hsave _ _ _) fun _ => ?_
    have hsaved : Asks allowed (saveViewPermission guildId parsed.viewPermission) := by
      cases parsed.viewPermission with
      | none => trivial
      | some viewPermission => exact ⟨hview viewPermission, fun r => trivial⟩
    refine Program.Asks.except_bind hsaved fun _ => asks_query_bind hcommit fun _ => ?_
    exact asks_tryQuery_bind henqueue fun _ => trivial

/-- A request asks for nothing but what is in the table, whatever it is answered. -/
theorem program_asks (libs : AdminLibs) (guildId : Text) (req : AdminRequest) :
    Asks req.MayAsk (req.program libs guildId) := by
  cases req with
  | listData =>
    exact Program.Asks.except_map (asks_query_bind (Or.inl rfl) fun _ =>
      asks_query_bind (Or.inl rfl) fun _ => trivial)
  | createForm draws templateName title =>
    exact Program.Asks.except_map (asks_liftExcept_bind fun form _ =>
      insertWithRetry_asks fun slug _ => Or.inr rfl)
  | builderData formId =>
    refine Program.Asks.except_map (asks_formUuid_bind fun u =>
      asks_query_bind (Or.inl rfl) fun form => ?_)
    cases form with
    | none => trivial
    | some form =>
      exact asks_query_bind (Or.inl rfl) fun _ => asks_query_bind (Or.inl rfl) fun _ => trivial
  | updateForm formId body =>
    exact Program.Asks.except_map
      (updateForm_asks (fun _ => Or.inl) (fun _ _ => Or.inr rfl) fun _ _ _ _ => Or.inr rfl)
  | deleteForm formId => exact Program.Asks.except_map deleteForm_asks
  | duplicateForm formId draws =>
    refine Program.Asks.except_map (asks_formUuid_bind fun u =>
      asks_query_bind (Or.inl rfl) fun src => ?_)
    cases src with
    | none => trivial
    | some src => exact insertWithRetry_asks fun slug _ => Or.inr rfl
  | responsesData formId =>
    refine Program.Asks.except_map (asks_formUuid_bind fun u =>
      asks_query_bind (Or.inl rfl) fun form => ?_)
    cases form with
    | none => trivial
    | some form => exact asks_query_bind (Or.inl rfl) fun _ => trivial
  | responsesCsv formId =>
    refine Program.Asks.except_map (asks_formUuid_bind fun u =>
      asks_query_bind (Or.inl rfl) fun form => ?_)
    cases form with
    | none => trivial
    | some form => exact asks_liftExcept_bind fun _ _ => asks_query_bind (Or.inl rfl) fun _ =>
      trivial
  | deleteResponse formId responseId => exact Program.Asks.except_map deleteResponse_asks
  | deleteAllResponses formId => exact Program.Asks.except_map deleteAllResponses_asks
  | roleConfigData roleId =>
    refine Program.Asks.except_map (asks_query_bind (Or.inl rfl) fun link => ?_)
    cases link with
    | none => trivial
    | some link => exact asks_query_bind (Or.inl rfl) fun _ => trivial
  | roleConfigSave roleId body =>
    exact Program.Asks.except_map
      (roleConfigSave_asks (fun _ => Or.inl) (Or.inr rfl) (Or.inr rfl) (fun _ _ _ => Or.inr rfl)
        (fun _ => Or.inr rfl) (Or.inr rfl))
  | setViewPermission viewPermission =>
    refine Program.Asks.except_map ?_
    rw [setViewPermission]
    split
    · trivial
    · exact asks_query_bind (Or.inr rfl) fun _ => trivial

end

/-! ### Statements within bounds -/

/-- The request asks only what is allowed, and has only that in its open transaction. -/
structure Connection.Within (allowed : AdminCall → Prop) (conn : Connection Reply) : Prop where
  program : conn.program.Asks allowed
  writes : ∀ ws, conn.tx = some ws → ∀ w ∈ ws, allowed w.call

/-- A relation between the database before and after that holds of every statement that is
allowed. -/
structure StatementRelation (allowed : AdminCall → Prop)
    (K : Database → Database → Prop) : Prop where
  refl : ∀ d, K d d
  trans : ∀ d d' d'', K d d' → K d' d'' → K d d''
  calls : ∀ c, allowed c → ∀ d rows now, K d (d.effectOn rows now c)

section

variable {allowed : AdminCall → Prop} {K : Database → Database → Prop}
  {conn next : Connection Reply} {d d' : Database}
  {now : Instant} {held : RowRef → Bool} {outcome : Outcome}

theorem StatementRelation.applyWrites (hK : StatementRelation allowed K) {ws : List Write}
    (h : ∀ w ∈ ws, allowed w.call) :
    K d (applyWrites ws d) := by
  induction ws with
  | nil => exact hK.refl d
  | cons w ws ih =>
    exact hK.trans _ _ _ (ih fun w hw => h w (List.mem_cons_of_mem _ hw))
      (hK.calls _ (h w List.mem_cons_self) _ _ _)

/-- The end of a statement of a request that keeps within its bounds. -/
theorem Connection.Within.finish (hK : StatementRelation allowed K) (h : conn.Within allowed)
    (hfinish : conn.finish held outcome now d = some (next, d')) :
    next.Within allowed ∧ K d d' := by
  obtain ⟨c, k, rows, hprogram, -, hcases⟩ := Connection.finish_cases hfinish
  have hasks := h.program
  rw [hprogram] at hasks
  rcases hcases with ⟨-, ⟨e, rfl⟩, rfl⟩ | ⟨-, -, r, -, rfl, rfl⟩
  · exact ⟨⟨hasks.2 _, h.writes⟩, hK.refl _⟩
  have hchange : (∀ ws, (conn.change rows now d c).1 = some ws → ∀ w ∈ ws, allowed w.call) ∧
      K d (conn.change rows now d c).2 := by
    rw [Connection.change]
    cases htx : conn.tx with
    | none => exact ⟨fun ws heq => (by cases heq), hK.calls c hasks.1 d rows now⟩
    | some ws =>
      refine ⟨fun ws' heq w hw => ?_, hK.refl _⟩
      obtain rfl := Option.some.inj heq
      rcases List.mem_cons.1 hw with rfl | hw
      · exact hasks.1
      · exact h.writes ws htx w hw
  have hcarry : (∀ ws, (conn.carry rows now d c).1 = some ws → ∀ w ∈ ws, allowed w.call) ∧
      K d (conn.carry rows now d c).2 := by
    cases c with
    | begin =>
      refine ⟨fun ws heq w hw => ?_, hK.refl _⟩
      obtain rfl := Option.some.inj heq
      exact absurd hw List.not_mem_nil
    | commit =>
      refine ⟨fun ws heq => (by cases heq), hK.applyWrites fun w hw => ?_⟩
      cases htx : conn.tx with
      | none =>
        rw [htx] at hw
        exact absurd hw List.not_mem_nil
      | some ws =>
        rw [htx] at hw
        exact h.writes ws htx w hw
    | _ => exact hchange
  exact ⟨⟨hasks.2 r, hcarry.1⟩, hcarry.2⟩

end

end FormRespondentRole
