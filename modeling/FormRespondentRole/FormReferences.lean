import FormRespondentRole.Cascades
import FormRespondentRole.Tenants

/-!
# References to forms

The ids of forms in responses and links are texts, and no foreign key keeps them.  `delete_form`
clears them itself, in a transaction of three statements, each on the rows that it finds when it
starts.  What a submit inserts for the form after the second has started, and a link that is bound
to it after the first has, stay behind.

A run without these overlaps leaves no reference dangling (`references_kept`): at every step the
statements of an open deletion have found all the rows that refer to its form, and no submit holds a
form that an open deletion has removed.
-/

namespace FormRespondentRole

open Foundations

/-! ### References -/

namespace Database

/-- The text is the id of a form. -/
def NamesForm (d : Database) (formId : Text) : Prop := ∃ form ∈ d.forms.rows, form.id.text = formId

instance {d : Database} {formId : Text} : Decidable (d.NamesForm formId) :=
  inferInstanceAs (Decidable (∃ form ∈ d.forms.rows, form.id.text = formId))

/-- A response or a link carries the form id. -/
def RefersTo (d : Database) (formId : Text) : Prop :=
  (∃ row ∈ d.responses.rows, row.formId = formId) ∨ ∃ link ∈ d.roleLinks.rows,
    link.formId = some formId

/-- The form ids of responses and links are those of forms. -/
def Intact (d : Database) : Prop := ∀ formId, d.RefersTo formId → d.NamesForm formId

/-- The statement has found all the rows that it is to clear. -/
def Found (d : Database) (rows : List RowRef) : AdminCall → Prop
  | .deleteResponses formId => ∀ row ∈ d.responses.rows, row.formId = formId →
  .response row.id ∈ rows
  | .unbindLinks formId => ∀ link ∈ d.roleLinks.rows, link.formId = some formId →
    .link link.key ∈ rows
  | _ => True

/-- The references are those of an earlier state, but for responses inserted and links bound
since. -/
structure Inherits (d d' : Database) (inserted bound : Text → Prop) : Prop where
  responses : ∀ row ∈ d'.responses.rows,
    (∃ row₀ ∈ d.responses.rows, row₀.id = row.id ∧ row₀.formId = row.formId) ∨ inserted row.formId
  links : ∀ link ∈ d'.roleLinks.rows, ∀ formId, link.formId = some formId →
    (∃ link₀ ∈ d.roleLinks.rows, link₀.key = link.key ∧ link₀.formId = some formId) ∨ bound formId

end Database

/-! ### Steps that leave a reference behind -/

/-- The statement deletes the responses of the form. -/
def AdminCall.sweeps (formId : Text) : AdminCall → Bool
  | .deleteResponses f => f = formId
  | _ => false

/-- The statement unbinds the links of the form. -/
def AdminCall.unbinds (formId : Text) : AdminCall → Bool
  | .unbindLinks f => f = formId
  | _ => false

namespace Connection

variable {α : Type}

/-- The statements of the open transaction that have started, with the rows that they have found. -/
def begun (conn : Connection α) : List (AdminCall × List RowRef) :=
  match conn.tx with
  | none => []
  | some ws =>
    (match conn.program, conn.found with
      | .call c _, some rows => [(c, rows)]
      | _, _ => []) ++ ws.map fun w => (w.call, w.rows)

/-- What the running statement commits. -/
def commits (outcome : Outcome) (conn : Connection α) : List Write :=
  match conn.program with
  | .call .commit _ => if outcome.carried then conn.tx.getD [] else []
  | _ => []

end Connection

/-- The form that the change binds a link to which is not bound to it yet. -/
def Write.binds? (d : Database) (w : Write) : Option Text :=
  match w.call with
  | .saveLink guildId roleId (some formId) .. =>
    if d.roleLinks.rows.any fun link =>
        decide (RowRef.link link.key ∈ w.rows ∧ link.key = (guildId, roleId) ∧
          link.formId ≠ some formId) then
      some formId
    else none
  | _ => none

namespace Service

/-- A transaction is open in which such a statement has started. -/
def begun (s : Service) (p : AdminCall → Bool) : Bool :=
  s.requests.any fun task => task.conn.begun.any fun b => p b.1

/-- The step may leave a reference behind: it inserts a response whose form is being deleted, past
the deletion of its responses, or binds a link to a form that is gone or past the unbinding of its
links.  Or it is a deletion whose path spells the id of the form in another way than the tables. -/
def disturbs (libs : AdminLibs) (s : Service) : ServiceEvent → Bool
  | .submit (.commit i) =>
    (partyAt s.submits i).any fun (_, tx, _) => tx.inserts?.any fun form =>
      s.begun (·.sweeps form.id.text)
  | .finish i outcome _ =>
    (partyAt s.requests i).any fun (_, task, _) =>
      (task.conn.commits outcome).any fun w =>
        (w.binds? s.db).any fun formId => !decide (s.db.NamesForm formId) || s.begun
          (·.unbinds formId)
  | .request _ (.deleteForm formId) => (libs.parseUuid formId).any fun id =>
    decide (formId ≠ id.text)
  | _ => false

end Service

section

variable {d d' d'' : Database} {inserted bound inserted' bound' : Text → Prop} {rows : List RowRef}
  {now : Instant}
  {c : AdminCall} {formId : Text}

/-! ### What statements keep -/

namespace Database

theorem Inherits.of_eq (hresponses : d'.responses = d.responses)
    (hlinks : d'.roleLinks = d.roleLinks) :
    d.Inherits d' inserted bound where
  responses row hrow := Or.inl ⟨row, hresponses ▸ hrow, rfl, rfl⟩
  links link hlink _ hf := Or.inl ⟨link, hlinks ▸ hlink, rfl, hf⟩

theorem Inherits.mono (h : d.Inherits d' inserted bound) (hinserted : ∀ f, inserted f → inserted' f)
    (hbound : ∀ f, bound f → bound' f) : d.Inherits d' inserted' bound' where
  responses row hrow := (h.responses row hrow).imp_right (hinserted _)
  links link hlink f hf := (h.links link hlink f hf).imp_right (hbound f)

theorem Inherits.trans (h : d.Inherits d' inserted bound) (h' : d'.Inherits d'' inserted bound) :
    d.Inherits d'' inserted bound where
  responses row hrow := by
    rcases h'.responses row hrow with ⟨row₁, hrow₁, hid, hformId⟩ | hinserted
    · rcases h.responses row₁ hrow₁ with ⟨row₀, hrow₀, hid₀, hformId₀⟩ | hinserted
      · exact Or.inl ⟨row₀, hrow₀, hid₀.trans hid, hformId₀.trans hformId⟩
      · exact Or.inr (hformId ▸ hinserted)
    · exact Or.inr hinserted
  links link hlink f hf := by
    rcases h'.links link hlink f hf with ⟨link₁, hlink₁, hkey, hf₁⟩ | hbound
    · rcases h.links link₁ hlink₁ f hf₁ with ⟨link₀, hlink₀, hkey₀, hf₀⟩ | hbound
      · exact Or.inl ⟨link₀, hlink₀, hkey₀.trans hkey, hf₀⟩
      · exact Or.inr hbound
    · exact Or.inr hbound

/-- What a statement has found is all that there is for it, unless something has been added. -/
theorem Found.inherit (h : d.Found rows c) (hd : d.Inherits d' inserted bound)
    (hinserted : ∀ f, inserted f → c.sweeps f = false)
    (hbound : ∀ f, bound f → c.unbinds f = false) : d'.Found rows c := by
  cases c with
  | deleteResponses formId =>
    intro row hrow hformId
    rcases hd.responses row hrow with ⟨row₀, hrow₀, hid, hformId₀⟩ | hadded
    · rw [← hid]
      exact h row₀ hrow₀ (hformId₀.trans hformId)
    · exact absurd hformId.symm (of_decide_eq_false (hinserted _ hadded))
  | unbindLinks formId =>
    intro link hlink hformId
    rcases hd.links link hlink formId hformId with ⟨link₀, hlink₀, hkey, hformId₀⟩ | hadded
    · rw [← hkey]
      exact h link₀ hlink₀ hformId₀
    · exact absurd rfl (of_decide_eq_false (hbound _ hadded))
  | _ => trivial

/-- References stay intact while forms stay. -/
theorem Intact.inherit (h : d.Intact) (hd : d.Inherits d' inserted bound)
    (hforms : ∀ f, d.NamesForm f → d'.NamesForm f) (hinserted : ∀ f, inserted f → d'.NamesForm f)
    (hbound : ∀ f, bound f → d'.NamesForm f) :
    d'.Intact := by
  rintro f (⟨row, hrow, rfl⟩ | ⟨link, hlink, hf⟩)
  · rcases hd.responses row hrow with ⟨row₀, hrow₀, -, hformId⟩ | hadded
    · exact hforms _ (h _ (Or.inl ⟨row₀, hrow₀, hformId⟩))
    · exact hinserted _ hadded
  · rcases hd.links link hlink f hf with ⟨link₀, hlink₀, -, hf₀⟩ | hadded
    · exact hforms _ (h _ (Or.inr ⟨link₀, hlink₀, hf₀⟩))
    · exact hbound _ hadded

/-- Only a deletion that has found the form removes it. -/
theorem NamesForm.effectOn (h : d.NamesForm formId)
    (hc : ∀ id guildId, c = .deleteForm id guildId → RowRef.form id ∈ rows → id.text ≠ formId) :
    (d.effectOn rows now c).NamesForm formId := by
  obtain ⟨form, hform, htext⟩ := h
  cases c with
  | insertForm added =>
    dsimp only [Database.effectOn, Database.effect]
    split
    · split
      · exact ⟨form, List.mem_append_left _ hform, htext⟩
      · exact ⟨form, hform, htext⟩
    · exact ⟨form, hform, htext⟩
  | updateForm id guildId version edit =>
    refine ⟨_, Table.mem_update.2 ⟨form, hform, rfl⟩, ?_⟩
    split
    · exact htext
    · exact htext
  | deleteForm id guildId =>
    refine ⟨form, Table.mem_delete.2 ⟨hform, decide_eq_false ?_⟩, htext⟩
    rintro ⟨hfound, rfl, -⟩
    exact hc _ guildId rfl hfound htext
  | _ => exact ⟨form, hform, htext⟩

/-- A statement inserts no response, and binds no link unless it saves one. -/
theorem inherits_effectOn
    (hc : ∀ guildId roleId f grantOnAnySubmission conditions,
      c ≠ .saveLink guildId roleId f grantOnAnySubmission conditions) :
    d.Inherits (d.effectOn rows now c) (fun _ => False) fun _ => False := by
  cases c with
  | insertForm form =>
    dsimp only [Database.effectOn, Database.effect]
    split
    · split
      · exact .of_eq rfl rfl
      · exact .of_eq rfl rfl
    · exact .of_eq rfl rfl
  | unbindLinks formId =>
    refine ⟨fun row hrow => Or.inl ⟨row, hrow, rfl, rfl⟩, fun link hlink f hf => Or.inl ?_⟩
    obtain ⟨link₀, hlink₀, rfl⟩ := Table.mem_update.1 hlink
    split at hf
    · cases hf
    · rename_i hkept
      rw [if_neg hkept]
      exact ⟨link₀, hlink₀, rfl, hf⟩
  | saveLink guildId roleId f grantOnAnySubmission conditions => exact absurd rfl (hc _ _ _ _ _)
  | deleteResponse id formId =>
    exact ⟨fun row hrow => Or.inl ⟨row, (Table.mem_delete.1 hrow).1, rfl, rfl⟩,
      fun link hlink f hf => Or.inl ⟨link, hlink, rfl, hf⟩⟩
  | deleteResponses formId =>
    exact ⟨fun row hrow => Or.inl ⟨row, (Table.mem_delete.1 hrow).1, rfl, rfl⟩,
      fun link hlink f hf => Or.inl ⟨link, hlink, rfl, hf⟩⟩
  | _ => exact .of_eq rfl rfl

private theorem inherits_saveLink {w : Write} {guildId roleId : Text} {f : Option Text}
    {grantOnAnySubmission : Bool} {conditions : Value}
    (hw : w.call = .saveLink guildId roleId f grantOnAnySubmission conditions) :
    d.Inherits (d.effectOn w.rows w.now w.call) (fun _ => False) fun formId =>
      w.binds? d = some formId := by
  rw [Write.binds?, hw]
  refine ⟨fun row hrow => Or.inl ⟨row, hrow, rfl, rfl⟩, fun link hlink formId hformId => ?_⟩
  obtain ⟨link₀, hlink₀, rfl⟩ := Table.mem_update.1 hlink
  by_cases hmatch : RowRef.link link₀.key ∈ w.rows ∧ link₀.key = (guildId, roleId)
  · rw [if_pos (decide_eq_true hmatch)] at hformId ⊢
    obtain rfl : f = some formId := hformId
    by_cases hbound : link₀.formId = some formId
    · exact Or.inl ⟨link₀, hlink₀, rfl, hbound⟩
    · refine Or.inr (if_pos
        (List.any_eq_true.2 ⟨link₀, hlink₀, decide_eq_true ⟨hmatch.1, hmatch.2, hbound⟩⟩))
  · have hkept : ¬decide (RowRef.link link₀.key ∈ w.rows ∧ link₀.key = (guildId, roleId)) =
      true := by simpa using hmatch
    rw [if_neg hkept] at hformId ⊢
    exact Or.inl ⟨link₀, hlink₀, rfl, hformId⟩

end Database

/-! ### What transactions keep -/

theorem namesForm_applyWrites {ws : List Write} (h : d.NamesForm formId)
    (hws : ∀ w ∈ ws, ∀ id guildId, w.call = .deleteForm id guildId → RowRef.form id ∈ w.rows →
      id.text ≠ formId) :
    (applyWrites ws d).NamesForm formId := by
  induction ws with
  | nil => exact h
  | cons w ws ih =>
    exact (ih fun w hw => hws w (List.mem_cons_of_mem _ hw)).effectOn (hws w List.mem_cons_self)

private theorem inherits_applyWrites {ws : List Write}
    (hws : ∀ w ∈ ws,
      ∀ guildId roleId f grantOnAnySubmission conditions,
      w.call ≠ .saveLink guildId roleId f grantOnAnySubmission conditions) :
    d.Inherits (applyWrites ws d) (fun _ => False) fun _ => False := by
  induction ws with
  | nil => exact .of_eq rfl rfl
  | cons w ws ih =>
    exact (ih fun w hw => hws w (List.mem_cons_of_mem _ hw)).trans
      (Database.inherits_effectOn (hws w List.mem_cons_self))

/-- An open transaction is a deletion that has not come to the form yet, a whole deletion, or a
save. -/
theorem Cascades.cases {ws : List Write} (h : Cascades (ws.map Write.call)) :
    (∀ w ∈ ws, ∃ formId, w.call = .deleteResponses formId ∨ w.call = .unbindLinks formId) ∨
      (∃ id guildId rows₁ now₁ rows₂ now₂ rows₃ now₃, ws = [⟨.deleteForm id guildId, rows₃, now₃⟩,
        ⟨.deleteResponses id.text, rows₂, now₂⟩, ⟨.unbindLinks id.text, rows₁, now₁⟩]) ∨
      ∃ w guildId roleId f grantOnAnySubmission conditions,
        w.call = .saveLink guildId roleId f grantOnAnySubmission conditions ∧
          (ws = [w] ∨ ∃ viewPermission rows now,
            ws = [⟨.upsertViewPermission guildId viewPermission, rows, now⟩, w]) := by
  generalize hcalls : ws.map Write.call = calls at h
  cases h with
  | @deletion id guildId _ h =>
    rcases List.suffix_cons_iff.1 h with rfl | h
    · simp only [List.map_eq_cons_iff, List.map_eq_nil_iff] at hcalls
      obtain ⟨⟨-, rows₃, now₃⟩, -, rfl, rfl, ⟨-, rows₂, now₂⟩, -, rfl, rfl, ⟨-, rows₁, now₁⟩, -,
        rfl, rfl, rfl⟩ := hcalls
      exact Or.inr (Or.inl ⟨id, guildId, rows₁, now₁, rows₂, now₂, rows₃, now₃, rfl⟩)
    · refine Or.inl fun w hw => ⟨id.text, ?_⟩
      have hmem := h.subset (hcalls ▸ List.mem_map_of_mem (f := Write.call) hw)
      simpa using hmem
  | @save guildId roleId viewPermission f grantOnAnySubmission conditions _ h =>
    rcases List.suffix_cons_iff.1 h with rfl | h
    · simp only [List.map_eq_cons_iff, List.map_eq_nil_iff] at hcalls
      obtain ⟨⟨-, rows, now⟩, -, rfl, rfl, w, -, rfl, hw, rfl⟩ := hcalls
      exact Or.inr (Or.inr ⟨w, guildId, roleId, f, grantOnAnySubmission, conditions, hw,
        Or.inr ⟨viewPermission, rows, now, rfl⟩⟩)
    · rcases List.suffix_cons_iff.1 h with rfl | h
      · simp only [List.map_eq_cons_iff, List.map_eq_nil_iff] at hcalls
        obtain ⟨w, -, rfl, hw, rfl⟩ := hcalls
        exact Or.inr (Or.inr ⟨w, guildId, roleId, f, grantOnAnySubmission, conditions, hw,
          Or.inl rfl⟩)
      · obtain rfl := List.map_eq_nil_iff.1 (hcalls.trans (List.suffix_nil.1 h))
        exact Or.inl fun w hw => absurd hw List.not_mem_nil

private theorem Cascades.inherits {ws : List Write} (h : Cascades (ws.map Write.call)) :
    d.Inherits (applyWrites ws d) (fun _ => False) fun f => ∃ w ∈ ws, w.binds? d = some f := by
  rcases h.cases with hpart | ⟨id, guildId, rows₁, now₁, rows₂, now₂, rows₃, now₃, rfl⟩ |
    ⟨w, guildId, roleId, f, grantOnAnySubmission, conditions, hw, hws⟩
  · refine (inherits_applyWrites fun w hw guildId roleId f grantOnAnySubmission conditions heq =>
      ?_).mono (fun _ hf => hf)
      fun _ => False.elim
    obtain ⟨formId, hcall⟩ := hpart w hw
    simp [heq] at hcall
  · refine (inherits_applyWrites fun w hw guildId roleId f grantOnAnySubmission conditions heq =>
      ?_).mono (fun _ hf => hf)
      fun _ => False.elim
    simp only [List.mem_cons, List.not_mem_nil, or_false] at hw
    rcases hw with rfl | rfl | rfl <;> cases heq
  · have hsaved : d.Inherits (applyWrites [w] d) (fun _ => False) fun f => ∃ w' ∈ [w],
        w'.binds? d = some f :=
      (Database.inherits_saveLink hw).mono (fun _ hf => hf) fun f hf =>
        ⟨w, List.mem_singleton_self w, hf⟩
    rcases hws with rfl | ⟨viewPermission, rows, now, rfl⟩
    · exact hsaved
    · refine ⟨hsaved.responses, fun link hlink f hf => (hsaved.links link hlink f hf).imp_right ?_⟩
      rintro ⟨w', hw', hbinds⟩
      exact ⟨w', List.mem_cons_of_mem _ hw', hbinds⟩

/-- A transaction that commits leaves no reference dangling, if a deletion has found all the rows
that refer to its form and a save binds its link to a form that there is. -/
theorem Cascades.intact {ws : List Write} (h : Cascades (ws.map Write.call)) (hd : d.Intact)
    (hfound : ∀ w ∈ ws, d.Found w.rows w.call)
    (hbinds : ∀ w ∈ ws, ∀ f, w.binds? d = some f → d.NamesForm f) :
    (applyWrites ws d).Intact := by
  -- a transaction that deletes no form
  have hkeeps : (∀ w ∈ ws, ∀ id guildId, w.call ≠ .deleteForm id guildId) →
      (applyWrites ws d).Intact := by
    intro hws
    have hforms : ∀ f, d.NamesForm f → (applyWrites ws d).NamesForm f := fun f hf =>
      namesForm_applyWrites hf fun w hw id guildId heq => absurd heq (hws w hw id guildId)
    refine hd.inherit h.inherits hforms (fun _ => False.elim) fun f hf => ?_
    obtain ⟨w, hw, hf⟩ := hf
    exact hforms f (hbinds w hw f hf)
  rcases h.cases with hpart | ⟨id, guildId, rows₁, now₁, rows₂, now₂, rows₃, now₃, rfl⟩ |
    ⟨w, guildId, roleId, f, grantOnAnySubmission, conditions, hw, hws⟩
  · refine hkeeps fun w hw id guildId heq => ?_
    obtain ⟨formId, hcall⟩ := hpart w hw
    simp [heq] at hcall
  · -- nothing refers to the form any more, and the other forms stay
    have hresponses := hfound ⟨.deleteResponses id.text, rows₂, now₂⟩ (by simp)
    have hlinks := hfound ⟨.unbindLinks id.text, rows₁, now₁⟩ (by simp)
    have hother : ∀ f, f ≠ id.text → d.NamesForm f →
      (applyWrites [⟨.deleteForm id guildId, rows₃, now₃⟩,
        ⟨.deleteResponses id.text, rows₂, now₂⟩, ⟨.unbindLinks id.text, rows₁, now₁⟩] d).NamesForm
            f := by
      refine fun f hne hf => namesForm_applyWrites hf fun w hw id' guildId' heq _ => ?_
      simp only [List.mem_cons, List.not_mem_nil, or_false] at hw
      rcases hw with rfl | rfl | rfl
      · cases heq
        exact hne.symm
      · cases heq
      · cases heq
    rintro f (⟨row, hrow, rfl⟩ | ⟨link, hlink, hf⟩)
    · obtain ⟨hrow, hkept⟩ := Table.mem_delete.1 hrow
      have hne : row.formId ≠ id.text :=
        fun heq => of_decide_eq_false hkept ⟨hresponses row hrow heq, heq⟩
      exact hother _ hne (hd _ (Or.inl ⟨row, hrow, rfl⟩))
    · obtain ⟨link₀, hlink₀, rfl⟩ := Table.mem_update.1 hlink
      split at hf
      · cases hf
      · rename_i hkept
        have hne : f ≠ id.text := by
          rintro rfl
          exact hkept (decide_eq_true ⟨hlinks link₀ hlink₀ hf, hf⟩)
        exact hother _ hne (hd _ (Or.inr ⟨link₀, hlink₀, hf⟩))
  · refine hkeeps fun w' hw' id guildId' heq => ?_
    rcases hws with rfl | ⟨viewPermission, rows, now, rfl⟩
    · obtain rfl := List.mem_singleton.1 hw'
      cases hw.symm.trans heq
    · simp only [List.mem_cons, List.not_mem_nil, or_false] at hw'
      rcases hw' with rfl | rfl
      · cases heq
      · cases hw.symm.trans heq

/-- The deletion of responses comes after the unbinding of links only, which comes first. -/
theorem Cascades.view {ws : List Write} {calls : List AdminCall} (h : Cascades (c :: calls))
    (hcalls : calls = ws.map Write.call) :
    (c.sweeps formId = true → (applyWrites ws d).responses = d.responses) ∧
      (c.unbinds formId = true → (applyWrites ws d).roleLinks = d.roleLinks) := by
  cases h with
  | deletion h =>
    simp only [List.suffix_cons_iff, List.suffix_nil, List.cons.injEq, reduceCtorEq, or_false] at h
    rcases h with ⟨rfl, -⟩ | ⟨rfl, rfl⟩ | ⟨rfl, rfl⟩
    · exact ⟨Bool.noConfusion, Bool.noConfusion⟩
    · -- what is unbound before leaves the responses as they are
      simp only [eq_comm (a := [_]), List.map_eq_cons_iff, List.map_eq_nil_iff] at hcalls
      obtain ⟨⟨-, rows, now⟩, -, rfl, rfl, rfl⟩ := hcalls
      exact ⟨fun _ => rfl, Bool.noConfusion⟩
    · obtain rfl := List.map_eq_nil_iff.1 hcalls.symm
      exact ⟨fun _ => rfl, fun _ => rfl⟩
  | save h =>
    -- the statements of a save are others
    simp only [List.suffix_cons_iff, List.suffix_nil, List.cons.injEq, reduceCtorEq, or_false] at h
    rcases h with ⟨rfl, -⟩ | ⟨rfl, -⟩
    · exact ⟨Bool.noConfusion, Bool.noConfusion⟩
    · exact ⟨Bool.noConfusion, Bool.noConfusion⟩

/-- A statement of the cascade finds all the rows that it is to clear. -/
theorem Cascades.found_targets {ws : List Write} (h : Cascades (c :: ws.map Write.call)) :
    d.Found ((applyWrites ws d).targets c) c := by
  cases c with
  | deleteResponses f =>
    intro row hrow hf
    have hsame : (applyWrites ws d).responses = d.responses := (h.view rfl).1 (decide_eq_true rfl)
    refine List.mem_map.2 ⟨row, List.mem_filter.2 ⟨?_, decide_eq_true hf⟩, rfl⟩
    rw [hsame]
    exact hrow
  | unbindLinks f =>
    intro link hlink hf
    have hsame : (applyWrites ws d).roleLinks = d.roleLinks := (h.view rfl).2 (decide_eq_true rfl)
    refine List.mem_map.2 ⟨link, List.mem_filter.2 ⟨?_, decide_eq_true hf⟩, rfl⟩
    rw [hsame]
    exact hlink
  | _ => trivial

/-- They still match when the statement ends. -/
theorem Cascades.found_matching {ws : List Write} (h : Cascades (c :: ws.map Write.call))
    (hrows : d.Found rows c) :
    d.Found ((applyWrites ws d).matching rows c) c := by
  have htargets := h.found_targets (d := d)
  cases c with
  | deleteResponses f =>
    exact fun row hrow hf => List.mem_filter.2 ⟨htargets row hrow hf,
      decide_eq_true (hrows row hrow hf)⟩
  | unbindLinks f =>
    exact fun link hlink hf => List.mem_filter.2 ⟨htargets link hlink hf,
      decide_eq_true (hrows link hlink hf)⟩
  | _ => trivial

end

/-! ### Requests under way -/

/-- The request keeps to the protocol, and the statements of its open transaction have found all the
rows that they are to clear. -/
structure Connection.Keeps (d : Database) (conn : Connection Reply) : Prop where
  follows : ∃ g : Conduct, conn.program.Follows cascade (fun _ _ => True) g ∧
    g.tx = conn.tx.map (·.map Write.call)
  cascades : ∀ ws, conn.tx = some ws → Cascades (ws.map Write.call)
  found : ∀ c rows, (c, rows) ∈ conn.begun → d.Found rows c

section

variable {d d' : Database} {conn next : Connection Reply} {c : AdminCall} {rows : List RowRef}
  {ws : List Write}
  {k : Except AppError c.Answer → AdminProgram (Except AppError Reply)} {now : Instant}

private theorem mem_begun : (c, rows) ∈ conn.begun ↔ ∃ ws, conn.tx = some ws ∧
    ((∃ k, conn.program = .call c k ∧ conn.found = some rows) ∨ ∃ w ∈ ws, w.call = c ∧
      w.rows = rows) := by
  rw [Connection.begun]
  cases htx : conn.tx with
  | none => simp
  | some ws =>
    simp only [List.mem_append, List.mem_map, Prod.mk.injEq, Option.some.injEq, exists_eq_left']
    refine or_congr_left ?_
    cases hprogram : conn.program with
    | pure r => simp
    | call c' k' =>
      cases hfound : conn.found with
      | none => simp
      | some rows' =>
        simp only [List.mem_singleton, Prod.mk.injEq, Option.some.injEq]
        constructor
        · rintro ⟨rfl, rfl⟩
          exact ⟨k', rfl, rfl⟩
        · rintro ⟨k, hcall, rfl⟩
          injection hcall with hc _
          exact ⟨hc.symm, rfl⟩

/-- A statement keeps the transaction that it is made in to one of a deletion or a save. -/
theorem Connection.Keeps.asks (h : conn.Keeps d) (hprogram : conn.program = .call c k) :
    (c.transactional = true → conn.tx.isSome) ∧
      ∀ ws, conn.tx = some ws → c ≠ .begin → c ≠ .commit → Cascades (c :: ws.map Write.call) := by
  obtain ⟨g, hfollows, htx⟩ := h.follows
  rw [hprogram] at hfollows
  obtain ⟨⟨hopen, hcalls⟩, -⟩ := hfollows
  constructor
  · intro hc
    have hsome := hopen hc
    rw [htx, Option.isSome_map] at hsome
    exact hsome
  · intro ws hws hbegin hcommit
    rw [hws] at htx
    refine hcalls _ ?_
    cases c with
    | begin => exact absurd rfl hbegin
    | commit => exact absurd rfl hcommit
    | _ => exact congrArg (Option.map _) htx

theorem Connection.Keeps.start (h : conn.Keeps d) (hstart : conn.start d = some next) :
    next.Keeps d := by
  obtain ⟨c, k, hprogram, hfound, rfl⟩ := Connection.start_eq_some hstart
  refine ⟨h.follows, h.cascades, fun c' rows' hmem => ?_⟩
  obtain ⟨ws, hws, ⟨k', hcall, hrows⟩ | ⟨w, hw, hcall, hrows⟩⟩ := mem_begun.1 hmem
  · injection hprogram.symm.trans hcall with hc _
    subst hc
    obtain rfl := Option.some.inj hrows
    have hview : conn.view d = applyWrites ws d := by
      rw [Connection.view]
      exact congrArg (fun tx => applyWrites (Option.getD tx []) d) hws
    rw [hview]
    have hcascades := (h.asks hprogram).2 ws hws
    cases c with
    | begin => trivial
    | commit => trivial
    | _ => exact (hcascades (by simp) (by simp)).found_targets
  · exact h.found c' rows' (mem_begun.2 ⟨ws, hws, Or.inr ⟨w, hw, hcall, hrows⟩⟩)

/-- What a statement that is carried out leaves: a transaction starts, ends or goes on, or the
statement is made outside of one. -/
theorem Connection.Keeps.carry_cases (h : conn.Keeps d) (rows : List RowRef) (now : Instant)
    (hprogram : conn.program = .call c k) :
    c = .begin ∧ conn.carry rows now d c = (some [], d) ∨
      c = .commit ∧ conn.carry rows now d c = (none, conn.view d) ∨
      conn.tx = none ∧ c.transactional = false ∧
      conn.carry rows now d c = (none, d.effectOn rows now c) ∨
      ∃ ws, conn.tx = some ws ∧ Cascades (c :: ws.map Write.call) ∧
        conn.carry rows now d c = (some (⟨c, (applyWrites ws d).matching rows c, now⟩ :: ws),
          d) := by
  obtain ⟨hopen, hcascades⟩ := h.asks hprogram
  have hchange : c ≠ .begin → c ≠ .commit → conn.carry rows now d c = conn.change rows now d c := by
    intro hbegin hcommit
    cases c with
    | begin => exact absurd rfl hbegin
    | commit => exact absurd rfl hcommit
    | _ => rfl
  by_cases hbegin : c = .begin
  · subst hbegin
    exact Or.inl ⟨rfl, rfl⟩
  by_cases hcommit : c = .commit
  · subst hcommit
    exact Or.inr (Or.inl ⟨rfl, rfl⟩)
  refine Or.inr (Or.inr ?_)
  rw [hchange hbegin hcommit, Connection.change, Connection.view]
  cases htx : conn.tx with
  | none =>
    refine Or.inl ⟨rfl, Bool.eq_false_iff.2 fun hc => ?_, rfl⟩
    have hsome := hopen hc
    rw [htx] at hsome
    cases hsome
  | some ws => exact Or.inr ⟨ws, rfl, hcascades ws htx hbegin hcommit, rfl⟩

/-- What a statement that is carried out leaves of the references. -/
theorem Connection.Keeps.carry_db (h : conn.Keeps d) (rows : List RowRef) (now : Instant)
    (hprogram : conn.program = .call c k) (hd : d.Intact)
    (hbinds : c = .commit → ∀ w ∈ conn.tx.getD [], ∀ f, w.binds? d = some f → d.NamesForm f) :
    (conn.carry rows now d c).2.Intact ∧
      d.Inherits (conn.carry rows now d c).2 (fun _ => False)
        (fun f => c = .commit ∧ ∃ w ∈ conn.tx.getD [], w.binds? d = some f) ∧
      ∀ u : Uuid, RowRef.form u ∉ conn.locks → d.NamesForm u.text →
        (conn.carry rows now d c).2.NamesForm u.text := by
  rcases h.carry_cases rows now hprogram with
    ⟨rfl, hcarry⟩ | ⟨rfl, hcarry⟩ | ⟨-, hc, hcarry⟩ | ⟨ws, -, -, hcarry⟩
  · rw [hcarry]
    exact ⟨hd, .of_eq rfl rfl, fun _ _ => id⟩
  · rw [hcarry, Connection.view]
    have hcascades : Cascades ((conn.tx.getD []).map Write.call) := by
      cases htx : conn.tx with
      | none => exact .nil
      | some ws => exact h.cascades ws htx
    have hfound : ∀ w ∈ conn.tx.getD [], d.Found w.rows w.call := by
      intro w hw
      cases htx : conn.tx with
      | none =>
        rw [htx] at hw
        exact absurd hw List.not_mem_nil
      | some ws =>
        rw [htx] at hw
        exact h.found w.call w.rows (mem_begun.2 ⟨ws, htx, Or.inr ⟨w, hw, rfl, rfl⟩⟩)
    refine ⟨hcascades.intact hd hfound (hbinds rfl),
      hcascades.inherits.mono (fun _ hf => hf) fun f hf => ⟨rfl, hf⟩,
      fun u hfree hu => namesForm_applyWrites hu fun w hw id guildId _ hrow htext => hfree ?_⟩
    obtain rfl := Uuid.text_injective htext
    exact List.mem_flatMap.2 ⟨w, hw, hrow⟩
  · rw [hcarry]
    have hinherits : d.Inherits (d.effectOn rows now c) (fun _ => False) fun _ => False := by
      refine Database.inherits_effectOn fun guildId roleId f grantOnAnySubmission conditions heq =>
        ?_
      rw [heq] at hc
      cases hc
    have hforms : ∀ f, d.NamesForm f → (d.effectOn rows now c).NamesForm f := by
      refine fun f hf => hf.effectOn fun id guildId heq => ?_
      rw [heq] at hc
      cases hc
    exact ⟨hd.inherit hinherits hforms (fun _ => False.elim) fun _ => False.elim,
      hinherits.mono (fun _ hf => hf) fun _ => False.elim, fun u _ => hforms u.text⟩
  · rw [hcarry]
    exact ⟨hd, .of_eq rfl rfl, fun _ _ => id⟩

/-- The request keeps to the protocol when its statement is carried out. -/
theorem Connection.Keeps.carry (h : conn.Keeps d) (hprogram : conn.program = .call c k)
    (hfound : conn.found = some rows) (r : Except AppError c.Answer) :
    Connection.Keeps (conn.carry rows now d c).2 ⟨k r, (conn.carry rows now d c).1, none⟩ := by
  obtain ⟨g, hfollows, htx⟩ := h.follows
  rw [hprogram] at hfollows
  obtain ⟨⟨-, hcalls⟩, hmoves⟩ := hfollows
  have hcarry : (g.after c).tx = (conn.carry rows now d c).1.map (·.map Write.call) := carry_tx htx
  -- the protocol goes on in the same way when the answer is lost
  refine ⟨⟨g.after c, hmoves r _ ?_, hcarry⟩, fun ws hws => ?_, fun c' rows' hmem => ?_⟩
  · cases r with
    | ok a => rfl
    | error e => exact Or.inr rfl
  · have hws : (conn.carry rows now d c).1 = some ws := hws
    rw [hws] at hcarry
    exact hcalls _ hcarry
  · obtain ⟨ws, hws, ⟨k', -, hnone⟩ | ⟨w, hw, rfl, rfl⟩⟩ := mem_begun.1 hmem
    · cases hnone
    have hws : (conn.carry rows now d c).1 = some ws := hws
    rcases h.carry_cases rows now hprogram with
      ⟨rfl, hcases⟩ | ⟨rfl, hcases⟩ | ⟨-, -, hcases⟩ | ⟨ws₀, hws₀, hcascades, hcases⟩
    · rw [hcases] at hws
      obtain rfl := Option.some.inj hws
      exact absurd hw List.not_mem_nil
    · rw [hcases] at hws
      cases hws
    · rw [hcases] at hws
      cases hws
    · rw [hcases] at hws ⊢
      obtain rfl := Option.some.inj hws
      rcases List.mem_cons.1 hw with rfl | hw
      · exact hcascades.found_matching
          (h.found c rows (mem_begun.2 ⟨ws₀, hws₀, Or.inl ⟨k, hprogram, hfound⟩⟩))
      · exact h.found w.call w.rows (mem_begun.2 ⟨ws₀, hws₀, Or.inr ⟨w, hw, rfl, rfl⟩⟩)

/-- The rows that the transaction holds afterwards were free for it. -/
theorem Connection.Keeps.carry_locks {held : RowRef → Bool} (h : conn.Keeps d)
    (hprogram : conn.program = .call c k) (hfree : rows.any held = false) {ref : RowRef}
    (href : ref ∈ ((conn.carry rows now d c).1.getD []).flatMap Write.rows) :
    ref ∈ conn.locks ∨ held ref = false := by
  rcases h.carry_cases rows now hprogram with
    ⟨rfl, hcarry⟩ | ⟨rfl, hcarry⟩ | ⟨-, -, hcarry⟩ | ⟨ws, hws, -, hcarry⟩
  · rw [hcarry] at href
    exact absurd href List.not_mem_nil
  · rw [hcarry] at href
    exact absurd href List.not_mem_nil
  · rw [hcarry] at href
    exact absurd href List.not_mem_nil
  · rw [hcarry, Option.getD_some, List.flatMap_cons] at href
    rcases List.mem_append.1 href with href | href
    · have hmem : ref ∈ rows := of_decide_eq_true (List.mem_filter.1 href).2
      exact Or.inr (Bool.eq_false_iff.2 (List.any_eq_false.1 hfree ref hmem))
    · rw [Connection.locks, hws]
      exact Or.inl href

private theorem Connection.commits_eq {outcome : Outcome} (hprogram : conn.program = .call c k)
    (hcarried : outcome.carried = true) (hc : c = .commit) :
    conn.commits outcome = conn.tx.getD [] := by
  subst hc
  rw [Connection.commits, hprogram]
  exact if_pos hcarried

/-- The end of a statement of a request. -/
theorem Connection.Keeps.finish {held : RowRef → Bool} {outcome : Outcome} (h : conn.Keeps d)
    (hd : d.Intact) (hbinds : ∀ w ∈ conn.commits outcome, ∀ f, w.binds? d = some f → d.NamesForm f)
    (hfinish : conn.finish held outcome now d = some (next, d')) :
    next.Keeps d' ∧ d'.Intact ∧
      d.Inherits d' (fun _ => False) (fun f => ∃ w ∈ conn.commits outcome, w.binds? d = some f) ∧
      (∀ u : Uuid, RowRef.form u ∉ conn.locks → d.NamesForm u.text → d'.NamesForm u.text) ∧
      ∀ ref ∈ next.locks, ref ∈ conn.locks ∨ held ref = false := by
  obtain ⟨c, k, rows, hprogram, hfound, hcases⟩ := Connection.finish_cases hfinish
  rcases hcases with ⟨-, ⟨e, rfl⟩, rfl⟩ | ⟨hfree, -, r, hr, rfl, rfl⟩
  · -- the transaction of a request that fails stays open until the request is done with
    refine ⟨⟨?_, h.cascades, fun c' rows' hmem => ?_⟩, hd, .of_eq rfl rfl, fun _ _ => id, fun _ =>
      Or.inl⟩
    · obtain ⟨g, hfollows, htx⟩ := h.follows
      rw [hprogram] at hfollows
      exact ⟨g, hfollows.2 _ _ (Or.inl rfl), htx⟩
    · obtain ⟨ws, hws, ⟨k', -, hnone⟩ | hdone⟩ := mem_begun.1 hmem
      · cases hnone
      · exact h.found c' rows' (mem_begun.2 ⟨ws, hws, Or.inr hdone⟩)
  · have hcarried : outcome.carried = true := by
      rcases hr with ⟨rfl, -⟩ | ⟨e, rfl, -⟩
      · rfl
      · rfl
    have hcommits := fun hc => Connection.commits_eq hprogram hcarried hc
    obtain ⟨hintact, hinherits, hforms⟩ :=
      h.carry_db rows now hprogram hd fun hc => hcommits hc ▸ hbinds
    refine ⟨h.carry hprogram hfound r, hintact, hinherits.mono (fun _ hf => hf) fun f hf => ?_,
      hforms,
      fun ref href => h.carry_locks hprogram hfree href⟩
    rw [hcommits hf.1]
    exact hf.2

end

/-! ### Runs of the service -/

/-- The invariant of the runs that nothing disturbs. -/
structure Service.Keeps (s : Service) : Prop where
  intact : s.db.Intact
  loaded : ∀ tx ∈ s.submits, ∀ form, tx.form? = some form →
    s.db.NamesForm form.id.text ∧ Service.heldBy s.requests (.form form.id) = false
  requests : ∀ task ∈ s.requests, task.conn.Keeps s.db

section

variable {libs : AdminLibs} {submitLibs : SubmitLibs} {s s' : Service} {d d' : Database}
  {conn : Connection Reply}
  {inserted bound : Text → Prop}

private theorem Connection.Keeps.inherit (h : conn.Keeps d) (hd : d.Inherits d' inserted bound)
    (hinserted : ∀ f, inserted f → ∀ b ∈ conn.begun, b.1.sweeps f = false)
    (hbound : ∀ f, bound f → ∀ b ∈ conn.begun, b.1.unbinds f = false) : conn.Keeps d' :=
  ⟨h.follows, h.cascades, fun c rows hmem =>
    (h.found c rows hmem).inherit hd (fun f hf => hinserted f hf _ hmem) fun f hf =>
      hbound f hf _ hmem⟩

private theorem begun_eq_false {p : AdminCall → Bool} (h : s.begun p = false) {task : AdminTask}
    (htask : task ∈ s.requests) :
    ∀ b ∈ task.conn.begun, p b.1 = false := by
  intro b hb
  have htask := List.any_eq_false.1 h task htask
  rw [Bool.not_eq_true] at htask
  exact Bool.eq_false_iff.2 (List.any_eq_false.1 htask b hb)

theorem heldBy_eq_false {requests : List AdminTask} {ref : RowRef} :
    Service.heldBy requests ref = false ↔ ∀ task ∈ requests, ref ∉ task.conn.locks := by
  simp [Service.heldBy]

private theorem inherits_link (c : LinkCall) :
    d.Inherits (d.link c) (fun _ => False) fun _ => False := by
  cases c with
  | register guildId roleId apiToken =>
    rw [Database.link]
    split
    · refine ⟨fun row hrow => Or.inl ⟨row, hrow, rfl, rfl⟩, fun link hlink f hf => Or.inl ?_⟩
      rcases List.mem_append.1 hlink with hlink | hlink
      · exact ⟨link, hlink, rfl, hf⟩
      · obtain rfl := List.mem_singleton.1 hlink
        cases hf
    · refine ⟨fun row hrow => Or.inl ⟨row, hrow, rfl, rfl⟩, fun link hlink f hf => Or.inl ?_⟩
      obtain ⟨link₀, hlink₀, rfl⟩ := Table.mem_update.1 hlink
      split at hf
      · rename_i hmatch
        rw [if_pos hmatch]
        exact ⟨link₀, hlink₀, rfl, hf⟩
      · rename_i hkept
        rw [if_neg hkept]
        exact ⟨link₀, hlink₀, rfl, hf⟩
  | insertSettings guildId =>
    rw [Database.link]
    split
    · exact .of_eq rfl rfl
    · exact .of_eq rfl rfl
  | deleteConfig guildId roleId apiToken =>
    exact ⟨fun row hrow => Or.inl ⟨row, hrow, rfl, rfl⟩,
      fun link hlink f hf => Or.inl ⟨link, (Table.mem_delete.1 hlink).1, rfl, hf⟩⟩
  | deleteOrphan guildId roleId =>
    exact ⟨fun row hrow => Or.inl ⟨row, hrow, rfl, rfl⟩,
      fun link hlink f hf => Or.inl ⟨link, (Table.mem_delete.1 hlink).1, rfl, hf⟩⟩

private theorem forms_link (c : LinkCall) : (d.link c).forms = d.forms := by
  cases c with
  | register guildId roleId apiToken =>
    rw [Database.link]
    split <;> rfl
  | insertSettings guildId =>
    rw [Database.link]
    split <;> rfl
  | _ => rfl

/-- A submit refers to the form that it has loaded, which no request deletes meanwhile. -/
theorem keeps_submit {e : SubmitEvent} {t : SubmitState} (h : s.Keeps) (hwaits : s.waits e = false)
    (hcalm : s.disturbs libs (.submit e) = false)
    (hstep : submitStep submitLibs s.submitState e = some t) :
    (s.withSubmitState t).Keeps := by
  have hforms : t.forms = s.db.forms := forms_of_submitStep hstep fun form heq => by
    rw [heq] at hwaits
    cases hwaits
  have hnames : ∀ f, s.db.NamesForm f → (s.withSubmitState t).db.NamesForm f := by
    rintro f ⟨form, hform, htext⟩
    exact ⟨form, (show form ∈ t.forms.rows from hforms ▸ hform), htext⟩
  -- a response is inserted for a form that is there, before the deletion of its responses has
  -- started
  let inserted (f : Text) : Prop := s.db.NamesForm f ∧ s.begun (·.sweeps f) = false
  have hinherits : s.db.Inherits (s.withSubmitState t).db inserted fun _ => False := by
    refine ⟨fun row hrow => ?_, fun link hlink f hf => Or.inl ⟨link, hlink, rfl, hf⟩⟩
    rcases mem_responses_of_submitStep hstep hrow with
      ⟨row₀, hrow₀, hid, hformId, -⟩ | ⟨i, pre, tx, post, form, rfl, hparty, hinserts, hformId, -⟩
    · exact Or.inl ⟨row₀, hrow₀, hid, hformId⟩
    · right
      rw [← hformId]
      refine ⟨(h.loaded tx (mem_of_partyAt hparty) form (tx.form?_of_inserts? hinserts)).1, ?_⟩
      have hparty : partyAt s.submits i = some (pre, tx, post) := hparty
      simp only [Service.disturbs, hparty, Option.any_some, hinserts] at hcalm
      exact hcalm
  refine ⟨h.intact.inherit hinherits hnames (fun f hf => hnames f hf.1) fun _ => False.elim, ?_,
    fun task htask => ?_⟩
  · refine loaded_of_submitStep (P := fun _ form =>
      (s.withSubmitState t).db.NamesForm form.id.text ∧
      Service.heldBy s.requests (.form form.id) = false) (fun i pre tx post form heq hparty hform =>
        ?_)
      (fun tx htx form hform => ?_) hstep
    · subst heq
      refine ⟨hnames _ ⟨form, List.mem_of_find?_eq_some hform, rfl⟩, ?_⟩
      have hparty : partyAt s.submits i = some (pre, tx, post) := hparty
      have hform : s.db.forms.rows.find? (·.slug = tx.submission.slug) = some form := hform
      simp only [Service.waits, hparty, Option.any_some, hform] at hwaits
      exact hwaits
    · obtain ⟨hnamed, hfree⟩ := h.loaded tx htx form hform
      exact ⟨hnames _ hnamed, hfree⟩
  · exact (h.requests task htask).inherit hinherits (fun f hf => begun_eq_false hf.2 htask) fun _ =>
      False.elim

/-- The end of a statement of a request, beside the submits and the other requests. -/
theorem keeps_finish {i : Nat} {outcome : Outcome} {now : Instant} {pre post : List AdminTask}
    {task : AdminTask} (h : s.Keeps) (hparty : partyAt s.requests i = some (pre, task, post))
    (hcalm : s.disturbs libs (.finish i outcome now) = false)
    (hfinish : task.conn.finish (s.held (pre ++ post)) outcome now s.db = some (conn, d')) :
    Service.Keeps { s with db := d', requests := pre ++ { task with conn := conn } :: post } := by
  have htask := h.requests task (mem_of_partyAt hparty)
  have hbinds : ∀ w ∈ task.conn.commits outcome, ∀ f, w.binds? s.db = some f →
      s.db.NamesForm f ∧ s.begun (·.unbinds f) = false := by
    intro w hw f hf
    rw [Service.disturbs, hparty, Option.any_some] at hcalm
    have hcalm := List.any_eq_false.1 hcalm w hw
    simpa [hf] using hcalm
  obtain ⟨hkeeps, hintact, hinherits, hforms, hlocks⟩ :=
    htask.finish h.intact (fun w hw f hf => (hbinds w hw f hf).1) hfinish
  refine ⟨hintact, fun tx htx form hform => ?_, fun task' htask' => ?_⟩
  · obtain ⟨hnamed, hfree⟩ := h.loaded tx htx form hform
    have hfree := heldBy_eq_false.1 hfree
    refine ⟨hforms form.id (hfree task (mem_of_partyAt hparty)) hnamed,
      heldBy_eq_false.2 fun task' htask' href => ?_⟩
    rcases mem_middle.1 htask' with rfl | htask'
    · rcases hlocks _ href with href | hheld
      · exact hfree task (mem_of_partyAt hparty) href
      · -- the submit holds the form
        rw [Service.held, Bool.or_eq_false_iff] at hheld
        exact List.any_eq_false.1 hheld.2 tx htx (decide_eq_true (tx.form_mem_locks hform))
    · exact hfree task' (mem_of_partyAt_others hparty htask') href
  · rcases mem_middle.1 htask' with rfl | htask'
    · exact hkeeps
    · refine (h.requests task' (mem_of_partyAt_others hparty htask')).inherit hinherits
        (fun _ => False.elim) fun f hf => ?_
      obtain ⟨w, hw, hf⟩ := hf
      exact begun_eq_false (hbinds w hw f hf).2 (mem_of_partyAt_others hparty htask')

private theorem keeps_step {e : ServiceEvent} (h : s.Keeps) (hcalm : s.disturbs libs e = false)
    (hstep : serviceStep libs submitLibs s e = some s') : s'.Keeps := by
  cases e with
  | submit e =>
    rw [serviceStep] at hstep
    split at hstep
    · cases hstep
    · rename_i hwaits
      obtain ⟨t, ht, rfl⟩ := Option.map_eq_some_iff.1 hstep
      exact keeps_submit h (Bool.eq_false_iff.2 hwaits) hcalm ht
  | request guildId req =>
    obtain rfl := Option.some.inj hstep
    have hspelled : ∀ formId, req = .deleteForm formId → ∀ u, libs.parseUuid formId = some u →
        formId = u.text := by
      rintro formId rfl u hu
      rw [Service.disturbs, hu, Option.any_some] at hcalm
      exact not_not.1 (of_decide_eq_false hcalm)
    refine ⟨h.intact, fun tx htx form hform => ?_, fun task htask => ?_⟩
    · obtain ⟨hnamed, hfree⟩ := h.loaded tx htx form hform
      refine ⟨hnamed, heldBy_eq_false.2 fun task htask => ?_⟩
      rcases List.mem_cons.1 htask with rfl | htask
      · exact List.not_mem_nil
      · exact heldBy_eq_false.1 hfree task htask
    · rcases List.mem_cons.1 htask with rfl | htask
      · -- a new request has no transaction yet
        refine ⟨⟨{}, program_keepsCascade hspelled, rfl⟩, fun ws hws => ?_, fun c rows hmem => ?_⟩
        · cases hws
        · exact absurd hmem List.not_mem_nil
      · exact h.requests task htask
  | start i =>
    simp only [serviceStep, Option.bind_eq_some_iff, Option.map_eq_some_iff] at hstep
    obtain ⟨⟨pre, task, post⟩, hparty, conn, hstart, rfl⟩ := hstep
    have hlocks : conn.locks = task.conn.locks := by
      obtain ⟨c, k, -, -, rfl⟩ := Connection.start_eq_some hstart
      rfl
    refine ⟨h.intact, fun tx htx form hform => ?_, fun task' htask' => ?_⟩
    · obtain ⟨hnamed, hfree⟩ := h.loaded tx htx form hform
      refine ⟨hnamed, heldBy_eq_false.2 fun task' htask' => ?_⟩
      rcases mem_middle.1 htask' with rfl | htask'
      · change RowRef.form form.id ∉ conn.locks
        rw [hlocks]
        exact heldBy_eq_false.1 hfree task (mem_of_partyAt hparty)
      · exact heldBy_eq_false.1 hfree task' (mem_of_partyAt_others hparty htask')
    · rcases mem_middle.1 htask' with rfl | htask'
      · exact (h.requests task (mem_of_partyAt hparty)).start hstart
      · exact h.requests task' (mem_of_partyAt_others hparty htask')
  | finish i outcome now =>
    simp only [serviceStep, Option.bind_eq_some_iff, Option.ite_none_left_eq_some,
      Option.map_eq_some_iff] at hstep
    obtain ⟨⟨pre, task, post⟩, hparty, -, ⟨conn, d'⟩, hfinish, rfl⟩ := hstep
    obtain ⟨hintact, hloaded, hrequests⟩ := keeps_finish h hparty hcalm hfinish
    exact ⟨hintact, hloaded, hrequests⟩
  | close i =>
    simp only [serviceStep, Option.map_eq_some_iff] at hstep
    obtain ⟨⟨pre, task, post⟩, hparty, rfl⟩ := hstep
    refine ⟨h.intact, fun tx htx form hform => ?_, fun task' htask' =>
      h.requests task' (mem_of_partyAt_others hparty htask')⟩
    obtain ⟨hnamed, hfree⟩ := h.loaded tx htx form hform
    exact ⟨hnamed, heldBy_eq_false.2 fun task' htask' =>
      heldBy_eq_false.1 hfree task' (mem_of_partyAt_others hparty htask')⟩
  | link c =>
    simp only [serviceStep] at hstep
    split at hstep
    · cases hstep
    · obtain rfl := Option.some.inj hstep
      have hnames : ∀ f, s.db.NamesForm f → (s.db.link c).NamesForm f := by
        rintro f ⟨form, hform, htext⟩
        exact ⟨form, (forms_link c).symm ▸ hform, htext⟩
      refine ⟨h.intact.inherit (inherits_link c) hnames (fun _ => False.elim) fun _ => False.elim,
        fun tx htx form hform => ?_, fun task htask => ?_⟩
      · obtain ⟨hnamed, hfree⟩ := h.loaded tx htx form hform
        exact ⟨hnames _ hnamed, hfree⟩
      · exact (h.requests task htask).inherit (inherits_link c) (fun _ => False.elim) fun _ =>
          False.elim

/-- In a run without the overlaps no reference dangles: what responses and links refer to is a form
that is there. -/
theorem references_kept {t : Service} {es : List ServiceEvent} (hquiet : s.Quiet) (hs : s.db.Intact)
    (hrun : (serviceSystem libs submitLibs).Run (fun s e _ => s.disturbs libs e = false) s es t) :
    t.db.Intact := by
  refine (hrun.invariant (P := Service.Keeps) (fun _ _ _ h hcalm hstep => keeps_step h hcalm hstep)
    ⟨hs, fun tx htx => ?_, fun task htask => ?_⟩).intact
  · rw [hquiet.1] at htx
    exact absurd htx List.not_mem_nil
  · rw [hquiet.2] at htask
    exact absurd htask List.not_mem_nil

end

/-! ### A submit beside a deletion -/

/-- A submit of the small guild's form, up to its `COMMIT`. -/
def lateSubmit : List ServiceEvent :=
  [.begin { quizAnswers 1 with slug := ['s'] } 1, .advance 0 .load, .advance 0 (.vet 1 1 (.ok [])),
    .advance 0 .lock,
    .advance 0 (.read none), .advance 0 (.write 2 1)].map .submit

/-- The next statements of a request. -/
def stepsOf (i n : Nat) : List ServiceEvent :=
  (List.replicate n [.start i, .finish i .done 2]).flatten

/-- The deletion of the form, with the `COMMIT` of the submit after this many of its eight
statements. -/
def deleteAround (n : Nat) : List ServiceEvent :=
  lateSubmit ++ .request ['g'] (.deleteForm surveyId.text) :: stepsOf 0 n ++ .submit (.commit 0) ::
    stepsOf 0 (8 - n) ++
    [.close 0]

private theorem surveyDatabase_intact : surveyDatabase.Intact := by
  rintro f (⟨row, hrow, rfl⟩ | ⟨link, hlink, hf⟩)
  · obtain rfl := List.mem_singleton.1 hrow
    exact ⟨_, List.mem_singleton_self _, rfl⟩
  · obtain rfl := List.mem_singleton.1 hlink
    exact ⟨_, List.mem_singleton_self _, Option.some.inj hf⟩

/-- The submit commits while the responses are still to be deleted. -/
theorem references_kept_deletion :
    ∃ t, (serviceSystem plainAdminLibs quizLibs).exec (quietService surveyDatabase)
    (deleteAround 4) = some t ∧
      t.db.forms.rows = [] ∧ t.db.Intact := by
  have hchecked : ((serviceSystem plainAdminLibs quizLibs).check
    (fun s e _ => !s.disturbs plainAdminLibs e)
      (quietService surveyDatabase) (deleteAround 4)).any (fun t => t.db.forms.rows.isEmpty) =
        true := by decide +kernel
  obtain ⟨t, ht, hforms⟩ := (Option.any_eq_true _ _).1 hchecked
  have hrun := (System.Run.of_check ht).mono (D := fun s e _ => s.disturbs plainAdminLibs e = false)
    fun s e s' h => Bool.not_eq_true' _ ▸ h
  exact ⟨t, hrun.exec_eq, List.isEmpty_iff.1 hforms,
    references_kept ⟨rfl, rfl⟩ surveyDatabase_intact hrun⟩

/-- The only request is a deletion of the form under its canonical id. -/
def ServiceEvent.deletesSurvey : ServiceEvent → Bool
  | request _ (.deleteForm formId) => formId = surveyId.text
  | request .. => false
  | _ => true

private theorem canonical_of_deletesSurvey {e : ServiceEvent} (h : e.deletesSurvey = true) :
    e.Canonical plainAdminLibs := by
  unfold ServiceEvent.deletesSurvey at h
  split at h
  · rw [of_decide_eq_true h]
    exact deleteSurvey_canonical
  · cases h
  · rename_i hno
    cases e with
    | request guildId req => exact absurd rfl (hno guildId req)
    | _ => trivial

/-- The submit commits once they are deleted, and before the form is. -/
theorem references_not_kept :
    ¬∀ (libs : AdminLibs) (submitLibs : SubmitLibs) (s t : Service) (es : List ServiceEvent),
      s.Quiet → s.db.Intact →
      (serviceSystem libs submitLibs).Run (fun _ e _ => e.Canonical libs) s es t → t.Quiet →
        t.db.Intact := by
  intro h
  have hchecked : ((serviceSystem plainAdminLibs quizLibs).check (fun _ e _ => e.deletesSurvey)
    (quietService surveyDatabase)
      (deleteAround 5)).any
        (fun t => t.submits.isEmpty && t.requests.isEmpty && t.db.forms.rows.isEmpty &&
          t.db.responses.rows.any fun row => row.formId = surveyId.text) = true := by decide +kernel
  obtain ⟨t, ht, hlast⟩ := (Option.any_eq_true _ _).1 hchecked
  simp only [Bool.and_eq_true, List.isEmpty_iff, List.any_eq_true, decide_eq_true_eq] at hlast
  obtain ⟨⟨⟨hsubmits, hrequests⟩, hforms⟩, row, hrow, hformId⟩ := hlast
  have hrun := (System.Run.of_check ht).mono (D := fun _ e _ => e.Canonical plainAdminLibs)
    fun _ e _ he => canonical_of_deletesSurvey he
  obtain ⟨form, hform, -⟩ :=
    h plainAdminLibs quizLibs _ t _ ⟨rfl, rfl⟩ surveyDatabase_intact hrun ⟨hsubmits, hrequests⟩ _
    (Or.inl ⟨row, hrow, hformId⟩)
  rw [hforms] at hform
  exact absurd hform List.not_mem_nil

end FormRespondentRole
