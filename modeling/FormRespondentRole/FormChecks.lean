import FormRespondentRole.BuilderTabs
import FormRespondentRole.FormValidation
import FormRespondentRole.QuizScore
import FormRespondentRole.RoleConfigHandlers
import FormRespondentRole.StarterTemplates
import FormRespondentRole.Webhook

/-!
# Checks of the admin API

`ServiceLibs` is what the service calls outside the repository; the reading of schemas, their checks
and the checks of URLs are the repository's own.  What passes the checks of a save is sound
(`checkUpdate_sound`), and so is a form that starts from a template (`freshForm_sound`).  What does
not pass is a bad request, and never an internal error.
-/

namespace FormRespondentRole

open Foundations

/-! ### The service as it is -/

/-- What the service calls outside the repository. -/
structure ServiceLibs where
  libs : Libs
  web : WebLibs
  parseUuid : Text → Option Uuid
  toRfc3339 : Instant → Text
  displayF64 : F64 → Text
  toLowercase : Text → Text
  /-- The message about a value that is not a schema. -/
  serdeError : Value → Text
  hashtextextended : Text → BitVec 64
  baseUrl : Text

namespace ServiceLibs

variable (x : ServiceLibs)

def schemaFromValue (v : Value) : Except Text FormSchema :=
  match FormSchema.fromValue v with
  | some schema => .ok schema
  | none => .error (x.serdeError v)

def admin : AdminLibs where
  libs := x.libs
  parseUuid := x.parseUuid
  toRfc3339 := x.toRfc3339
  schemaFromValue := x.schemaFromValue
  sanityCheck := FormRespondentRole.sanityCheck
  validateQuizKeys := FormRespondentRole.validateQuizKeys x.libs.floatText
  isSafeUrl := isSafeUrl x.web
  starterBlank := Admin.starterBlank
  starterApplication := Admin.starterApplication
  starterServerQuiz := Admin.starterServerQuiz

def validator : FormValidator where
  Schema := FormSchema
  fromValue := x.schemaFromValue
  validate := Validation.validate x.libs x.displayF64
  computeQuizScore := Quiz.computeQuizScore x.libs.floatText x.toLowercase

def submit : SubmitLibs where
  validator := x.validator
  hashtextextended := x.hashtextextended
  toRfc3339 := x.toRfc3339
  baseUrl := x.baseUrl

end ServiceLibs

/-! ### What has been checked -/

/-- What the columns of a stored form have passed. -/
structure FormEdit.Sound (x : ServiceLibs) (edit : FormEdit) : Prop where
  schema : ∃ schema, FormSchema.fromValue edit.schema = some schema ∧ schema.SaneUntitled ∧
    (edit.isQuiz = true → FormRespondentRole.validateQuizKeys x.libs.floatText schema = .ok ())
  quiz : edit.isQuiz = true → edit.singleSubmission = true ∧ edit.allowEdits = false
  passingScore : ∀ score, edit.passingScore = some score → edit.isQuiz = true ∧ 0 ≤ score ∧
    score ≤ 1000000
  minAccountAge : 0 ≤ edit.minAccountAgeDays ∧ edit.minAccountAgeDays ≤ 3650
  maxAttempts : 0 ≤ edit.maxAttempts ∧ edit.maxAttempts ≤ Admin.maxRetryAttempts
  cooldown : 0 ≤ edit.retryCooldownSeconds ∧ edit.retryCooldownSeconds ≤
    Admin.maxRetryCooldownSeconds
  policy : edit.retryPolicy = "keep_best".toList ∨ edit.retryPolicy = "keep_latest".toList
  webhook : ∀ url, edit.webhookUrl = some url → url ≠ [] ∧ isSafeUrl x.web url = true

def Form.Sound (x : ServiceLibs) (form : Form) : Prop := form.content.Sound x

section

open Admin

variable {x : ServiceLibs} {form : Form} {guildId : Text}

private theorem of_bind_ok {ε α β : Type} {p : Except ε α} {f : α → Except ε β} {b : β}
    (h : (p >>= f) = .ok b) :
    ∃ a, p = .ok a ∧ f a = .ok b := by
  cases p with
  | error e => cases h
  | ok a => exact ⟨a, rfl, h⟩

private theorem of_requireThat {p : Prop} [Decidable p] {msg : Text} {u : Unit}
    (h : requireThat p msg = .ok u) : p := by
  rw [requireThat] at h
  split at h
  · assumption
  · cases h

private theorem of_joined {check : Except (List Text) Unit} {u : Unit} (h : joined check = .ok u) :
    check = .ok () := by
  cases check with
  | error e => cases h
  | ok u => rfl

theorem schemaFromValue_ok {v : Value} {schema : FormSchema}
    (h : FormSchema.fromValue v = some schema) :
    x.schemaFromValue v = .ok schema := by
  rw [ServiceLibs.schemaFromValue, h]

private theorem schemaFromValue_eq_ok {v : Value} {schema : FormSchema}
    (h : x.schemaFromValue v = .ok schema) :
    FormSchema.fromValue v = some schema := by
  rw [ServiceLibs.schemaFromValue] at h
  split at h
  · rename_i hsome
    rw [hsome, Except.ok.inj h]
  · cases h

private theorem of_intWithin {v : Value} {score : Int32} (h : intWithin 0 1000000 v = some score) :
    0 ≤ score ∧ score ≤ 1000000 := by
  cases v with
  | number n =>
    obtain ⟨i, hi, rfl⟩ := Option.map_eq_some_iff.1 h
    obtain ⟨-, hbounds⟩ := Option.filter_eq_some_iff.1 hi
    have hbounds := of_decide_eq_true hbounds
    have hint : (Int32.ofInt i).toInt = i := Int32.toInt_ofInt_of_le (by omega) (by omega)
    have hmax : (1000000 : Int32).toInt = 1000000 := by decide
    rw [Int32.le_iff_toInt_le, Int32.le_iff_toInt_le, hint, Int32.toInt_zero, hmax]
    exact hbounds
  | _ => cases h

/-- What a save writes has been checked. -/
theorem checkUpdate_sound {body : UpdateBody} {edit : FormEdit} {parsed : FormSchema}
    (h : checkUpdate x.admin body = .ok (edit, parsed)) : edit.Sound x := by
  rw [checkUpdate] at h
  obtain ⟨schema, hschema, h⟩ := of_bind_ok h
  obtain ⟨u, hsane, h⟩ := of_bind_ok h
  extract_lets saved jp at h
  have hkeys : body.isQuiz = true → validateQuizKeys x.libs.floatText schema = .ok () := by
    intro hquiz
    rw [if_pos hquiz] at h
    obtain ⟨u, hkeys, -⟩ := of_bind_ok h
    exact of_joined hkeys
  have h : jp () = .ok (edit, parsed) := by
    split at h
    · obtain ⟨u, -, h⟩ := of_bind_ok h
      exact h
    · exact h
  obtain ⟨u, hage, h⟩ := of_bind_ok h
  obtain ⟨u, hscore, h⟩ := of_bind_ok h
  obtain ⟨u, hwebhook, h⟩ := of_bind_ok h
  obtain ⟨u, hattempts, h⟩ := of_bind_ok h
  obtain ⟨u, hcooldown, h⟩ := of_bind_ok h
  obtain ⟨u, hpolicy, h⟩ := of_bind_ok h
  obtain ⟨rfl, rfl⟩ := Prod.mk.inj (Except.ok.inj h)
  have hreads : FormSchema.fromValue body.schemaValue = some schema := by
    cases hread : x.schemaFromValue body.schemaValue with
    | error e =>
      rw [show x.admin.schemaFromValue body.schemaValue = .error e from hread] at hschema
      cases hschema
    | ok read =>
      rw [show x.admin.schemaFromValue body.schemaValue = .ok read from hread] at hschema
      rw [← Except.ok.inj hschema]
      exact schemaFromValue_eq_ok hread
  refine ⟨⟨schema, hreads, (sanityCheck_eq_ok_iff.1 (of_joined hsane)).saneUntitled, hkeys⟩,
    fun hquiz => ?_, fun score hsome => ?_,
    of_requireThat hage, of_requireThat hattempts, of_requireThat hcooldown, of_requireThat hpolicy,
      fun url hsome => ?_⟩
  · -- a quiz keeps one response, and is not edited, whatever the client sent
    have hquiz : body.isQuiz = true := hquiz
    simp [saved, hquiz]
  · have hsome : (if body.isQuiz = true then body.passingScore else none) = some score := hsome
    obtain ⟨hquiz, hsome⟩ := Option.ite_none_right_eq_some.1 hsome
    have hbounds := of_requireThat hscore
    rw [hsome, Option.all_some] at hbounds
    exact ⟨hquiz, of_decide_eq_true hbounds⟩
  · have hsome : body.webhookUrl.filter (· ≠ []) = some url := hsome
    obtain ⟨hsome, hne⟩ := Option.filter_eq_some_iff.1 hsome
    have hsafe := of_requireThat hwebhook
    rw [hsome, Option.all_some] at hsafe
    have hne : url ≠ [] := of_decide_eq_true hne
    exact ⟨hne, (of_decide_eq_true hsafe).resolve_left hne⟩

private theorem templateSchema_isStarter {name : Text} {template : Value}
    (h : templateSchema x.admin name = .ok template) :
    IsStarter x.libs.floatText template := by
  rw [templateSchema] at h
  split at h
  · exact Except.ok.inj h ▸ starterApplication_isStarter
  · split at h
    · exact Except.ok.inj h ▸ starterServerQuiz_isStarter
    · split at h
      · exact Except.ok.inj h ▸ starterBlank_isStarter
      · cases h

/-- A fresh form comes from a starter template. -/
theorem freshForm_sound {draws : Draws} {templateName : Text} {title : Option Text}
    (h : freshForm x.admin guildId draws templateName title = .ok form) : form.Sound x := by
  rw [freshForm] at h
  obtain ⟨template, htemplate, h⟩ := of_bind_ok h
  obtain ⟨schema, hreads, hsane, hkeys⟩ := (templateSchema_isStarter htemplate).stored title
  obtain ⟨parsed, hparsed, h⟩ := of_bind_ok h
  obtain rfl := Except.ok.inj h
  refine ⟨⟨schema, hreads, hsane, fun _ => hkeys⟩, fun _ => ⟨rfl, rfl⟩, fun score hscore => ?_,
    (by decide : (0 : Int32) ≤ 0 ∧ (0 : Int32) ≤ 3650),
      (by decide : (0 : Int32) ≤ 1 ∧ 1 ≤ maxRetryAttempts),
    (by decide : (0 : Int32) ≤ 0 ∧ 0 ≤ maxRetryCooldownSeconds), Or.inl rfl, fun url hurl =>
      by cases hurl⟩
  obtain ⟨hquiz, hscore⟩ := Option.ite_none_right_eq_some.1 hscore
  obtain ⟨v, -, hwithin⟩ := Option.bind_eq_some_iff.1 hscore
  exact ⟨hquiz, of_intWithin hwithin⟩

/-! ### What is rejected -/

/-- Whatever fails is the client's fault. -/
def RejectsOnly {α : Type} (p : Except AppError α) : Prop :=
  ∀ e, p = .error e → ∃ msg, e = .badRequest msg

section

variable {α β : Type} {p : Except AppError α}

theorem rejectsOnly_ok (a : α) : RejectsOnly (.ok a : Except AppError α) := fun _ h => by cases h

private theorem rejectsOnly_badRequest (msg : Text) :
    RejectsOnly (.error (.badRequest msg) : Except AppError α) :=
  fun _ h => ⟨msg, (Except.error.inj h).symm⟩

theorem RejectsOnly.bind {f : α → Except AppError β} (hp : RejectsOnly p)
    (hf : ∀ a, RejectsOnly (f a)) : RejectsOnly (p >>= f) := by
  cases p with
  | error e => exact fun e' h => hp e' (congrArg Except.error (Except.error.inj h))
  | ok a => exact hf a

private theorem RejectsOnly.ite {q : Except AppError α} {c : Prop} [Decidable c]
    (hp : RejectsOnly p) (hq : RejectsOnly q) :
    RejectsOnly (if c then p else q) := by
  split
  · exact hp
  · exact hq

private theorem requireThat_rejects {c : Prop} [Decidable c] (msg : Text) :
    RejectsOnly (requireThat c msg) :=
  (rejectsOnly_ok ()).ite (rejectsOnly_badRequest msg)

private theorem joined_rejects (check : Except (List Text) Unit) : RejectsOnly (joined check) := by
  cases check with
  | error errs => exact rejectsOnly_badRequest _
  | ok u => exact rejectsOnly_ok u

theorem checkUpdate_rejects (libs : AdminLibs) (body : UpdateBody) :
    RejectsOnly (checkUpdate libs body) := by
  have hschema : RejectsOnly ((libs.schemaFromValue body.schemaValue).mapError fun e =>
      AppError.badRequest ("Schema is not a valid form definition: ".toList ++ e)) := by
    cases libs.schemaFromValue body.schemaValue with
    | error e => exact rejectsOnly_badRequest _
    | ok schema => exact rejectsOnly_ok schema
  refine hschema.bind fun schema => (joined_rejects _).bind fun _ => ?_
  extract_lets saved jp
  have hrest : ∀ u, RejectsOnly (jp u) := by
    intro u
    refine (requireThat_rejects _).bind fun _ => (requireThat_rejects _).bind fun _ =>
      (requireThat_rejects _).bind fun _ => ?_
    refine (requireThat_rejects _).bind fun _ => (requireThat_rejects _).bind fun _ =>
      (requireThat_rejects _).bind fun _ => ?_
    exact rejectsOnly_ok _
  split
  · exact (joined_rejects _).bind hrest
  · exact hrest ()

private theorem normalizeConditionValue_rejects (libs : Libs) (op : ConditionOperator) (raw : Value)
    (n : Nat) :
    RejectsOnly (normalizeConditionValue libs op raw n) := by
  cases op with
  | gt | gte | lt | lte | between =>
    unfold normalizeConditionValue
    dsimp only
    split
    · exact rejectsOnly_ok _
    · exact rejectsOnly_badRequest _
  | in' | containsAll | containsAny | notContains =>
    exact (rejectsOnly_badRequest _).ite (rejectsOnly_ok _)
  | before | after => exact (rejectsOnly_badRequest _).ite (rejectsOnly_ok _)
  | eq | neq | contains | regex =>
    unfold normalizeConditionValue
    dsimp only
    split
    · exact (rejectsOnly_badRequest _).ite (rejectsOnly_ok _)
    · exact rejectsOnly_ok _
    · exact rejectsOnly_badRequest _
    · exact rejectsOnly_ok _

private theorem conditionTarget_rejects (n : Nat) (target : Text) (op : ConditionOperator)
    (boundForm : Option FormSchema) (formIsQuiz : Bool) :
    RejectsOnly (conditionTarget n target op boundForm formIsQuiz) := by
  unfold conditionTarget
  refine RejectsOnly.ite ?_ ?_
  · exact (rejectsOnly_badRequest _).ite ((rejectsOnly_badRequest _).ite (rejectsOnly_ok _))
  · split
    · split
      · exact rejectsOnly_badRequest _
      · exact (rejectsOnly_badRequest _).ite (rejectsOnly_ok _)
    · exact rejectsOnly_ok _

private theorem conditionEnd_rejects (libs : Libs) (op : ConditionOperator) (raw : Option Value)
    (n : Nat) :
    RejectsOnly (conditionEnd libs op raw n) := by
  unfold conditionEnd
  split
  · exact (normalizeConditionValue_rejects libs _ _ n).bind fun v => rejectsOnly_ok (some v)
  · exact rejectsOnly_badRequest _
  · exact rejectsOnly_ok _

private theorem validateCondition_rejects (libs : Libs) (i : Nat) (raw : ConditionInput)
    (boundForm : Option FormSchema) (formIsQuiz : Bool) :
    RejectsOnly (validateCondition libs i raw boundForm formIsQuiz) := by
  unfold validateCondition
  extract_lets n target jp
  have hrest : RejectsOnly (jp ()) := by
    dsimp only [jp]
    split
    · refine (conditionTarget_rejects _ _ _ _ _).bind fun _ =>
        (normalizeConditionValue_rejects _ _ _ _).bind fun _ => ?_
      refine (conditionEnd_rejects _ _ _ _).bind fun _ => RejectsOnly.ite ?_ (rejectsOnly_ok _)
      exact (rejectsOnly_badRequest _).bind fun _ => rejectsOnly_ok _
    · exact rejectsOnly_badRequest _
  exact RejectsOnly.ite ((rejectsOnly_badRequest _).bind fun _ => hrest) hrest

private theorem validateConditions_rejects (libs : Libs) (boundForm : Option FormSchema)
    (formIsQuiz : Bool) (i : Nat) (raws : List ConditionInput) :
    RejectsOnly (validateConditions libs boundForm formIsQuiz i raws) := by
  induction raws generalizing i with
  | nil => exact rejectsOnly_ok _
  | cons raw raws ih =>
    exact (validateCondition_rejects _ _ _ _ _).bind fun c => (ih (i + 1)).bind fun cs =>
      rejectsOnly_ok _

theorem parseRoleConfig_rejects (libs : Libs) (body : RoleConfigBody)
    (boundForm : Option FormSchema) (formIsQuiz : Bool) :
    RejectsOnly (parseRoleConfig libs body boundForm formIsQuiz) := by
  have hmode : RejectsOnly (parseMode body.mode) :=
    (rejectsOnly_ok _).ite ((rejectsOnly_ok _).ite (rejectsOnly_badRequest _))
  have hview : RejectsOnly (parseViewPermission body.viewPermission) := by
    cases body.viewPermission with
    | none => exact rejectsOnly_ok _
    | some vp => exact (rejectsOnly_ok _).ite ((rejectsOnly_ok _).ite (rejectsOnly_badRequest _))
  refine hmode.bind fun grantOnAnySubmission => hview.bind fun _ => RejectsOnly.bind ?_ fun _ =>
    rejectsOnly_ok _
  refine (rejectsOnly_ok _).ite ((rejectsOnly_badRequest _).ite ((rejectsOnly_badRequest _).ite ?_))
  exact validateConditions_rejects _ _ _ _ _

private theorem templateSchema_rejects (libs : AdminLibs) (name : Text) :
    RejectsOnly (templateSchema libs name) :=
  (rejectsOnly_ok _).ite
    ((rejectsOnly_ok _).ite ((rejectsOnly_ok _).ite (rejectsOnly_badRequest _)))

private theorem rejectsOnly_of_read {v : Except Text FormSchema} {schema : FormSchema}
    {f : Text → AppError} {g : FormSchema → α} {e : AppError} (hread : v = .ok schema)
    (he : (do let parsed ← v.mapError f; return g parsed) = Except.error e) :
    ∃ msg, e = .badRequest msg := by
  rw [hread] at he
  cases he

/-- A starter template always reads. -/
theorem freshForm_rejects {draws : Draws} {templateName : Text} {title : Option Text} :
    RejectsOnly (freshForm x.admin guildId draws templateName title) := by
  rw [freshForm]
  intro e he
  cases htemplate : templateSchema x.admin templateName with
  | error e' =>
    rw [htemplate] at he
    exact templateSchema_rejects _ _ e
      (htemplate.trans (congrArg Except.error (Except.error.inj he)))
  | ok template =>
    obtain ⟨schema, hreads, -⟩ := (templateSchema_isStarter htemplate).stored title
    rw [htemplate] at he
    have hread : x.admin.schemaFromValue _ = .ok schema := schemaFromValue_ok hreads
    cases title <;> exact rejectsOnly_of_read hread he

end

end

end FormRespondentRole
