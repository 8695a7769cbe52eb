import FormRespondentRole.AdminHandlers
import FormRespondentRole.SchemaChecks
import FormRespondentRole.SchemaReading

/-!
# Starter templates

The three schemas that a form may start from.  Each is a schema that a save would accept, under any
title that is set in it, and the keys of the quiz are accepted.
-/

namespace FormRespondentRole

open Foundations

namespace Admin

/-! ### The templates -/

def settingsEntry (submitLabel : String) : String × Value :=
  ("settings", json [("submit_label", .str submitLabel), ("show_progress_bar", .bool true),
    ("shuffle_questions", .bool false)])

def optionsEntry (options : List (String × String)) : String × Value :=
  ("options", .array (options.map fun o => json [("id", .str o.1), ("label", .str o.2)]))

def starterBlank : Value :=
  json [("title", .str "Untitled form"), ("description", .str ""), settingsEntry "Submit",
    ("pages", .array [json [("id", .str "p1"), ("title", .str "Page 1"), ("description", .str ""),
      ("questions", .array [])]])]

def starterApplication : Value :=
  json [("title", .str "Server Application"),
    ("description", .str "Tell us a bit about yourself before we approve your access."),
      settingsEntry "Submit application",
    ("pages", .array [json [("id", .str "p1"), ("title", .str "About you"),
      ("description", .str ""), ("questions", .array [
      json [("id", .str "q_age"), ("kind", .str "number"), ("title", .str "How old are you?"),
        ("required", .bool true),
        ("min", jsonNat 13), ("max", jsonNat 120)],
      json [("id", .str "q_region"), ("kind", .str "single_choice"),
        ("title", .str "What region are you in?"),
        ("required", .bool true),
        optionsEntry [("na", "North America"), ("eu", "Europe"), ("asia", "Asia"),
          ("other", "Other")]],
      json [("id", .str "q_referral"), ("kind", .str "short_text"),
        ("title", .str "How did you hear about us?"),
        ("required", .bool false), ("max_length", jsonNat 200)],
      json [("id", .str "q_why"), ("kind", .str "long_text"),
        ("title", .str "Why do you want to join?"),
        ("description", .str "A sentence or two is plenty."), ("required", .bool true),
          ("max_length", jsonNat 1000)],
      json [("id", .str "q_rules"), ("kind", .str "agreement"),
        ("title", .str "I have read and agree to the server rules."),
        ("required", .bool true)]])]])]

def starterServerQuiz : Value :=
  json [("title", .str "Server Rules Quiz"),
    ("description", .str "A quick check that you've read the rules. Answer 4 of 4 correctly to pass."),
    ("passing_score", jsonNat 80), settingsEntry "Submit answers",
    ("pages", .array [json [("id", .str "p1"), ("title", .str "Rules quiz"),
      ("description", .str "Replace these example questions with your own server rules."),
        ("questions", .array [
      json [("id", .str "q1"), ("kind", .str "single_choice"),
        ("title", .str "What channel is for off-topic chat?"),
        ("required", .bool true),
          optionsEntry [("general", "#general"), ("lounge", "#lounge"), ("memes", "#memes")],
        ("correct", .str "lounge"), ("points", jsonNat 25)],
      json [("id", .str "q2"), ("kind", .str "single_choice"),
        ("title", .str "Are NSFW links allowed in any public channel?"), ("required", .bool true),
        optionsEntry [("yes", "Yes, anywhere"), ("no", "No, never"),
          ("sometimes", "Only in #nsfw")],
        ("correct", .str "no"), ("points", jsonNat 25)],
      json [("id", .str "q3"), ("kind", .str "multi_choice"),
        ("title", .str "Which of these are bannable on first offense? (Select all)"),
          ("required", .bool true),
        optionsEntry [("spam", "Spamming"), ("doxx", "Doxxing another member"),
          ("swear", "Mild swearing"),
          ("hate", "Hate speech")],
        ("correct", .array [.str "doxx", .str "hate"]), ("points", jsonNat 25)],
      json [("id", .str "q4"), ("kind", .str "short_text"),
        ("title", .str "Who do you DM if you spot a rule violation? (One handle, no @)"),
          ("required", .bool true),
        ("max_length", jsonNat 60), ("correct", .str "modteam"), ("points", jsonNat 25)],
      json [("id", .str "q_agree"), ("kind", .str "agreement"),
        ("title", .str "I commit to following these rules."),
        ("required", .bool true)]])]])]

end Admin

/-! ### What they read as -/

/-- A schema that a save would accept under another title. -/
def FormSchema.SaneUntitled (schema : FormSchema) : Prop :=
  ∃ title, ({ schema with title := title } : FormSchema).Sane

/-- An object that reads as a schema which a save would accept, with accepted keys, but for its
title. -/
structure IsStarter (floatText : F64 → Text) (template : Value) : Prop where
  isObject : ∃ fields, template = .object fields
  reads : ∃ schema, FormSchema.fromValue template = some schema ∧ schema.SaneUntitled ∧
    validateQuizKeys floatText schema = .ok ()

section

variable {floatText : F64 → Text} {template : Value}

open Admin

theorem FormSchema.Sane.saneUntitled {schema : FormSchema} (h : schema.Sane) :
    schema.SaneUntitled := ⟨schema.title, h⟩

private theorem IsStarter.of_checked {fields : List (Text × Value)} {schema : FormSchema}
    (hfields : template = .object fields) (hreads : FormSchema.fromValue template = some schema)
    (hsane : sanityCheck schema = .ok ()) (hkeys : validateQuizKeys floatText schema = .ok ()) :
    IsStarter floatText template :=
  ⟨⟨fields, hfields⟩, schema, hreads, (sanityCheck_eq_ok_iff.1 hsane).saneUntitled, hkeys⟩

theorem starterBlank_isStarter : IsStarter floatText starterBlank := .of_checked rfl rfl rfl rfl

theorem starterApplication_isStarter : IsStarter floatText starterApplication :=
  .of_checked rfl rfl rfl rfl

theorem starterServerQuiz_isStarter : IsStarter floatText starterServerQuiz :=
  .of_checked rfl rfl rfl rfl

/-! ### Members set and removed -/

/-- A title is set in what is read. -/
theorem fromValue_insertTitle {fields : List (Text × Value)} {schema : FormSchema} (title : Text)
    (h : FormSchema.fromValue (.object fields) = some schema) :
    FormSchema.fromValue (insertMember "title".toList (.string title) (.object fields)) =
      some { schema with title := title } := by
  have hmember : ∀ k, (Value.insertEntry "title".toList (.string title) fields).lookup k =
      if k = "title".toList then some (.string title) else fields.lookup k :=
    fun k => Value.lookup_insertEntry _ k _ fields
  change FormSchema.build
    (fun k => (Value.insertEntry "title".toList (.string title) fields).lookup k) = _
  change FormSchema.build (fun k => fields.lookup k) = _ at h
  simp only [FormSchema.build, Option.bind_eq_bind, Option.bind_eq_some_iff, Option.pure_def,
    Option.some.injEq] at h ⊢
  obtain ⟨-, -, description, hdescription, settings, hsettings, pages, hpages, rfl⟩ := h
  rw [hmember, if_pos rfl, hmember, if_neg (by decide), hmember, if_neg (by decide), hmember,
    if_neg (by decide)]
  exact ⟨title, rfl, description, hdescription, settings, hsettings, pages, hpages, rfl⟩

private theorem lookup_filter_ne {k k' : Text} (fields : List (Text × Value)) (h : k' ≠ k) :
    (fields.filter (·.1 ≠ k)).lookup k' = fields.lookup k' := by
  induction fields with
  | nil => rfl
  | cons e fields ih =>
    by_cases hkey : e.1 = k
    · have hne : k' ≠ e.1 := fun heq => h (heq.trans hkey)
      rw [List.filter_cons, if_neg (by simp [hkey]), ih, List.lookup_cons, beq_false_of_ne hne]
    · rw [List.filter_cons, if_pos (by simp [hkey]), List.lookup_cons, List.lookup_cons, ih]

/-- What is removed is not read. -/
theorem fromValue_removeMember {k : Text} (v : Value) (hk : k ∉ FormSchema.fieldNames) :
    FormSchema.fromValue (removeMember k v) = FormSchema.fromValue v := by
  cases v with
  | object fields =>
    have hmember : ∀ name ∈ FormSchema.fieldNames, (fields.filter (·.1 ≠ k)).lookup name =
        fields.lookup name :=
      fun name hname => lookup_filter_ne fields fun heq => hk (heq ▸ hname)
    change FormSchema.build (fun name => (fields.filter (·.1 ≠ k)).lookup name) =
      FormSchema.build fun name => fields.lookup name
    rw [FormSchema.build, FormSchema.build, hmember "title".toList (by decide),
      hmember "description".toList (by decide),
      hmember "settings".toList (by decide), hmember "pages".toList (by decide)]
  | _ => rfl

/-- A fresh form is stored with a schema that a save would accept, but for its title. -/
theorem IsStarter.stored (h : IsStarter floatText template) (title : Option Text) :
    ∃ schema, FormSchema.fromValue (removeMember "passing_score".toList (match title with
        | some title => insertMember "title".toList (.string title) template
        | none => template)) = some schema ∧ schema.SaneUntitled ∧
            validateQuizKeys floatText schema = .ok () := by
  obtain ⟨⟨fields, rfl⟩, schema, hreads, hsane, hkeys⟩ := h
  rw [fromValue_removeMember _ (by decide)]
  cases title with
  | none => exact ⟨schema, hreads, hsane, hkeys⟩
  | some title => exact ⟨_, fromValue_insertTitle title hreads, hsane, hkeys⟩

end

end FormRespondentRole
