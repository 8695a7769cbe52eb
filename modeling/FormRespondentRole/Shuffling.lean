import FormRespondentRole.FullMarks
import FormRespondentRole.PageBootstrap
import FormRespondentRole.SchemaReading
import FormRespondentRole.Foundations.Rearranged

/-!
# Shuffling

`shuffleSchema` moves questions within their pages and options within their questions, and nothing
else.  A schema so shuffled is read as a form with the same questions, and checks and scores
submissions as the original does.
-/

namespace FormRespondentRole

open Foundations

/-! ### What is moved -/

/-- The question is as it was, or its options are in another order. -/
def ShuffledQuestion (shuffleOptions : Bool) (q q' : Value) : Prop :=
  q' = q ∨ shuffleOptions = true ∧ ((q.get "kind".toList).bind Value.asStr).getD [] ∈ choiceKinds ∧
    ∃ options options', listAt "options" q = some options ∧ options'.Perm options ∧
      q' = setListAt "options" options' q

/-- The page is as it was, or its questions are in another order, some of them shuffled
themselves. -/
def ShuffledPage (shuffleOptions : Bool) (page page' : Value) : Prop :=
  page' = page ∨ ∃ questions questions', listAt "questions" page = some questions ∧
    Rearranged (ShuffledQuestion shuffleOptions) questions questions' ∧
      page' = setListAt "questions" questions' page

/-- The pages are in their order, each of them shuffled. -/
def ShuffledSchema (shuffleOptions : Bool) (schema schema' : Value) : Prop :=
  schema' = schema ∨ ∃ pages pages', listAt "pages" schema = some pages ∧
    List.Forall₂ (ShuffledPage shuffleOptions) pages pages' ∧
      schema' = setListAt "pages" pages' schema

section

variable {σ : Type} {genIndex : (n : Nat) → StateM σ (Fin (n + 1))} {shuffleOptions : Bool}

private theorem forall₂_mapM_state {R : Value → Value → Prop} {f : Value → StateM σ Value}
    (hf : ∀ x seed, R x (f x seed).1) (xs : List Value) (seed : σ) :
    List.Forall₂ R xs (xs.mapM f seed).1 := by
  induction xs generalizing seed with
  | nil => exact List.Forall₂.nil
  | cons x xs ih =>
    rw [List.mapM_cons]
    exact List.Forall₂.cons (hf x seed) (ih (f x seed).2)

private theorem shuffleQuestion_shuffled (q : Value) (seed : σ) :
    ShuffledQuestion true q (shuffleQuestion genIndex q seed).1 := by
  rw [shuffleQuestion]
  split
  · exact Or.inl rfl
  · rename_i hkind
    cases hlist : listAt "options" q with
    | none => exact Or.inl rfl
    | some options =>
      exact Or.inr ⟨rfl, not_not.1 hkind, options, _, hlist, shuffle_perm genIndex options seed,
        rfl⟩

private theorem shufflePage_shuffled (page : Value) (seed : σ) :
    ShuffledPage shuffleOptions page (shufflePage genIndex shuffleOptions page seed).1 := by
  rw [shufflePage]
  cases hlist : listAt "questions" page with
  | none => exact Or.inl rfl
  | some questions =>
    have hperm := shuffle_perm genIndex questions seed
    cases shuffleOptions with
    | false =>
      exact Or.inr ⟨questions, _, hlist, ⟨_, hperm, List.forall₂_same.2 fun _ _ => Or.inl rfl⟩, rfl⟩
    | true => exact Or.inr ⟨questions, _, hlist,
      ⟨_, hperm, forall₂_mapM_state shuffleQuestion_shuffled _ _⟩, rfl⟩

/-- Whatever the random choices, questions and options are moved, and nothing else happens. -/
theorem shuffleSchema_shuffled (schema : Value) (seed : σ) :
    ShuffledSchema shuffleOptions schema (shuffleSchema genIndex shuffleOptions schema seed).1 := by
  rw [shuffleSchema]
  cases hlist : listAt "pages" schema with
  | none => exact Or.inl rfl
  | some pages => exact Or.inr ⟨pages, _, hlist, forall₂_mapM_state shufflePage_shuffled pages seed,
    rfl⟩

end

/-! ### What is read -/

/-- The same question, but for the order of its options. -/
def SameQuestion (shuffleOptions : Bool) (q q' : Question) : Prop :=
  q' = q ∨ shuffleOptions = true ∧ q.kind ∈ choiceQuestionKinds ∧
    ∃ options options', q.options = some options ∧ options'.Perm options ∧
      q' = { q with options := some options' }

/-- The same page, but for the order of its questions and of their options. -/
def SamePage (shuffleOptions : Bool) (page page' : Page) : Prop :=
  ∃ questions, Rearranged (SameQuestion shuffleOptions) page.questions questions ∧
    page' = { page with questions := questions }

/-- The same form, page by page. -/
def SameForm (shuffleOptions : Bool) (schema schema' : FormSchema) : Prop :=
  ∃ pages, List.Forall₂ (SamePage shuffleOptions) schema.pages pages ∧
    schema' = { schema with pages := pages }

section

variable {shuffleOptions : Bool}

theorem SamePage.refl (page : Page) : SamePage shuffleOptions page page :=
  ⟨page.questions, Rearranged.refl (R := SameQuestion shuffleOptions)
    (fun _ => Or.inl rfl) page.questions, rfl⟩

private theorem exists_listReplaced {α : Type} {build : (Text → Option Value) → Option α}
    {names : List Text} {key : String} {v : Value} {xs : List Value} {a : α}
    (hlist : listAt key v = some xs) (h : (structMembers names v).bind build = some a)
    (ys : List Value) : ∃ m m', ListReplaced key xs ys m m' ∧ build m = some a ∧
      (structMembers names (setListAt key ys v)).bind build = build m' := by
  obtain ⟨m, m', hm, hm', hreplaced⟩ := structMembers_setListAt hlist names ys
  rw [hm] at h
  refine ⟨m, m', hreplaced, h, ?_⟩
  rw [hm', Option.bind_some]

private theorem mem_choiceQuestionKinds {v : Value} {q : Question}
    (h : Question.fromValue v = some q)
    (hkind : ((v.get "kind".toList).bind Value.asStr).getD [] ∈ choiceKinds) :
    q.kind ∈ choiceQuestionKinds := by
  have hempty : [] ∉ choiceKinds := by decide
  obtain ⟨m, hm, hbuild⟩ := Option.bind_eq_some_iff.1 h
  cases v with
  | object fields =>
    obtain rfl := Option.some.inj hm
    obtain ⟨w, hw, hread⟩ := Option.bind_eq_some_iff.1 (Question.build_kind hbuild)
    have hget : Value.get "kind".toList (.object fields) = some w := hw
    rw [hget, Option.bind_some] at hkind
    cases w with
    | string s =>
      have hs : s ∈ choiceKinds := hkind
      have hkey : QuestionKind.fromKey s = some q.kind := hread
      simp only [choiceKinds, List.mem_cons, List.not_mem_nil, or_false] at hs
      rcases hs with rfl | rfl | rfl
      all_goals
        rw [← Option.some.inj hkey]
        decide
    | _ => exact absurd hkind hempty
  | _ => exact absurd hkind hempty

private theorem fromValue_shuffledQuestion {v v' : Value} {q : Question}
    (hv : ShuffledQuestion shuffleOptions v v') (h : Question.fromValue v = some q) :
    ∃ q', Question.fromValue v' = some q' ∧
      SameQuestion shuffleOptions q q' := by
  obtain rfl | ⟨hshuffle, hkind, options, options', hlist, hperm, rfl⟩ := hv
  · exact ⟨q, h, Or.inl rfl⟩
  · obtain ⟨m, m', hreplaced, hbuild, hbuild'⟩ := exists_listReplaced hlist h options'
    obtain ⟨before, hoptions, hread, hafter⟩ := Question.build_options hbuild hreplaced
    have hread' := (rearranged_eq_iff.2 hperm).mapM (S := (· = ·))
      (fun _ _ c hxy hx => ⟨c, hxy ▸ hx, rfl⟩) hread
    obtain ⟨after, hys, hrearranged⟩ := hread'
    exact ⟨_, hbuild'.trans (hafter after hys),
      Or.inr ⟨hshuffle, mem_choiceQuestionKinds h hkind, before, after, hoptions,
        rearranged_eq_iff.1 hrearranged, rfl⟩⟩

private theorem fromValue_shuffledPage {v v' : Value} {page : Page}
    (hv : ShuffledPage shuffleOptions v v') (h : Page.fromValue v = some page) :
    ∃ page', Page.fromValue v' = some page' ∧
      SamePage shuffleOptions page page' := by
  obtain rfl | ⟨questions, questions', hlist, hrearranged, rfl⟩ := hv
  · exact ⟨page, h, SamePage.refl page⟩
  · obtain ⟨m, m', hreplaced, hbuild, hbuild'⟩ := exists_listReplaced hlist h questions'
    obtain ⟨hread, hafter⟩ := Page.build_questions hbuild hreplaced
    obtain ⟨after, hys, hsame⟩ := hrearranged.mapM (f := Question.fromValue)
      (fun _ _ _ hxy hx => fromValue_shuffledQuestion hxy hx) hread
    exact ⟨_, hbuild'.trans (hafter after hys), after, hsame, rfl⟩

/-- A shuffled schema is read as the same form. -/
theorem fromValue_shuffledSchema {v v' : Value} {schema : FormSchema}
    (hv : ShuffledSchema shuffleOptions v v') (h : FormSchema.fromValue v = some schema) :
    ∃ schema', FormSchema.fromValue v' = some schema' ∧ SameForm shuffleOptions schema schema' := by
  obtain rfl | ⟨pages, pages', hlist, hpages, rfl⟩ := hv
  · exact ⟨schema, h, schema.pages, List.forall₂_same.2 fun page _ => SamePage.refl page, rfl⟩
  · obtain ⟨m, m', hreplaced, hbuild, hbuild'⟩ := exists_listReplaced hlist h pages'
    obtain ⟨hread, hafter⟩ := FormSchema.build_pages hbuild hreplaced
    obtain ⟨after, hys, hsame⟩ :=
      forall₂_mapM (f := Page.fromValue) (fun _ _ _ hxy hx =>
        fromValue_shuffledPage hxy hx) hpages hread
    exact ⟨_, hbuild'.trans (hafter after hys), after, hsame, rfl⟩

end

/-! ### The questions of the same form -/

section

variable {shuffleOptions : Bool}

private theorem SameQuestion.id_eq {q q' : Question} (h : SameQuestion shuffleOptions q q') :
    q'.id = q.id := by
  obtain rfl | ⟨-, -, options, options', -, -, rfl⟩ := h <;> rfl

private theorem SameQuestion.kind_eq {q q' : Question} (h : SameQuestion shuffleOptions q q') :
    q'.kind = q.kind := by
  obtain rfl | ⟨-, -, options, options', -, -, rfl⟩ := h <;> rfl

theorem SameForm.iterQuestions {schema schema' : FormSchema}
    (h : SameForm shuffleOptions schema schema') :
    Rearranged (SameQuestion shuffleOptions) schema.iterQuestions schema'.iterQuestions := by
  obtain ⟨pages, hpages, rfl⟩ := h
  refine Rearranged.filter (fun q q' hq => by rw [hq.kind_eq])
    (Rearranged.flatMap (hpages.imp fun page page' hpage => ?_))
  obtain ⟨questions, hquestions, rfl⟩ := hpage
  exact hquestions

end

/-! ### Checking -/

namespace Validation

section

variable {libs : Libs} {displayF64 : F64 → Text} {shuffleOptions : Bool}

private theorem chosenOptions_congr {options options' : List QuestionOption}
    (h : ∀ s, hasOption options' s = hasOption options s) (a : List Value) :
    chosenOptions options' a = chosenOptions options a := by
  induction a with
  | nil => rfl
  | cons v rest ih => rw [chosenOptions, chosenOptions, ih]; simp only [h]

private theorem validateSingleChoice_congr {q : Question} {options options' : List QuestionOption}
    (hoptions : q.options = some options) (h : ∀ s, hasOption options' s = hasOption options s)
    (raw : Option Value) :
    validateSingleChoice { q with options := some options' } raw = validateSingleChoice q raw := by
  have hrequire : require { q with options := some options' } = require q := rfl
  rw [validateSingleChoice, validateSingleChoice, hrequire, hoptions]
  cases raw.bind Value.asStr with
  | none => rfl
  | some s => simp only [h]

private theorem validateMultiChoice_congr {q : Question} {options options' : List QuestionOption}
    (hoptions : q.options = some options) (h : ∀ s, hasOption options' s = hasOption options s)
    (raw : Option Value) :
    validateMultiChoice { q with options := some options' } raw = validateMultiChoice q raw := by
  have hrequire : require { q with options := some options' } = require q := rfl
  rw [validateMultiChoice, validateMultiChoice, hrequire, hoptions]
  cases raw.bind Value.asArray with
  | none => rfl
  | some a => simp only [chosenOptions_congr h]

/-- The order of the options does not matter to the check of a question. -/
theorem validateQuestion_same {q q' : Question} (h : SameQuestion shuffleOptions q q')
    (raw : Option Value) :
    validateQuestion libs displayF64 q' raw = validateQuestion libs displayF64 q raw := by
  obtain rfl | ⟨-, hkind, options, options', hoptions, hperm, rfl⟩ := h
  · rfl
  have hhas : ∀ s, hasOption options' s = hasOption options s := fun s => hperm.any_eq
  simp only [choiceQuestionKinds, List.mem_cons, List.not_mem_nil, or_false] at hkind
  rw [validateQuestion, validateQuestion]
  rcases hkind with hkind | hkind | hkind
  · simp only [hkind]
    exact hkind ▸ validateSingleChoice_congr hoptions hhas raw
  · simp only [hkind]
    exact hkind ▸ validateMultiChoice_congr hoptions hhas raw
  · simp only [hkind]
    exact hkind ▸ validateSingleChoice_congr hoptions hhas raw

/-- The same map of answers, or the same errors in some order. -/
def SameVerdict : Except (List FieldError) (List (Text × Value)) →
    Except (List FieldError) (List (Text × Value)) → Prop
  | .ok out, .ok out' => out' = out
  | .error errors, .error errors' => errors'.Perm errors
  | _, _ => False

private theorem validate_same {schema schema' : FormSchema}
    (h : SameForm shuffleOptions schema schema') (hids : (schema.iterQuestions.map (·.id)).Nodup)
    (raw : Value) :
    SameVerdict (validate libs displayF64 schema raw) (validate libs displayF64 schema' raw) := by
  cases raw with
  | object answers =>
    have hquestions := h.iterQuestions
    have hcheck : ∀ q q', SameQuestion shuffleOptions q q' →
        validateQuestion libs displayF64 q' (answers.lookup q'.id) =
          validateQuestion libs displayF64 q (answers.lookup q.id) := by
      intro q q' hq
      rw [hq.id_eq, validateQuestion_same hq]
    have hstored := hquestions.filterMap (f := fun q =>
        (validateQuestion libs displayF64 q (answers.lookup q.id)).toOption.join.map fun v =>
          (q.id, v))
      (g := fun q => (validateQuestion libs displayF64 q (answers.lookup q.id)).toOption.join.map
        fun v => (q.id, v))
      fun q q' hq => by rw [hcheck q q' hq, hq.id_eq]
    have hreported : (reportedErrors
      (fun q => validateQuestion libs displayF64 q (answers.lookup q.id))
        schema'.iterQuestions).Perm
          (reportedErrors (fun q => validateQuestion libs displayF64 q (answers.lookup q.id))
            schema.iterQuestions) := by
      refine hquestions.filterMap fun q q' hq => ?_
      beta_reduce
      rw [hcheck q q' hq, hq.id_eq]
    have hout := Value.ofEntries_perm hstored.symm (keys_storedEntries_nodup hids)
    simp only [validate, foldl_record, List.nil_append]
    by_cases hnil : reportedErrors
      (fun q => validateQuestion libs displayF64 q (answers.lookup q.id)) schema.iterQuestions = []
    · rw [if_pos hnil, if_pos (hnil ▸ hreported).eq_nil]
      exact hout.symm
    · rw [if_neg hnil, if_neg fun hnil' => hnil (hnil' ▸ hreported).symm.eq_nil]
      exact hreported
  | _ => exact List.Perm.refl _

end

end Validation

/-! ### Scoring -/

namespace Quiz

private theorem ofIntClamp_toInt (k : Int) :
    (Int32.ofIntClamp k).toInt = max (-2 ^ 31) (min k (2 ^ 31 - 1)) := by
  have hmin : Int32.minValue.toInt = -2 ^ 31 := by decide
  have hmax : Int32.maxValue.toInt = 2 ^ 31 - 1 := by decide
  rw [Int32.ofIntClamp]
  split
  · split
    · rw [Int32.toInt_ofIntLE]
      omega
    · omega
  · omega

/-- Points are added in any order, even when the total is capped. -/
theorem saturatingAdd_right_comm {total a b : Int32} (ha : 0 < a.toInt) (hb : 0 < b.toInt) :
    saturatingAdd (saturatingAdd total a) b = saturatingAdd (saturatingAdd total b) a := by
  have hlow : -2 ^ 31 ≤ total.toInt := total.le_toInt
  refine Int32.toInt_inj.1 ?_
  simp only [saturatingAdd, ofIntClamp_toInt]
  omega

section

variable {floatText : F64 → Text} {toLowercase : Text → Text} {verified : List (Text × Value)}
  {shuffleOptions : Bool}

private theorem addQuestion_right_comm (total : Int32) (q q' : Question) :
    addQuestion floatText toLowercase verified
    (addQuestion floatText toLowercase verified total q) q' =
      addQuestion floatText toLowercase verified
      (addQuestion floatText toLowercase verified total q') q := by
  simp only [addQuestion_eq]
  split_ifs with hq' hq
  · refine saturatingAdd_right_comm ?_ ?_
    · exact pointsOf_pos (Bool.and_eq_true_iff.1 hq).1
    · exact pointsOf_pos (Bool.and_eq_true_iff.1 hq').1
  all_goals rfl

/-- The order of questions and options does not matter to the score, whatever the points. -/
theorem computeQuizScore_same {schema schema' : FormSchema}
    (h : SameForm shuffleOptions schema schema') :
    computeQuizScore floatText toLowercase schema' verified =
      computeQuizScore floatText toLowercase schema verified := by
  refine h.iterQuestions.foldl_eq (fun q q' hq total => ?_) addQuestion_right_comm 0
  obtain rfl | ⟨-, -, options, options', -, -, rfl⟩ := hq <;> rfl

end

end Quiz

/-- Whatever the random choices, the shuffled schema is the stored one with questions and options
moved, and it checks and scores all submissions alike. -/
theorem shuffle_transparent {σ : Type} (genIndex : (n : Nat) → StateM σ (Fin (n + 1)))
    (shuffleOptions : Bool) (libs : Libs) (displayF64 floatText : F64 → Text)
    (toLowercase : Text → Text) {schema : Value} {form : FormSchema}
    (hread : FormSchema.fromValue schema = some form) (hsane : sanityCheck form = .ok ())
    (seed : σ) :
    ShuffledSchema shuffleOptions schema (shuffleSchema genIndex shuffleOptions schema seed).1 ∧
    ∃ form', FormSchema.fromValue (shuffleSchema genIndex shuffleOptions schema seed).1 =
      some form' ∧
      SameForm shuffleOptions form form' ∧
      (∀ raw, Validation.SameVerdict (Validation.validate libs displayF64 form raw)
        (Validation.validate libs displayF64 form' raw)) ∧
      ∀ verified, Quiz.computeQuizScore floatText toLowercase form' verified =
        Quiz.computeQuizScore floatText toLowercase form verified := by
  have hshuffled : ShuffledSchema shuffleOptions schema
      (shuffleSchema genIndex shuffleOptions schema seed).1 :=
    shuffleSchema_shuffled schema seed
  obtain ⟨form', hread', hsame⟩ := fromValue_shuffledSchema hshuffled hread
  have hids := (sanityCheck_eq_ok_iff.1 hsane).ids_nodup
  exact ⟨hshuffled, form', hread', hsame, Validation.validate_same hsame hids, fun _ =>
    Quiz.computeQuizScore_same hsame⟩

/-- A page with a name and a colour. -/
def pollSchema : Value :=
  .object
    [("pages".toList, .array [.object
      [("id".toList, .str "p"),
       ("questions".toList, .array
         [.object [("id".toList, .str "name"), ("kind".toList, .str "short_text"),
           ("title".toList, .str "Name?")],
          .object
            [("id".toList, .str "colour"), ("kind".toList, .str "dropdown"),
             ("options".toList, .array
               [.object [("id".toList, .str "r"), ("label".toList, .str "Red")],
                .object [("id".toList, .str "g"), ("label".toList, .str "Green")]]),
             ("title".toList, .str "Colour?")]])]]),
     ("title".toList, .str "Poll")]

def pollForm : FormSchema where
  title := "Poll".toList
  pages :=
    [{ id := "p".toList
       questions :=
         [{ id := "name".toList, kind := .shortText, title := "Name?".toList },
          { id := "colour".toList, kind := .dropdown, title := "Colour?".toList
            options := some [⟨"r".toList, "Red".toList⟩, ⟨"g".toList, "Green".toList⟩] }] }]

/-- Always the first place. -/
def firstIndex (n : Nat) : StateM Unit (Fin (n + 1)) := return 0

theorem shuffle_transparent_poll :
    ShuffledSchema true pollSchema (shuffleSchema firstIndex true pollSchema ()).1 ∧
    ∃ form', FormSchema.fromValue (shuffleSchema firstIndex true pollSchema ()).1 = some form' ∧
      SameForm true pollForm form' ∧
      (∀ raw, Validation.SameVerdict (Validation.validate plainLibs (fun _ => []) pollForm raw)
        (Validation.validate plainLibs (fun _ => []) form' raw)) ∧
      ∀ verified, Quiz.computeQuizScore (fun _ => []) id form' verified =
        Quiz.computeQuizScore (fun _ => []) id pollForm verified :=
  shuffle_transparent firstIndex true plainLibs (fun _ => []) (fun _ => []) id (by rfl) (by rfl) ()

example : ((FormSchema.fromValue (shuffleSchema firstIndex true pollSchema ()).1).map fun form =>
    form.iterQuestions.map (·.id)) = some ["colour".toList, "name".toList] := by decide

end FormRespondentRole
