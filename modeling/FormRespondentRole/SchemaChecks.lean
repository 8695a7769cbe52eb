import FormRespondentRole.FormSchema

/-!
# Checks of a schema at save time

`sanityCheck` collects what is wrong with the structure of a schema, and `validateQuizKeys` what is
wrong with the answer keys of a quiz.  A schema passes when nothing is collected;
`sanityCheck_eq_ok_iff` says what that comes to.
-/

namespace FormRespondentRole

open Foundations

def maxQuestions : Nat := 50

def maxPages : Nat := 10

def maxOptionsPerQuestion : Nat := 50

def maxQuestionPoints : Int32 := 1000000

/-- All questions, the ones for display included. -/
def FormSchema.questions (schema : FormSchema) : List Question := schema.pages.flatMap (·.questions)

/-! ### Ids -/

/-- The ids that are known after one more; a blank one is not remembered. -/
def noteId (seen : List Text) (id : Text) : List Text :=
  if Text.trim id = [] then seen else id :: seen

/-- The complaint about an id that is blank, or the one about an id that is known already. -/
def idErrors (seen : List Text) (id missing duplicate : Text) : List Text :=
  if Text.trim id = [] then [missing] else if id ∈ seen then [duplicate] else []

/-! ### One question -/

section

variable (q : Question)

/-- `Question "id" …` -/
def questionMessage (rest : Text) : Text := "Question \"".toList ++ q.id ++ "\" ".toList ++ rest

def optionErrors (seen : List Text) (o : QuestionOption) : List Text :=
  idErrors seen o.id (questionMessage q "has an option with no id.".toList)
      (questionMessage q ("has duplicate option id \"".toList ++ o.id ++ "\".".toList)) ++
    if 200 < o.label.length then
      [questionMessage q ("option \"".toList ++ o.id ++ "\" label is too long.".toList)]
    else []

def optionsErrors (seen : List Text) : List QuestionOption → List Text
  | [] => []
  | o :: rest => optionErrors q seen o ++ optionsErrors (noteId seen o.id) rest

def checkChoice : List Text :=
  let opts := q.options.getD []
  (if opts.isEmpty then [questionMessage q "needs at least one option.".toList] else []) ++
    (if maxOptionsPerQuestion < opts.length then
      [questionMessage q ("has too many options (max ".toList ++ Text.ofNat maxOptionsPerQuestion ++
        ").".toList)]
    else []) ++ optionsErrors q [] opts

def checkRange : List Text :=
  match q.min, q.max with
  | some min, some max => if max < min then [questionMessage q "has min > max.".toList] else []
  | _, _ => []

def isSafeImageUrl (url : Text) : Bool :=
  let lower := (Text.trim url).map Char.toLower
  if "javascript:".toList.isPrefixOf lower || "data:".toList.isPrefixOf lower ||
      "vbscript:".toList.isPrefixOf lower || "file:".toList.isPrefixOf lower then
    false
  else "http://".toList.isPrefixOf lower || "https://".toList.isPrefixOf lower

/-- The URL of an image or video element; `element` and `noun` say which. -/
def urlErrors (element noun : Text) : List Text :=
  let url := Text.trim (q.imageUrl.getD [])
  let message (rest : Text) : Text :=
    element ++ " element \"".toList ++ q.id ++ "\" ".toList ++ rest
  if url = [] then [message ("needs ".toList ++ noun ++ " URL.".toList)]
  else if !isSafeImageUrl url then
    [message
      "URL must start with http:// or https:// (data: and javascript: URLs are not allowed).".toList]
  else if 2048 < url.length then [message "URL is too long (max 2048 characters).".toList]
  else []

def checkImage : List Text :=
  urlErrors q "Image".toList "an image".toList ++
    match q.altText with
    | some alt =>
      if 200 < alt.length then
        ["Image element \"".toList ++ q.id ++
          "\" alt text is too long (max 200 characters).".toList]
      else []
    | none => []

def checkVideo : List Text := urlErrors q "Video".toList "a video".toList

def checkQuestionKind : List Text :=
  match q.kind with
  | .singleChoice | .multiChoice | .dropdown => checkChoice q
  | .scale | .number => checkRange q
  | .agreement =>
    if q.required then []
    else ["Agreement question \"".toList ++ q.id ++ "\" must be marked required.".toList]
  | .image => checkImage q
  | .video => checkVideo q
  | _ => []

end

/-! ### The schema -/

/-- The question at place `qi` on page `pi`, both counted from one, when the ids in `seen` are
known. -/
def questionErrors (pi qi : Nat) (seen : List Text) (q : Question) : List Text :=
  idErrors seen q.id
      ("Question #".toList ++ Text.ofNat qi ++ " on page ".toList ++ Text.ofNat pi ++
        " has no id.".toList)
      ("Duplicate question id \"".toList ++ q.id ++ "\".".toList) ++
    (if Text.trim q.title = [] ∧ q.kind ∉ [.info, .image, .video] then
      [questionMessage q "needs a title.".toList]
    else []) ++ checkQuestionKind q

def questionsErrors (pi : Nat) : Nat → List Text → List Question → List Text
  | _, _, [] => []
  | qi, seen, q :: rest => questionErrors pi qi seen q ++
    questionsErrors pi (qi + 1) (noteId seen q.id) rest

def pagesErrors : Nat → List Text → List Text → List Page → List Text
  | _, _, _, [] => []
  | pi, seenPids, seenQids, page :: rest =>
    idErrors seenPids page.id ("Page #".toList ++ Text.ofNat pi ++ " has no id.".toList)
        ("Page #".toList ++ Text.ofNat pi ++ " has duplicate id \"".toList ++ page.id ++
          "\".".toList) ++
      questionsErrors pi 1 seenQids page.questions ++
      pagesErrors (pi + 1) (noteId seenPids page.id)
        ((page.questions.map (·.id)).foldl noteId seenQids) rest

def headErrors (schema : FormSchema) : List Text :=
  (if Text.trim schema.title = [] then ["Form title is required.".toList] else []) ++
    (if 200 < schema.title.length then ["Form title must be ≤200 characters.".toList] else []) ++
    (if 2000 < schema.description.length then ["Form description must be ≤2000 characters.".toList]
      else []) ++
    (if schema.pages.isEmpty then ["Form must have at least one page.".toList] else []) ++
    (if maxPages < schema.pages.length then
      ["Form has too many pages (max ".toList ++ Text.ofNat maxPages ++ ").".toList]
    else [])

def sanityCheck (schema : FormSchema) : Except (List Text) Unit :=
  let totalQs := schema.questions.length
  let errors := headErrors schema ++ pagesErrors 1 [] [] schema.pages ++
    if maxQuestions < totalQs then
      ["Form has ".toList ++ Text.ofNat totalQs ++ " questions; max is ".toList ++
        Text.ofNat maxQuestions ++ ".".toList]
    else []
  if errors.isEmpty then .ok () else .error errors

/-! ### What passes -/

/-- No id is blank, known already, or there twice. -/
structure FreshIds (seen ids : List Text) : Prop where
  nonblank : ∀ id ∈ ids, Text.trim id ≠ []
  nodup : ids.Nodup
  unseen : ∀ id ∈ ids, id ∉ seen

private theorem idErrors_eq_nil_iff {seen : List Text} {id missing duplicate : Text} :
    idErrors seen id missing duplicate = [] ↔ Text.trim id ≠ [] ∧ id ∉ seen := by
  unfold idErrors
  split_ifs <;> simp_all

private theorem freshIds_nil (seen : List Text) : FreshIds seen [] :=
  ⟨List.forall_mem_nil _, List.nodup_nil, List.forall_mem_nil _⟩

private theorem freshIds_cons {seen ids : List Text} {id : Text} :
    FreshIds seen (id :: ids) ↔ (Text.trim id ≠ [] ∧ id ∉ seen) ∧
      FreshIds (noteId seen id) ids := by
  constructor
  · intro h
    obtain ⟨hblank, hblanks⟩ := List.forall_mem_cons.1 h.nonblank
    obtain ⟨hseen, hunseen⟩ := List.forall_mem_cons.1 h.unseen
    obtain ⟨hid, hnodup⟩ := List.nodup_cons.1 h.nodup
    refine ⟨⟨hblank, hseen⟩, hblanks, hnodup, fun x hx => ?_⟩
    rw [noteId, if_neg hblank, List.mem_cons, not_or]
    exact ⟨fun heq => hid (heq ▸ hx), hunseen x hx⟩
  · rintro ⟨⟨hblank, hseen⟩, h⟩
    have hnoted : ∀ x ∈ ids, x ≠ id ∧ x ∉ seen := by
      intro x hx
      have hx' := h.unseen x hx
      rwa [noteId, if_neg hblank, List.mem_cons, not_or] at hx'
    exact ⟨List.forall_mem_cons.2 ⟨hblank, h.nonblank⟩,
      List.nodup_cons.2 ⟨fun hid => (hnoted id hid).1 rfl, h.nodup⟩,
      List.forall_mem_cons.2 ⟨hseen, fun x hx => (hnoted x hx).2⟩⟩

private theorem freshIds_append {seen xs ys : List Text} :
    FreshIds seen (xs ++ ys) ↔ FreshIds seen xs ∧ FreshIds (xs.foldl noteId seen) ys := by
  induction xs generalizing seen with
  | nil => exact (and_iff_right (freshIds_nil seen)).symm
  | cons x xs ih => simp only [List.cons_append, freshIds_cons, ih, List.foldl_cons, and_assoc]

private theorem ite_nil_iff {p : Prop} [Decidable p] {msg : Text} :
    (if p then [msg] else []) = [] ↔ ¬p := by
  split_ifs with hp <;> simp [hp]

private theorem optionsErrors_eq_nil_iff {q : Question} {seen : List Text}
    {opts : List QuestionOption} :
    optionsErrors q seen opts = [] ↔ FreshIds seen (opts.map (·.id)) ∧
      ∀ o ∈ opts, o.label.length ≤ 200 := by
  induction opts generalizing seen with
  | nil => exact iff_of_true rfl ⟨freshIds_nil seen, List.forall_mem_nil _⟩
  | cons o opts ih =>
    rw [optionsErrors, optionErrors, List.append_eq_nil_iff, List.append_eq_nil_iff,
      idErrors_eq_nil_iff, ite_nil_iff,
      ih, List.map_cons, freshIds_cons, List.forall_mem_cons, not_lt]
    tauto

theorem checkChoice_eq_nil_iff {q : Question} :
    checkChoice q = [] ↔ q.options.getD [] ≠ [] ∧
      (q.options.getD []).length ≤ maxOptionsPerQuestion ∧
      FreshIds [] ((q.options.getD []).map (·.id)) ∧ ∀ o ∈ q.options.getD [],
        o.label.length ≤ 200 := by
  simp only [checkChoice, List.append_eq_nil_iff, ite_nil_iff, optionsErrors_eq_nil_iff,
    List.isEmpty_iff, not_lt, and_assoc,
    ne_eq]

private theorem questionErrors_eq_nil_iff {pi qi : Nat} {seen : List Text} {q : Question} :
    questionErrors pi qi seen q = [] ↔ (Text.trim q.id ≠ [] ∧ q.id ∉ seen) ∧
      (q.kind.isAnswerable = true → Text.trim q.title ≠ []) ∧ checkQuestionKind q = [] := by
  have hkind : q.kind ∉ [QuestionKind.info, .image, .video] ↔ q.kind.isAnswerable = true := by
    cases q.kind <;> decide
  rw [questionErrors, List.append_eq_nil_iff, List.append_eq_nil_iff, idErrors_eq_nil_iff,
    ite_nil_iff, hkind, and_assoc]
  tauto

private theorem questionsErrors_eq_nil_iff {pi qi : Nat} {seen : List Text} {qs : List Question} :
    questionsErrors pi qi seen qs = [] ↔ FreshIds seen (qs.map (·.id)) ∧
      ∀ q ∈ qs, (q.kind.isAnswerable = true → Text.trim q.title ≠ []) ∧
        checkQuestionKind q = [] := by
  induction qs generalizing qi seen with
  | nil => exact iff_of_true rfl ⟨freshIds_nil seen, List.forall_mem_nil _⟩
  | cons q qs ih =>
    rw [questionsErrors, List.append_eq_nil_iff, questionErrors_eq_nil_iff, ih, List.map_cons,
      freshIds_cons,
      List.forall_mem_cons]
    tauto

private theorem pagesErrors_eq_nil_iff {pi : Nat} {seenPids seenQids : List Text}
    {pages : List Page} :
    pagesErrors pi seenPids seenQids pages = [] ↔ FreshIds seenPids (pages.map (·.id)) ∧
      FreshIds seenQids ((pages.flatMap (·.questions)).map (·.id)) ∧
      ∀ q ∈ pages.flatMap (·.questions),
        (q.kind.isAnswerable = true → Text.trim q.title ≠ []) ∧ checkQuestionKind q = [] := by
  induction pages generalizing pi seenPids seenQids with
  | nil => exact iff_of_true rfl ⟨freshIds_nil _, freshIds_nil _, List.forall_mem_nil _⟩
  | cons page pages ih =>
    rw [pagesErrors, List.append_eq_nil_iff, List.append_eq_nil_iff, idErrors_eq_nil_iff,
      questionsErrors_eq_nil_iff, ih,
      List.map_cons, freshIds_cons, List.flatMap_cons, List.map_append, freshIds_append,
        List.forall_mem_append]
    tauto

private theorem accepted_iff {errors : List Text} :
    (if errors.isEmpty then Except.ok () else .error errors : Except (List Text) Unit) = .ok () ↔
      errors = [] := by
  cases errors <;> simp

/-- What an accepted schema is. -/
structure FormSchema.Sane (schema : FormSchema) : Prop where
  titled : Text.trim schema.title ≠ [] ∧ schema.title.length ≤ 200
  described : schema.description.length ≤ 2000
  paged : schema.pages ≠ [] ∧ schema.pages.length ≤ maxPages
  pageIds : FreshIds [] (schema.pages.map (·.id))
  questionIds : FreshIds [] (schema.questions.map (·.id))
  questionTitles : ∀ q ∈ schema.questions, q.kind.isAnswerable = true → Text.trim q.title ≠ []
  questionKinds : ∀ q ∈ schema.questions, checkQuestionKind q = []
  few : schema.questions.length ≤ maxQuestions

theorem FormSchema.Sane.ids_nodup {schema : FormSchema} (h : schema.Sane) :
    (schema.iterQuestions.map (·.id)).Nodup :=
  h.questionIds.nodup.sublist (List.filter_sublist.map _)

theorem sanityCheck_eq_ok_iff {schema : FormSchema} : sanityCheck schema = .ok () ↔
    schema.Sane := by
  have hempty : sanityCheck schema = .ok () ↔ headErrors schema = [] ∧
    pagesErrors 1 [] [] schema.pages = [] ∧
      schema.questions.length ≤ maxQuestions := by
    simp only [sanityCheck, accepted_iff, List.append_eq_nil_iff, ite_nil_iff, not_lt, and_assoc]
  rw [hempty, pagesErrors_eq_nil_iff]
  simp only [headErrors, List.append_eq_nil_iff, ite_nil_iff, List.isEmpty_iff, not_lt, and_assoc]
  constructor
  · rintro ⟨h₁, h₂, h₃, h₄, h₅, hpages, hquestions, hkinds, hfew⟩
    exact ⟨⟨h₁, h₂⟩, h₃, ⟨h₄, h₅⟩, hpages, hquestions, fun q hq => (hkinds q hq).1, fun q hq =>
      (hkinds q hq).2, hfew⟩
  · intro h
    exact ⟨h.titled.1, h.titled.2, h.described, h.paged.1, h.paged.2, h.pageIds, h.questionIds,
      fun q hq => ⟨h.questionTitles q hq, h.questionKinds q hq⟩, h.few⟩

/-! ### Answer keys -/

def choiceQuestionKinds : List QuestionKind := [.singleChoice, .multiChoice, .dropdown]

def quizKeyErrors (floatText : F64 → Text) (q : Question) : List Text :=
  let label := if Text.trim q.title = [] then q.id else Text.trim q.title
  let about (rest : Text) : Text := "Question \"".toList ++ label ++ "\": ".toList ++ rest
  (match q.points with
    | some points =>
      if 0 ≤ points ∧ points ≤ maxQuestionPoints then []
      else [about ("points must be between 0 and ".toList ++ Text.ofInt maxQuestionPoints.toInt ++
        ".".toList)]
    | none => []) ++
    match q.correct with
    | none => []
    | some correct =>
      let accepted := acceptedAnswers floatText correct
      if accepted.isEmpty then []
      else if q.kind ∈ choiceQuestionKinds then
        let optIds := (q.options.getD []).map (·.id)
        if accepted.any fun id => decide (id ∉ optIds) then
          [about
            "the correct answer points to an option that no longer exists — re-mark the correct option.".toList]
        else []
      else []

def validateQuizKeys (floatText : F64 → Text) (schema : FormSchema) : Except (List Text) Unit :=
  let errors := schema.iterQuestions.flatMap (quizKeyErrors floatText)
  if errors.isEmpty then .ok () else .error errors

/-- What the answer key of one question has passed. -/
structure KeyAccepted (floatText : F64 → Text) (q : Question) : Prop where
  points : ∀ points, q.points = some points → 0 ≤ points ∧ points ≤ maxQuestionPoints
  options : q.kind ∈ choiceQuestionKinds → ∀ correct, q.correct = some correct →
    ∀ id ∈ acceptedAnswers floatText correct, id ∈ (q.options.getD []).map (·.id)

private theorem quizKeyErrors_eq_nil_iff {floatText : F64 → Text} {q : Question} :
    quizKeyErrors floatText q = [] ↔ KeyAccepted floatText q := by
  have hoptions : ∀ correct,
      (∀ id ∈ acceptedAnswers floatText correct, id ∈ (q.options.getD []).map (·.id)) ↔
        ¬((acceptedAnswers floatText correct).any fun id =>
          decide (id ∉ (q.options.getD []).map (·.id))) = true := by
    intro correct
    simp only [List.any_eq_true, decide_eq_true_eq, not_exists, not_and, not_not]
  have hkeys : KeyAccepted floatText q ↔
    (∀ points, q.points = some points → 0 ≤ points ∧ points ≤ maxQuestionPoints) ∧
      (q.kind ∈ choiceQuestionKinds → ∀ correct, q.correct = some correct →
        ∀ id ∈ acceptedAnswers floatText correct, id ∈ (q.options.getD []).map (·.id)) :=
    ⟨fun h => ⟨h.points, h.options⟩, fun h => ⟨h.1, h.2⟩⟩
  rw [hkeys, quizKeyErrors, List.append_eq_nil_iff]
  refine and_congr ?_ ?_
  · cases q.points with
    | none => simp
    | some points => simp
  · cases q.correct with
    | none => simp
    | some correct =>
      simp only [Option.some.injEq, forall_eq', hoptions]
      cases acceptedAnswers floatText correct with
      | nil => simp
      | cons id ids => by_cases hkind : q.kind ∈ choiceQuestionKinds <;> simp [hkind]

theorem validateQuizKeys_eq_ok_iff {floatText : F64 → Text} {schema : FormSchema} :
    validateQuizKeys floatText schema = .ok () ↔
      ∀ q ∈ schema.iterQuestions, KeyAccepted floatText q := by
  simp only [validateQuizKeys, accepted_iff, List.flatMap_eq_nil_iff, quizKeyErrors_eq_nil_iff]

end FormRespondentRole
