import FormRespondentRole.AdminHandlers
import FormRespondentRole.Foundations.JsonPath

/-!
# The form page

The schema that the page embeds is the stored one without the answer keys (`redactAnswerKeys`),
shuffled on quizzes and where the form asks for it.  The stored answer keys have no influence on it
(`answer_keys_withheld`).  Shuffling follows `SliceRandom::shuffle` of rand 0.8, whose choices of an
index are a parameter.
-/

namespace FormRespondentRole

open Foundations

structure FormSettings where
  submitLabel : Text := "Submit".toList
  showProgressBar : Bool := true
  shuffleQuestions : Bool := false

namespace FormSettings

private def textMember (default : Text) : Option Value → Option Text
  | none => some default
  | some v => v.asStr

private def boolMember (default : Bool) : Option Value → Option Bool
  | none => some default
  | some v => v.asBool

private def build (submitLabel showProgressBar shuffleQuestions : Option Value) :
    Option FormSettings := do
  let submitLabel ← textMember "Submit".toList submitLabel
  let showProgressBar ← boolMember true showProgressBar
  let shuffleQuestions ← boolMember false shuffleQuestions
  return ⟨submitLabel, showProgressBar, shuffleQuestions⟩

/-- The derived deserialiser. -/
def fromValue : Value → Option FormSettings
  | .object fields =>
    build (fields.lookup "submit_label".toList) (fields.lookup "show_progress_bar".toList)
      (fields.lookup "shuffle_questions".toList)
  | .array [] => build none none none
  | .array [l] => build (some l) none none
  | .array [l, p] => build (some l) (some p) none
  | .array [l, p, q] => build (some l) (some p) (some q)
  | _ => none

end FormSettings

/-! ### Redaction -/

/-- The list at a member. -/
def listAt (key : String) (v : Value) : Option (List Value) := (v.get key.toList).bind Value.asArray

/-- The value with another list at a member that it has. -/
def setListAt (key : String) (xs : List Value) (v : Value) : Value :=
  v.modify (.member key.toList) fun _ => .array xs

def redactQuestion (q : Value) : Value :=
  Admin.removeMember "points".toList (Admin.removeMember "correct".toList q)

def redactPage (page : Value) : Value :=
  match listAt "questions" page with
  | none => page
  | some questions => setListAt "questions" (questions.map redactQuestion) page

def redactAnswerKeys (schema : Value) : Value :=
  match listAt "pages" schema with
  | none => schema
  | some pages => setListAt "pages" (pages.map redactPage) schema

/-! ### Shuffling -/

section

variable {σ : Type} (genIndex : (n : Nat) → StateM σ (Fin (n + 1)))

/-- Swaps the items from the i-th down to the second with one at or before them. -/
def shuffleFrom {α : Type} : Nat → Array α → StateM σ (Array α)
  | 0, xs => return xs
  | i + 1, xs => do
    let j ← genIndex (i + 1)
    shuffleFrom i (xs.swapIfInBounds (i + 1) j)

def shuffle (xs : List Value) : StateM σ (List Value) := do
  let shuffled ← shuffleFrom genIndex (xs.length - 1) xs.toArray
  return shuffled.toList

def choiceKinds : List Text := ["single_choice".toList, "multi_choice".toList, "dropdown".toList]

def shuffleQuestion (q : Value) : StateM σ Value :=
  if ((q.get "kind".toList).bind Value.asStr).getD [] ∉ choiceKinds then return q
  else match listAt "options" q with
    | none => return q
    | some options => do
      let options ← shuffle genIndex options
      return setListAt "options" options q

def shufflePage (shuffleOptions : Bool) (page : Value) : StateM σ Value :=
  match listAt "questions" page with
  | none => return page
  | some questions => do
    let questions ← shuffle genIndex questions
    let questions ← if shuffleOptions then questions.mapM (shuffleQuestion genIndex)
      else pure questions
    return setListAt "questions" questions page

def shuffleSchema (shuffleOptions : Bool) (schema : Value) : StateM σ Value :=
  match listAt "pages" schema with
  | none => return schema
  | some pages => do
    let pages ← pages.mapM (shufflePage genIndex shuffleOptions)
    return setListAt "pages" pages schema

/-- The schema that the page of a form embeds. -/
def preparedSchema (isQuiz : Bool) (schema : Value) : StateM σ Value :=
  let settings := ((schema.get "settings".toList).bind FormSettings.fromValue).getD {}
  let redacted := redactAnswerKeys schema
  if isQuiz || settings.shuffleQuestions then shuffleSchema genIndex isQuiz redacted
    else return redacted

end

/-! ### What redaction takes away -/

def answerKeys : List Text := ["correct".toList, "points".toList]

/-- A question without the members of an answer key. -/
def withoutAnswerKeys : Value → Value
  | .object fields => .object (fields.filter fun e => decide (e.1 ∉ answerKeys))
  | v => v

/-- All `pages[i].questions[j]`. -/
def questionPlaces : List Value.Selector :=
  [.member "pages".toList, .items, .member "questions".toList, .items]

/-- One `pages[i].questions[j]`. -/
def questionPath (i j : Nat) : List Value.Step :=
  [.member "pages".toList, .item i, .member "questions".toList, .item j]

private theorem selects_questionPlaces_iff {path : List Value.Step} :
    Value.Selects questionPlaces path ↔ ∃ i j, path = questionPath i j := by
  have hmember : ∀ {key : Text} {s : Value.Step}, (Value.Selector.member key).admits s = true ↔
      s = .member key := by
    intro key s
    cases s <;> simp [Value.Selector.admits]
  have hitem : ∀ {s : Value.Step}, Value.Selector.items.admits s = true ↔ ∃ i, s = .item i := by
    intro s
    cases s <;> simp [Value.Selector.admits]
  simp only [Value.Selects, questionPlaces, List.forall₂_cons_left_iff, List.forall₂_nil_left_iff,
    hmember, hitem]
  constructor
  · rintro ⟨_, _, rfl, ⟨_, _, ⟨i, rfl⟩, ⟨_, _, rfl, ⟨_, _, ⟨j, rfl⟩, rfl, rfl⟩, rfl⟩, rfl⟩, rfl⟩
    exact ⟨i, j, rfl⟩
  · rintro ⟨i, j, rfl⟩
    exact ⟨_, _, rfl, ⟨_, _, ⟨i, rfl⟩, ⟨_, _, rfl, ⟨_, _, ⟨j, rfl⟩, rfl, rfl⟩, rfl⟩, rfl⟩, rfl⟩

private theorem redactQuestion_eq (q : Value) : redactQuestion q = withoutAnswerKeys q := by
  cases q with
  | object fields =>
    simp only [redactQuestion, Admin.removeMember, withoutAnswerKeys, List.filter_filter]
    refine congrArg _ (List.filter_congr fun e _ => ?_)
    rw [Bool.eq_iff_iff]
    simp only [answerKeys, List.mem_cons, List.not_mem_nil, or_false, not_or, Bool.and_eq_true,
      decide_eq_true_eq, ne_eq]
    exact and_comm
  | _ => rfl

theorem child_of_admits {key : String} {v : Value} {s : Value.Step}
    (h : (Value.Selector.member key.toList).admits s = true) : v.child s = v.get key.toList := by
  cases s with
  | member k =>
    obtain rfl := of_decide_eq_true h
    cases v <;> rfl
  | item i => cases h

private theorem modify_of_listAt_none {key : String} {g : Value → Value} {v : Value}
    (h : listAt key v = none) :
    v.modify (.member key.toList) (Value.modify .items g) = v := by
  refine (Value.modify_congr fun s x hs hx => ?_).trans (Value.modify_id (.member key.toList) v)
  rw [child_of_admits hs] at hx
  rw [listAt, hx, Option.bind_some] at h
  cases x with
  | array xs => cases h
  | _ => rfl

private theorem setListAt_map {key : String} {g : Value → Value} {v : Value} {xs : List Value}
    (h : listAt key v = some xs) :
    setListAt key (xs.map g) v = v.modify (.member key.toList) (Value.modify .items g) := by
  refine Value.modify_congr fun s x hs hx => ?_
  rw [child_of_admits hs] at hx
  rw [listAt, hx, Option.bind_some] at h
  cases x with
  | array ys =>
    cases h
    rfl
  | _ => cases h

private theorem redactPage_eq (page : Value) :
    redactPage page = page.modify (.member "questions".toList)
    (Value.modify .items withoutAnswerKeys) := by
  rw [redactPage]
  cases hlist : listAt "questions" page with
  | none => exact (modify_of_listAt_none hlist).symm
  | some questions =>
    rw [← setListAt_map hlist]
    exact congrArg (fun qs => setListAt "questions" qs page)
      (List.map_congr_left fun q _ => redactQuestion_eq q)

/-- Redaction deletes the members of answer keys from all questions. -/
theorem redactAnswerKeys_eq (schema : Value) :
    redactAnswerKeys schema = schema.modifyAll withoutAnswerKeys questionPlaces := by
  rw [redactAnswerKeys]
  cases hlist : listAt "pages" schema with
  | none => exact (modify_of_listAt_none hlist).symm
  | some pages =>
    refine Eq.trans ?_ (setListAt_map hlist)
    exact congrArg (fun ps => setListAt "pages" ps schema)
      (List.map_congr_left fun page _ => redactPage_eq page)

/-- A schema without its answer keys. -/
structure WithoutAnswerKeys (schema redacted : Value) : Prop where
  removed : ∀ i j k rest, k ∈ answerKeys →
    redacted.atPath (questionPath i j ++ .member k :: rest) = none
  otherMembers : ∀ i j k rest, k ∉ answerKeys →
    redacted.atPath (questionPath i j ++ .member k :: rest) =
      schema.atPath (questionPath i j ++ .member k :: rest)
  /-- The members of a question stay in their order. -/
  keys : ∀ i j fields, schema.atPath (questionPath i j) = some (.object fields) →
    (redacted.atPath (questionPath i j)).map Value.head =
      some (.object ((fields.map Prod.fst).filter (· ∉ answerKeys)))
  nonObjects : ∀ i j v, schema.atPath (questionPath i j) = some v → (∀ fields, v ≠ .object fields) →
    redacted.atPath (questionPath i j) = some v
  outside : ∀ path, (∀ i j, ¬path <+: questionPath i j ∧ ¬questionPath i j <+: path) →
    redacted.atPath path = schema.atPath path
  /-- The schema, its pages and their lists of questions keep their members and their lengths. -/
  above : ∀ path, (∀ i j, ¬questionPath i j <+: path) →
    (redacted.atPath path).map Value.head = (schema.atPath path).map Value.head

private theorem lookup_filter_answerKeys (k : Text) (fields : List (Text × Value)) :
    (fields.filter fun e => decide (e.1 ∉ answerKeys)).lookup k = if k ∈ answerKeys then none
      else fields.lookup k := by
  induction fields with
  | nil => simp
  | cons e fields ih =>
    obtain ⟨k', v⟩ := e
    by_cases hk' : k' ∈ answerKeys
    · rw [List.filter_cons_of_neg (by simpa using hk'), ih, List.lookup_cons]
      by_cases hk : k ∈ answerKeys
      · rw [if_pos hk, if_pos hk]
      · have hne : (k == k') = false := beq_false_of_ne fun heq => hk (heq ▸ hk')
        rw [if_neg hk, if_neg hk, hne]
    · rw [List.filter_cons_of_pos (by simpa using hk'), List.lookup_cons, List.lookup_cons, ih]
      by_cases heq : k = k'
      · subst heq
        simp [hk']
      · simp [beq_false_of_ne heq]

private theorem atPath_redacted (schema : Value) (i j : Nat) (rest : List Value.Step) :
    (redactAnswerKeys schema).atPath (questionPath i j ++ rest) =
      (schema.atPath (questionPath i j)).bind fun q => (withoutAnswerKeys q).atPath rest := by
  rw [redactAnswerKeys_eq]
  exact Value.atPath_modifyAll_of_selects (selects_questionPlaces_iff.2 ⟨i, j, rfl⟩) schema rest

private theorem atPath_withoutAnswerKeys (q : Value) (k : Text) (rest : List Value.Step) :
    (withoutAnswerKeys q).atPath (.member k :: rest) = if k ∈ answerKeys then none
      else q.atPath (.member k :: rest) := by
  cases q with
  | object fields =>
    simp only [withoutAnswerKeys, Value.atPath, Value.child, lookup_filter_answerKeys]
    by_cases hk : k ∈ answerKeys
    · rw [if_pos hk, if_pos hk, Option.bind_none]
    · rw [if_neg hk, if_neg hk]
  | _ => simp [withoutAnswerKeys, Value.atPath, Value.child]

/-- Redaction takes the answer keys away, and nothing else. -/
theorem redactAnswerKeys_withoutAnswerKeys (schema : Value) :
    WithoutAnswerKeys schema (redactAnswerKeys schema) where
  removed i j k rest hk := by
    rw [atPath_redacted]
    cases schema.atPath (questionPath i j) with
    | none => rfl
    | some q => exact (atPath_withoutAnswerKeys q k rest).trans (if_pos hk)
  otherMembers i j k rest hk := by
    rw [atPath_redacted, Value.atPath_append]
    cases schema.atPath (questionPath i j) with
    | none => rfl
    | some q => exact (atPath_withoutAnswerKeys q k rest).trans (if_neg hk)
  keys i j fields h := by
    have hq := atPath_redacted schema i j []
    rw [List.append_nil, h] at hq
    rw [hq]
    refine congrArg (fun keys => some (Value.Head.object keys)) ?_
    rw [List.filter_map]
    rfl
  nonObjects i j v h hv := by
    have hq := atPath_redacted schema i j []
    rw [List.append_nil, h] at hq
    rw [hq]
    cases v with
    | object fields => exact absurd rfl (hv fields)
    | _ => rfl
  outside path h := by
    rw [redactAnswerKeys_eq]
    refine Value.atPath_modifyAll_of_leaves (fun rest hsel => ?_) (fun p hp hsel => ?_) schema
    · obtain ⟨i, j, hpath⟩ := selects_questionPlaces_iff.1 hsel
      exact (h i j).1 ⟨rest, hpath⟩
    · obtain ⟨i, j, rfl⟩ := selects_questionPlaces_iff.1 hsel
      exact (h i j).2 hp
  above path h := by
    rw [redactAnswerKeys_eq]
    refine Value.head_atPath_modifyAll (fun p hp hsel => ?_) schema
    obtain ⟨i, j, rfl⟩ := selects_questionPlaces_iff.1 hsel
    exact h i j hp

/-! ### What the page embeds -/

private theorem settings_redacted (schema : Value) :
    (schema.modifyAll withoutAnswerKeys questionPlaces).get "settings".toList =
      schema.get "settings".toList := by
  have hget : ∀ v : Value, v.get "settings".toList = v.atPath [.member "settings".toList] := by
    intro v
    cases v with
    | object fields => exact (Option.bind_fun_some (fields.lookup "settings".toList)).symm
    | _ => rfl
  have hne : "settings".toList ≠ "pages".toList := by decide
  rw [hget, hget, ← redactAnswerKeys_eq]
  refine (redactAnswerKeys_withoutAnswerKeys schema).outside _ fun i j =>
    ⟨fun hprefix => ?_, fun hprefix => ?_⟩
  · exact hne (Value.Step.member.inj (List.cons_prefix_cons.1 hprefix).1)
  · exact hne (Value.Step.member.inj (List.cons_prefix_cons.1 hprefix).1).symm

/-- Schemas that differ in their answer keys only are embedded in the same way, and an embedded
schema is the stored one without them, before it is shuffled. -/
theorem answer_keys_withheld {σ : Type} (genIndex : (n : Nat) → StateM σ (Fin (n + 1)))
    (isQuiz : Bool) :
    (∀ s₁ s₂ : Value, s₁.modifyAll withoutAnswerKeys questionPlaces =
      s₂.modifyAll withoutAnswerKeys questionPlaces →
      preparedSchema genIndex isQuiz s₁ = preparedSchema genIndex isQuiz s₂) ∧
    ∀ schema, WithoutAnswerKeys schema (redactAnswerKeys schema) := by
  refine ⟨fun s₁ s₂ h => ?_, redactAnswerKeys_withoutAnswerKeys⟩
  have hsettings : s₁.get "settings".toList = s₂.get "settings".toList := by
    rw [← settings_redacted s₁, h, settings_redacted s₂]
  rw [preparedSchema, preparedSchema, redactAnswerKeys_eq, redactAnswerKeys_eq, h, hsettings]

/-- A quiz with one question and this key. -/
def keyedSchema (correct : String) : Value :=
  .object [("pages".toList, .array [.object [("questions".toList,
    .array [.object [("correct".toList, .str correct), ("id".toList, .str "q")]])]])]

theorem answer_keys_withheld_keyed :
    preparedSchema (σ := Nat) (fun _ state => (0, state + 1)) true (keyedSchema "a") =
      preparedSchema (fun _ state => (0, state + 1)) true (keyedSchema "b") :=
  (answer_keys_withheld _ true).1 _ _ rfl

end FormRespondentRole
