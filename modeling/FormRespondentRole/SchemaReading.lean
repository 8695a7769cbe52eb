import FormRespondentRole.FormPage
import FormRespondentRole.FormSchema

/-!
# Reading a schema

The derived deserialisers of the typed view.  A struct is read from an object, by the names of its
fields, or from an array, by their order; what an array leaves out at its end has its
default. -/

namespace FormRespondentRole

open Foundations

/-! ### Members -/

section

variable {α : Type}

/-- The members of a struct with these fields. -/
def structMembers (names : List Text) : Value → Option (Text → Option Value)
  | .object fields => some fun k => fields.lookup k
  | .array xs => if xs.length ≤ names.length then some fun k => (names.zip xs).lookup k else none
  | _ => none

/-- A member with a default. -/
def memberOr (default : α) (read : Value → Option α) : Option Value → Option α
  | none => some default
  | some v => read v

/-- A member that may be absent or `null`. -/
def optionalMember (read : Value → Option α) : Option Value → Option (Option α)
  | none | some .null => some none
  | some v => (read v).map some

def readList (read : Value → Option α) (v : Value) : Option (List α) :=
  v.asArray.bind fun xs => xs.mapM read

end

def readF64 : Value → Option F64
  | .number n => some n.asF64
  | _ => none

def readInt : Value → Option Int
  | .number n => n.asI64
  | _ => none

def readI64 (v : Value) : Option Int64 := (readInt v).map Int64.ofInt

def readI32 (v : Value) : Option Int32 :=
  ((readInt v).filter fun n => decide (-2 ^ 31 ≤ n ∧ n < 2 ^ 31)).map Int32.ofInt

/-! ### The structs -/

namespace QuestionKind

def all : List QuestionKind :=
  [shortText, longText, number, singleChoice, multiChoice, dropdown, scale, date, email, agreement,
    info, image, video]

def fromKey (k : Text) : Option QuestionKind := all.find? fun kind => kind.asStr = k

def fromValue : Value → Option QuestionKind
  | .string s => fromKey s
  | .object [(k, .null)] => fromKey k
  | _ => none

end QuestionKind

namespace QuestionOption

def fieldNames : List Text := ["id".toList, "label".toList]

def build (m : Text → Option Value) : Option QuestionOption := do
  let id ← (m "id".toList).bind Value.asStr
  let label ← (m "label".toList).bind Value.asStr
  return ⟨id, label⟩

def fromValue (v : Value) : Option QuestionOption := (structMembers fieldNames v).bind build

end QuestionOption

namespace Question

def fieldNames : List Text :=
  ["id".toList, "kind".toList, "title".toList, "description".toList, "required".toList,
    "max_length".toList, "min".toList,
    "max".toList, "options".toList, "correct".toList, "points".toList, "placeholder".toList,
      "help_text".toList,
    "image_url".toList, "alt_text".toList]

/-- All fields but the options. -/
def buildRest (m : Text → Option Value) : Option Question := do
  let id ← (m "id".toList).bind Value.asStr
  let kind ← (m "kind".toList).bind QuestionKind.fromValue
  let title ← memberOr [] Value.asStr (m "title".toList)
  let description ← memberOr [] Value.asStr (m "description".toList)
  let required ← memberOr false Value.asBool (m "required".toList)
  let maxLength ← optionalMember readI64 (m "max_length".toList)
  let min ← optionalMember readF64 (m "min".toList)
  let max ← optionalMember readF64 (m "max".toList)
  let correct ← optionalMember some (m "correct".toList)
  let points ← optionalMember readI32 (m "points".toList)
  let _ ← optionalMember Value.asStr (m "placeholder".toList)
  let _ ← optionalMember Value.asStr (m "help_text".toList)
  let imageUrl ← optionalMember Value.asStr (m "image_url".toList)
  let altText ← optionalMember Value.asStr (m "alt_text".toList)
  return ⟨id, kind, title, description, required, maxLength, min, max, none, correct, points,
    imageUrl, altText⟩

def build (m : Text → Option Value) : Option Question := do
  let q ← buildRest m
  let options ← optionalMember (readList QuestionOption.fromValue) (m "options".toList)
  return { q with options := options }

def fromValue (v : Value) : Option Question := (structMembers fieldNames v).bind build

end Question

namespace Page

def fieldNames : List Text :=
  ["id".toList, "title".toList, "description".toList, "questions".toList]

def build (m : Text → Option Value) : Option Page := do
  let id ← (m "id".toList).bind Value.asStr
  let title ← memberOr [] Value.asStr (m "title".toList)
  let description ← memberOr [] Value.asStr (m "description".toList)
  let questions ← memberOr [] (readList Question.fromValue) (m "questions".toList)
  return ⟨id, title, description, questions⟩

def fromValue (v : Value) : Option Page := (structMembers fieldNames v).bind build

end Page

namespace FormSchema

def fieldNames : List Text :=
  ["title".toList, "description".toList, "settings".toList, "pages".toList]

def build (m : Text → Option Value) : Option FormSchema := do
  let title ← memberOr [] Value.asStr (m "title".toList)
  let description ← memberOr [] Value.asStr (m "description".toList)
  let _ ← memberOr {} FormSettings.fromValue (m "settings".toList)
  let pages ← memberOr [] (readList Page.fromValue) (m "pages".toList)
  return ⟨title, description, pages⟩

def fromValue (v : Value) : Option FormSchema := (structMembers fieldNames v).bind build

end FormSchema

/-! ### A member replaced -/

/-- The members differ in the list at `key` only, which is `xs` in the one and `ys` in the other. -/
structure ListReplaced (key : String) (xs ys : List Value) (m m' : Text → Option Value) : Prop where
  before : m key.toList = some (.array xs)
  after : m' key.toList = some (.array ys)
  others : ∀ k, k ≠ key.toList → m' k = m k

theorem structMembers_setListAt {key : String} {v : Value} {xs : List Value}
    (h : listAt key v = some xs) (names : List Text) (ys : List Value) :
    ∃ m m', structMembers names v = some m ∧
      structMembers names (setListAt key ys v) = some m' ∧ ListReplaced key xs ys m m' := by
  cases v with
  | object fields =>
    have hbefore : fields.lookup key.toList = some (.array xs) := by
      obtain ⟨x, hx, hxs⟩ := Option.bind_eq_some_iff.1 h
      cases x with
      | array zs => rw [← Option.some.inj hxs]; exact hx
      | _ => cases hxs
    have hchild : ∀ k, (Value.modifyEntry key.toList (fun _ => .array ys) fields).lookup k =
        if k = key.toList then (fields.lookup k).map fun _ => .array ys else fields.lookup k := by
      intro k
      have hmodify := Value.child_modify (f := fun _ => .array ys) (.member key.toList)
        (.object fields) (.member k)
      simpa [Value.modify, Value.child, Value.Selector.admits] using hmodify
    refine ⟨_, _, rfl, rfl, hbefore, ?_, fun k hk => ?_⟩
    · rw [hchild, if_pos rfl, hbefore, Option.map_some]
    · rw [hchild, if_neg hk]
  | _ => cases h

section

variable {m m' : Text → Option Value} {xs ys : List Value}

private theorem Question.buildRest_congr (h : ∀ k, k ≠ "options".toList → m' k = m k) :
    Question.buildRest m' = Question.buildRest m := by
  rw [Question.buildRest, Question.buildRest, h "id".toList (by decide),
    h "kind".toList (by decide),
    h "title".toList (by decide), h "description".toList (by decide),
      h "required".toList (by decide),
    h "max_length".toList (by decide), h "min".toList (by decide), h "max".toList (by decide),
      h "correct".toList (by decide),
    h "points".toList (by decide), h "placeholder".toList (by decide),
      h "help_text".toList (by decide),
    h "image_url".toList (by decide), h "alt_text".toList (by decide)]

private theorem of_bind {α β : Type} {x : Option α} {f : α → Option β} {P : β → Prop}
    (h : ∀ a, x = some a → ∀ b, f a = some b → P b) (b : β) (hb : (x >>= f) = some b) : P b := by
  obtain ⟨a, ha, hf⟩ := Option.bind_eq_some_iff.1 hb
  exact h a ha b hf

private theorem Question.buildRest_kind (q : Question) (h : Question.buildRest m = some q) :
    (m "kind".toList).bind QuestionKind.fromValue = some q.kind := by
  revert q h
  refine of_bind fun id _ => of_bind fun kind hkind => of_bind fun title _ =>
    of_bind fun description _ =>
    of_bind fun required _ => of_bind fun maxLength _ => of_bind fun min _ => of_bind fun max _ =>
      of_bind fun correct _ =>
    of_bind fun points _ => of_bind fun placeholder _ => of_bind fun helpText _ =>
      of_bind fun imageUrl _ =>
    of_bind fun altText _ => ?_
  rintro q h
  rw [hkind, ← Option.some.inj h]

/-- With another list of options, a question is read with these options. -/
theorem Question.build_options {q : Question} (h : Question.build m = some q)
    (hm : ListReplaced "options" xs ys m m') :
    ∃ before, q.options = some before ∧ xs.mapM QuestionOption.fromValue = some before ∧
      ∀ options, ys.mapM QuestionOption.fromValue = some options →
        Question.build m' = some { q with options := some options } := by
  simp only [Question.build, Option.bind_eq_bind, Option.bind_eq_some_iff, Option.pure_def,
    Option.some.injEq] at h ⊢
  obtain ⟨rest, hrest, before, hbefore, rfl⟩ := h
  rw [hm.before] at hbefore
  obtain ⟨read, hread, rfl⟩ := Option.map_eq_some_iff.1 hbefore
  refine ⟨read, rfl, hread, fun options hoptions => ?_⟩
  rw [Question.buildRest_congr hm.others, hm.after]
  exact ⟨rest, hrest, some options, congrArg (Option.map some) hoptions, rfl⟩

theorem Question.build_kind {q : Question} (h : Question.build m = some q) :
    (m "kind".toList).bind QuestionKind.fromValue = some q.kind := by
  simp only [Question.build, Option.bind_eq_bind, Option.bind_eq_some_iff, Option.pure_def,
    Option.some.injEq] at h
  obtain ⟨rest, hrest, options, -, rfl⟩ := h
  exact Question.buildRest_kind rest hrest

theorem Page.build_questions {page : Page} (h : Page.build m = some page)
    (hm : ListReplaced "questions" xs ys m m') :
    xs.mapM Question.fromValue = some page.questions ∧
      ∀ questions, ys.mapM Question.fromValue = some questions →
        Page.build m' = some { page with questions := questions } := by
  simp only [Page.build, Option.bind_eq_bind, Option.bind_eq_some_iff, Option.pure_def,
    Option.some.injEq] at h ⊢
  obtain ⟨id, hid, title, htitle, description, hdescription, before, hbefore, rfl⟩ := h
  rw [hm.before] at hbefore
  refine ⟨hbefore, fun questions hquestions => ?_⟩
  rw [hm.others _ (by decide), hm.others _ (by decide), hm.others _ (by decide), hm.after]
  exact ⟨id, hid, title, htitle, description, hdescription, questions, hquestions, rfl⟩

theorem FormSchema.build_pages {schema : FormSchema} (h : FormSchema.build m = some schema)
    (hm : ListReplaced "pages" xs ys m m') :
    xs.mapM Page.fromValue = some schema.pages ∧
      ∀ pages, ys.mapM Page.fromValue = some pages →
        FormSchema.build m' = some { schema with pages := pages } := by
  simp only [FormSchema.build, Option.bind_eq_bind, Option.bind_eq_some_iff, Option.pure_def,
    Option.some.injEq] at h ⊢
  obtain ⟨title, htitle, description, hdescription, settings, hsettings, before, hbefore, rfl⟩ := h
  rw [hm.before] at hbefore
  refine ⟨hbefore, fun pages hpages => ?_⟩
  rw [hm.others _ (by decide), hm.others _ (by decide), hm.others _ (by decide), hm.after]
  exact ⟨title, htitle, description, hdescription, settings, hsettings, pages, hpages, rfl⟩

end

end FormRespondentRole
