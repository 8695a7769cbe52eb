import FormRespondentRole.FormPage
import FormRespondentRole.Submit
import FormRespondentRole.Foundations.CharCodes
import FormRespondentRole.Foundations.JsonStrings

/-!
# The bootstrap of the form page

The page carries a JSON object, unescaped, in a script element of its own, and the page with the
object in it is searched for four more placeholders.  The element reads as the object just when no
string of the object holds the end tag of a script and none is changed by the four replacements
(`page_decodes_iff`).
-/

namespace FormRespondentRole

open Foundations

/-! ### The page -/

/-- What follows a `<` begins neither a script tag nor a placeholder. -/
def opensOther : Text → Bool
  | d :: e :: _ => decide (d ≠ '_' ∧ e ≠ '_' ∧ ¬(d = 's' ∧ e = 'c'))
  | _ => false

def opensNoScript : Text → Bool
  | [] => true
  | c :: s => (decide (c ≠ '<') || opensOther s) && opensNoScript s

def scriptTag : Text := "<script id=\"bootstrap\" type=\"application/json\">".toList

/-- The page's template, up to the script element and from its end tag on. -/
structure PageTemplate where
  head : Text
  tail : Text
  head_plain : (Pattern.literal "__BOOTSTRAP__".toList).occurs head = false
  tail_plain : (Pattern.literal "__BOOTSTRAP__".toList).occurs tail = false
  /-- The script element is the first one. -/
  head_opens : opensNoScript head = true

def PageTemplate.text (t : PageTemplate) : Text :=
  t.head ++ (scriptTag ++ ("__BOOTSTRAP__".toList ++ ("</script>".toList ++ t.tail)))

/-- The service's own address, which has neither quotes nor angle brackets. -/
structure BaseUrl where
  text : Text
  quote : '"' ∉ text
  bracket : '<' ∉ text

def escapeHtml (s : Text) : Text :=
  Text.replace ['\''] "&#39;".toList
    (Text.replace ['"'] "&quot;".toList (Text.replace ['>'] "&gt;".toList
      (Text.replace ['<'] "&lt;".toList (Text.replace ['&'] "&amp;".toList s))))

/-- The replacements that follow that of the bootstrap. -/
def substitute (baseUrl : BaseUrl) (form : Form) (slug : Text) (page : Text) : Text :=
  Text.replace "__SLUG__".toList (escapeHtml slug)
    (Text.replace "__DESCRIPTION__".toList (escapeHtml form.description)
      (Text.replace "__TITLE__".toList (escapeHtml form.title)
        (Text.replace "__BASE_URL__".toList baseUrl.text page)))

def pageBootstrap (baseUrl : BaseUrl) (form : Form) (slug discordId displayName : Text)
    (preview : Bool) (retryStatus preparedSchema : Value) : Value :=
  .object [("base_url".toList, .string baseUrl.text),
    ("description".toList, .string form.description),
    ("discord_id".toList, .string discordId), ("display_name".toList, .string displayName),
    ("guild_id".toList, .string form.guildId), ("is_quiz".toList, .bool form.isQuiz),
      ("preview".toList, .bool preview),
    ("retry".toList, retryStatus), ("schema".toList, preparedSchema), ("slug".toList, .string slug),
    ("title".toList, .string form.title), ("version".toList, Int32.toValue form.version)]

section

variable {σ : Type} (genIndex : (n : Nat) → StateM σ (Fin (n + 1))) (floatText : F64 → Text)
  (template : PageTemplate)

def renderFormPage (baseUrl : BaseUrl) (form : Form) (slug discordId displayName : Text)
    (preview : Bool) (retryStatus : Value) : StateM σ Text := do
  let schema ← preparedSchema genIndex form.isQuiz form.schema
  let bootstrap := (pageBootstrap baseUrl form slug discordId displayName preview
    retryStatus schema).text floatText
  return substitute baseUrl form slug (Text.replace "__BOOTSTRAP__".toList bootstrap template.text)

end

/-- What ends a script element. -/
def endTag : Pattern := .anyCase "</script".toList

/-- The text of the script element. -/
def elementText (page : Text) : Option Text :=
  ((Pattern.literal scriptTag).after page).bind endTag.before

/-- The element's text is the serialised value itself, which is more than that it parses to the
value, and reads as the value. -/
structure PageDecodes (floatText : F64 → Text) (page : Text) (bootstrap : Value) : Prop where
  unaltered : elementText page = some (bootstrap.text floatText)
  reads : Value.read (bootstrap.text floatText) = some bootstrap

/-- The strings that go into the bootstrap. -/
def pageStrings (baseUrl : BaseUrl) (form : Form) (slug discordId displayName : Text)
    (retryStatus : Value) : List Text :=
  baseUrl.text :: form.description :: discordId :: displayName :: form.guildId :: slug ::
    form.title ::
    (retryStatus.strings ++ (redactAnswerKeys form.schema).strings)

/-! ### Escaped text -/

/-- The characters that `escapeHtml` writes as entities, in the order of its replacements. -/
def htmlEntities : CodeTable :=
  [('&', "&amp;".toList), ('<', "&lt;".toList), ('>', "&gt;".toList), ('"', "&quot;".toList),
    ('\'', "&#39;".toList)]

private theorem marked_htmlEntities : htmlEntities.Marked '&' where
  starts := by decide
  mark_mem := by decide
  nodup := by decide
  apart := by decide

private theorem ordered_htmlEntities : htmlEntities.Ordered := by decide

private theorem escapeHtml_eq_encode (s : Text) : escapeHtml s = htmlEntities.encode s :=
  ordered_htmlEntities.replaceEach_eq_encode s

private theorem notMem_escapeHtml {c : Char} (hc : c ∈ ['<', '>', '"', '\'']) (s : Text) :
    c ∉ escapeHtml s := by
  have hkeys : ['<', '>', '"', '\''].all fun c =>
    decide (c ∈ htmlEntities.map Prod.fst ∧ ∀ e ∈ htmlEntities, c ∉ e.2) := by decide
  obtain ⟨hkey, hcodes⟩ := of_decide_eq_true (List.all_eq_true.1 hkeys c hc)
  rw [escapeHtml_eq_encode]
  exact CodeTable.notMem_encode hkey hcodes s

/-- Escaped text has no character of markup but the ampersands of its entities, and reads back as
the text: the five replacements are one. -/
theorem escapeHtml_faithful (s : Text) :
    (∀ c ∈ ['<', '>', '"', '\''], c ∉ escapeHtml s) ∧
      (∀ pre post, escapeHtml s = pre ++ '&' :: post → ∃ e ∈ htmlEntities, e.2 <+: '&' :: post) ∧
      htmlEntities.restore (escapeHtml s) = s ∧ escapeHtml s = s.flatMap htmlEntities.codeOf := by
  refine ⟨fun c hc => notMem_escapeHtml hc s, fun pre post hs => ?_, ?_, escapeHtml_eq_encode s⟩
  · exact marked_htmlEntities.code_at_mark ((escapeHtml_eq_encode s).symm.trans hs)
  · rw [escapeHtml_eq_encode]
    exact marked_htmlEntities.restore_encode s

example : htmlEntities.restore "&amp;lt;b&gt;".toList = "&lt;b>".toList := by decide

/-! ### The substitutions -/

section

variable {baseUrl : BaseUrl} {form : Form} {slug : Text}

private theorem rewrites_substitute (baseUrl : BaseUrl) (form : Form) (slug : Text) :
    Text.Rewrites '_' ['<', '"'] (substitute baseUrl form slug) := by
  have hmarkup : ['<', '"'] ⊆ ['<', '>', '"', '\''] := by simp
  have hhtml : ∀ s : Text, ∀ c ∈ ['<', '"'], c ∉ escapeHtml s :=
    fun s c hc => notMem_escapeHtml (hmarkup hc) s
  have hurl : ∀ c ∈ ['<', '"'], c ∉ baseUrl.text := by
    intro c hc
    rcases List.mem_pair.1 hc with rfl | rfl
    · exact baseUrl.bracket
    · exact baseUrl.quote
  have hplain : ∀ pat ∈ ["_BASE_URL__", "_TITLE__", "_DESCRIPTION__", "_SLUG__"],
      '<' ∉ '_' :: pat.toList ∧ '"' ∉ '_' :: pat.toList := by decide
  have hreplace : ∀ pat ∈ ["_BASE_URL__", "_TITLE__", "_DESCRIPTION__", "_SLUG__"],
    ∀ rep : Text, (∀ c ∈ ['<', '"'], c ∉ rep) →
      Text.Rewrites '_' ['<', '"'] (Text.replace ('_' :: pat.toList) rep) :=
    fun pat hpat rep hrep => Text.Rewrites.replace fun c hc => by
      refine ⟨?_, hrep c hc⟩
      rcases List.mem_pair.1 hc with rfl | rfl
      · exact (hplain pat hpat).1
      · exact (hplain pat hpat).2
  exact (((hreplace "_BASE_URL__" (by decide) _ hurl).comp
    (hreplace "_TITLE__" (by decide) _ (hhtml _))).comp
    (hreplace "_DESCRIPTION__" (by decide) _ (hhtml _))).comp
      (hreplace "_SLUG__" (by decide) _ (hhtml _))

/-! ### The script element -/

/-- The template with the bootstrap in it. -/
private theorem replace_bootstrap (template : PageTemplate) (bootstrap : Text) :
    Text.replace "__BOOTSTRAP__".toList bootstrap template.text =
      template.head ++ (scriptTag ++ (bootstrap ++ ("</script>".toList ++ template.tail))) := by
  have hpattern : "__BOOTSTRAP__".toList ≠ [] := by decide
  have hskip : Text.Rewrites '_' [] (Text.replace ('_' :: "_BOOTSTRAP__".toList) bootstrap) :=
    Text.Rewrites.replace fun c hc => absurd hc List.not_mem_nil
  have hclose : Text.replace "__BOOTSTRAP__".toList bootstrap
    ("</script>".toList ++ template.tail) =
      "</script>".toList ++ template.tail := by
    refine (hskip.skip (by decide) template.tail).trans (congrArg _ ?_)
    exact Text.replace_of_not_occurs template.tail_plain
  have hopen : Text.replace "__BOOTSTRAP__".toList bootstrap
      (scriptTag.tail ++ ("__BOOTSTRAP__".toList ++ ("</script>".toList ++ template.tail))) =
      scriptTag.tail ++ (bootstrap ++ ("</script>".toList ++ template.tail)) := by
    refine (hskip.skip (by decide) _).trans (congrArg _ ?_)
    exact (Text.replace_match hpattern bootstrap _).trans (by rw [hclose])
  have hhead : Text.replace "__BOOTSTRAP__".toList bootstrap
    (template.head ++ '<' :: (scriptTag.tail ++
      ("__BOOTSTRAP__".toList ++ ("</script>".toList ++ template.tail)))) = _ :=
    Text.replace_append_sep hpattern (by decide) template.head _
  rw [hopen, Text.replace_of_not_occurs template.head_plain] at hhead
  exact hhead

private theorem substitute_page {f : Text → Text} (hf : Text.Rewrites '_' ['<', '"'] f)
    (head bootstrap tail : Text) :
    f (head ++ (scriptTag ++ (bootstrap ++ ("</script>".toList ++ tail)))) =
      f head ++ (scriptTag ++ (f bootstrap ++ ("</script>".toList ++ f tail))) := by
  have hclose : f ("/script>".toList ++ tail) = "/script>".toList ++ f tail :=
    hf.skip (by decide) tail
  have hbootstrap := hf.append_sep bootstrap '<' ("/script>".toList ++ tail) List.mem_cons_self
  have hopen : f (scriptTag.tail ++ (bootstrap ++ ("</script>".toList ++ tail))) =
      scriptTag.tail ++ f (bootstrap ++ ("</script>".toList ++ tail)) := hf.skip (by decide) _
  have hhead := hf.append_sep head '<'
    (scriptTag.tail ++ (bootstrap ++ ("</script>".toList ++ tail))) List.mem_cons_self
  rw [hclose] at hbootstrap
  rw [hopen] at hhead
  refine hhead.trans ?_
  exact congrArg (fun page => f head ++ '<' :: (scriptTag.tail ++ page)) hbootstrap

private theorem opensNoScript_of_notMem {s : Text} (hs : '<' ∉ s) : opensNoScript s = true := by
  induction s with
  | nil => rfl
  | cons c s ih =>
    rw [List.mem_cons, not_or] at hs
    rw [opensNoScript, decide_eq_true (Ne.symm hs.1), Bool.true_or, Bool.true_and]
    exact ih hs.2

private theorem opensNoScript_append {s : Text} (hs : '<' ∉ s) (s' : Text) :
    opensNoScript (s ++ '<' :: s') = (opensOther s' && opensNoScript s') := by
  induction s with
  | nil => rfl
  | cons c s ih =>
    rw [List.mem_cons, not_or] at hs
    rw [List.cons_append, opensNoScript, decide_eq_true (Ne.symm hs.1), Bool.true_or, Bool.true_and]
    exact ih hs.2

private theorem opensOther_rewrite {f : Text → Text} {seps : List Char}
    (hf : Text.Rewrites '_' seps f) {s : Text} (hs : opensOther s = true) :
    opensOther (f s) = true := by
  cases s with
  | nil => cases hs
  | cons d s =>
    cases s with
    | nil => cases hs
    | cons e s =>
      obtain ⟨hd, he, -⟩ := of_decide_eq_true hs
      rw [hf.cons d _ hd, hf.cons e _ he]
      exact hs

/-- The substitutions open no script. -/
theorem opensNoScript_rewrite {f : Text → Text} (hf : Text.Rewrites '_' ['<', '"'] f) {s : Text}
    (hs : opensNoScript s = true) : opensNoScript (f s) = true := by
  induction hn : s.length using Nat.strong_induction_on generalizing s with
  | h n ih =>
    have hnone : ∀ u : Text, '<' ∉ u → '<' ∉ f u := fun u hu => by
      rw [← List.count_eq_zero, hf.count '<' u List.mem_cons_self, List.count_eq_zero.2 hu]
    by_cases hmem : '<' ∈ s
    · obtain ⟨u, v, rfl, hu⟩ := List.eq_append_cons_of_mem hmem
      rw [opensNoScript_append hu, Bool.and_eq_true] at hs
      rw [hf.append_sep u '<' v List.mem_cons_self, opensNoScript_append (hnone u hu),
        opensOther_rewrite hf hs.1, Bool.true_and]
      refine ih v.length ?_ hs.2 rfl
      rw [← hn, List.length_append, List.length_cons]
      omega
    · exact opensNoScript_of_notMem (hnone s hmem)

private theorem after_scriptTag {head : Text} (hhead : opensNoScript head = true) (s : Text) :
    (Pattern.literal scriptTag).after (head ++ (scriptTag ++ s)) = some s := by
  induction head with
  | nil =>
    exact (Pattern.after_of_matchesHead (Pattern.matchesHead_literal_self scriptTag s)).trans rfl
  | cons c head ih =>
    rw [opensNoScript, Bool.and_eq_true, Bool.or_eq_true, decide_eq_true_eq] at hhead
    have hshape : Pattern.literal scriptTag = (fun d => decide (d = '<')) ::
      (fun d => decide (d = 's')) ::
        (fun d => decide (d = 'c')) :: Pattern.literal (scriptTag.drop 3) := rfl
    have hno : (Pattern.literal scriptTag).matchesHead (c :: head ++ (scriptTag ++ s)) = false := by
      rw [hshape, List.cons_append, Pattern.matchesHead]
      rcases hhead.1 with hc | hother
      · rw [decide_eq_false hc, Bool.false_and]
      · cases head with
        | nil => cases hother
        | cons d head =>
          cases head with
          | nil => cases hother
          | cons e head =>
            obtain ⟨-, -, hnot⟩ := of_decide_eq_true hother
            rw [List.cons_append, List.cons_append, Pattern.matchesHead, Pattern.matchesHead,
              ← Bool.and_assoc (decide (d = 's')),
              ← Bool.decide_and, decide_eq_false hnot, Bool.false_and, Bool.and_false]
    exact (Pattern.after_cons hno).trans (ih hhead.2)

/-- The element goes on to the first end tag in the bootstrap, or else to its own. -/
theorem elementText_page {head : Text} (hhead : opensNoScript head = true) (bootstrap tail : Text) :
    elementText (head ++ (scriptTag ++ (bootstrap ++ ("</script>".toList ++ tail)))) =
      endTag.before (bootstrap ++ '<' :: ("/script>".toList ++ tail)) := by
  rw [elementText, after_scriptTag hhead, Option.bind_some]
  rfl

/-- The end tag's tests, after the one for `<`. -/
private def endTagRest : Pattern := .anyCase "/script".toList

private theorem separates_endTagRest : endTagRest.Separates '<' := by
  decide

private theorem eq_of_toLower {c : Char} (h : c.toLower = '<') : c = '<' := by
  rw [Char.toLower] at h
  split at h
  · rename_i hupper
    have hval : c.val + ('a'.val - 'A'.val) = '<'.val := congrArg Char.val h
    have hlow : 65 ≤ c.val.toNat := UInt32.le_iff_toNat_le.1 hupper.1
    have hhigh : c.val.toNat ≤ 90 := UInt32.le_iff_toNat_le.1 hupper.2
    have hsum : (c.val.toNat + 32) % 2 ^ 32 = 60 := congrArg UInt32.toNat hval
    omega
  · exact h

/-- The element's text is that of the bootstrap just when the bootstrap holds no end tag and the
substitutions leave it as it is. -/
theorem elementText_eq_iff {f : Text → Text} (hf : Text.Rewrites '_' ['<', '"'] f)
    (bootstrap tail : Text) :
    endTag.before (f bootstrap ++ '<' :: ("/script>".toList ++ tail)) = some bootstrap ↔
      endTag.occurs bootstrap = false ∧ f bootstrap = bootstrap := by
  have hends : endTag.matchesHead ('<' :: ("/script>".toList ++ tail)) = true := rfl
  have hbefore : endTag.occurs (f bootstrap) = false →
      endTag.before (f bootstrap ++ '<' :: ("/script>".toList ++ tail)) = some (f bootstrap) :=
    fun hno => Pattern.before_append_match separates_endTagRest hno hends
  constructor
  · intro h
    cases hoccurs : endTag.occurs (f bootstrap) with
    | false =>
      rw [hbefore hoccurs, Option.some.injEq] at h
      rw [h] at hoccurs
      exact ⟨hoccurs, h⟩
    | true =>
      -- the end tag's `<` would be one more than the bootstrap has
      obtain ⟨s, r, hs, hsplit, hr⟩ :=
        Pattern.before_append_of_occurs separates_endTagRest hoccurs ("/script>".toList ++ tail)
      obtain rfl : s = bootstrap := Option.some.inj (hs.symm.trans h)
      have hcount := hf.count '<' s List.mem_cons_self
      rw [hsplit, List.count_append, Nat.add_eq_left, List.count_eq_zero] at hcount
      cases r with
      | nil => cases hr
      | cons c r =>
        rw [Pattern.matchesHead, Bool.and_eq_true, decide_eq_true_eq] at hr
        exact absurd (List.mem_cons.2 (Or.inl (eq_of_toLower hr.1).symm)) hcount
  · rintro ⟨hno, hsame⟩
    rw [hsame] at hbefore ⊢
    exact hbefore hno

end

/-! ### The strings of the bootstrap -/

/-- An end tag in a JSON text is one in a string. -/
theorem endTag_text_iff {floatText : F64 → Text} {v : Value} (hv : v.WellFormed floatText) :
    endTag.occurs (v.text floatText) = true ↔ ∃ s ∈ v.strings, endTag.occurs s = true := by
  have hcontrol : ∀ n : Fin 32, endTag.Separates (Char.ofNat n) ∧
    '<' ∉ escapeChar (Char.ofNat n) := by decide
  have hescaped : ∀ c, escapeChar c ≠ [c] → endTag.Separates c ∧ '<' ∉ escapeChar c := by
    intro c hc
    rcases eq_of_escaped hc with rfl | rfl | hlow
    · decide
    · decide
    · have hc := hcontrol ⟨c.toNat, hlow⟩
      rwa [Char.ofNat_toNat] at hc
  refine Value.occurs_text_iff hv (fun c hc => decide_eq_false fun h => ?_)
      (fun c hc => (hescaped c hc).1) fun c hc d hd =>
    decide_eq_false fun h => ?_
  · obtain rfl := eq_of_toLower h
    exact absurd hc (by decide)
  · obtain rfl := eq_of_toLower h
    exact (hescaped c hc).2 hd

section

open Value

/-- A well-formed value by its keys and the values inside. -/
theorem hereditary_wellFormed (floatText : F64 → Text) :
    Hereditary (fun keys => keys.Pairwise (· < ·)) (WellFormed floatText) where
  array xs := by
    rw [WellFormed]
    induction xs with
    | nil => simp [AllWellFormed]
    | cons x xs ih => rw [AllWellFormed, List.forall_mem_cons, ih]
  object fields := by
    rw [WellFormed]
    refine and_congr_right' ?_
    induction fields with
    | nil => simp [MembersWellFormed]
    | cons e fields ih =>
      obtain ⟨k, x⟩ := e
      rw [MembersWellFormed, List.forall_mem_cons, ih]

/-- A value without a string, by its keys and the values inside. -/
theorem hereditary_notMem_strings (s : Text) :
    Hereditary (fun keys => s ∉ keys) (fun v => s ∉ v.strings) where
  array xs := by
    rw [Value.strings, Value.mem_elementStrings]
    simp
  object fields := by
    rw [Value.strings, Value.mem_memberStrings, not_or]
    simp

end

section

variable {σ : Type} {genIndex : (n : Nat) → StateM σ (Fin (n + 1))} {A : List Text → Prop}
  {K : Value → Prop}

private theorem setListAt_iff (h : Value.Hereditary A K) {key : String} {v : Value}
    {xs ys : List Value} (hlist : listAt key v = some xs) (hys : (∀ y ∈ ys, K y) ↔ ∀ x ∈ xs, K x) :
    K (setListAt key ys v) ↔ K v := by
  refine h.modify_iff fun s x hs hx => ?_
  rw [child_of_admits hs] at hx
  rw [listAt, hx, Option.bind_some] at hlist
  cases x with
  | array zs =>
    obtain rfl : zs = xs := Option.some.inj hlist
    rw [h.array, h.array, hys]
  | _ => cases hlist

private theorem shuffleFrom_perm {α : Type} (i : Nat) (xs : Array α) (seed : σ) :
    ((shuffleFrom genIndex i xs) seed).1.Perm xs := by
  induction i generalizing xs seed with
  | zero => exact Array.Perm.refl xs
  | succ i ih =>
    refine (ih _ _).trans ?_
    rw [Array.swapIfInBounds_def]
    split
    · split
      · exact Array.swap_perm _ _
      · exact Array.Perm.refl xs
    · exact Array.Perm.refl xs

theorem shuffle_perm (genIndex : (n : Nat) → StateM σ (Fin (n + 1))) (xs : List Value) (seed : σ) :
    (shuffle genIndex xs seed).1.Perm xs :=
  Array.perm_iff_toList_perm.1 (shuffleFrom_perm (xs.length - 1) xs.toArray seed)

private theorem shuffle_iff (genIndex : (n : Nat) → StateM σ (Fin (n + 1))) (xs : List Value)
    (seed : σ) :
    (∀ y ∈ (shuffle genIndex xs seed).1, K y) ↔ ∀ x ∈ xs, K x :=
  forall_congr' fun _ => imp_congr_left (shuffle_perm genIndex xs seed).mem_iff

private theorem mapM_iff {f : Value → StateM σ Value} (hf : ∀ x seed, K (f x seed).1 ↔ K x)
    (xs : List Value) (seed : σ) :
    (∀ y ∈ (xs.mapM f seed).1, K y) ↔ ∀ x ∈ xs, K x := by
  induction xs generalizing seed with
  | nil => exact Iff.rfl
  | cons x xs ih =>
    rw [List.mapM_cons]
    change (∀ y ∈ (f x seed).1 :: (xs.mapM f (f x seed).2).1, K y) ↔ _
    rw [List.forall_mem_cons, List.forall_mem_cons, hf, ih]

private theorem shuffleQuestion_iff (h : Value.Hereditary A K) (q : Value) (seed : σ) :
    K (shuffleQuestion genIndex q seed).1 ↔ K q := by
  rw [shuffleQuestion]
  split
  · exact Iff.rfl
  · cases hlist : listAt "options" q with
    | none => exact Iff.rfl
    | some options => exact setListAt_iff h hlist (shuffle_iff genIndex options seed)

private theorem shufflePage_iff (h : Value.Hereditary A K) (shuffleOptions : Bool) (page : Value)
    (seed : σ) :
    K (shufflePage genIndex shuffleOptions page seed).1 ↔ K page := by
  rw [shufflePage]
  cases hlist : listAt "questions" page with
  | none => exact Iff.rfl
  | some questions =>
    cases shuffleOptions with
    | false => exact setListAt_iff h hlist (shuffle_iff genIndex questions seed)
    | true =>
      refine setListAt_iff h hlist (Iff.trans ?_ (shuffle_iff genIndex questions seed))
      exact mapM_iff (shuffleQuestion_iff h) _ _

/-- Shuffling keeps what goes by the keys and the values inside. -/
theorem preparedSchema_iff (h : Value.Hereditary A K) (isQuiz : Bool) (schema : Value) (seed : σ) :
    K (preparedSchema genIndex isQuiz schema seed).1 ↔ K (redactAnswerKeys schema) := by
  rw [preparedSchema]
  split
  · rw [shuffleSchema]
    cases hlist : listAt "pages" (redactAnswerKeys schema) with
    | none => exact Iff.rfl
    | some pages => exact setListAt_iff h hlist (mapM_iff (shufflePage_iff h isQuiz) pages seed)
  · exact Iff.rfl

private theorem wellFormed_redactAnswerKeys {floatText : F64 → Text} {schema : Value}
    (h : schema.WellFormed floatText) :
    (redactAnswerKeys schema).WellFormed floatText := by
  rw [redactAnswerKeys_eq]
  refine (hereditary_wellFormed floatText).modifyAll (fun q hq => ?_) h
  cases q with
  | object fields =>
    obtain ⟨hkeys, hvalues⟩ := ((hereditary_wellFormed floatText).object fields).1 hq
    refine ((hereditary_wellFormed floatText).object _).2
      ⟨hkeys.sublist (List.filter_sublist.map _), fun e he => ?_⟩
    exact hvalues e (List.mem_filter.1 he).1
  | _ => exact hq

end

section

variable {σ : Type} {genIndex : (n : Nat) → StateM σ (Fin (n + 1))} {floatText : F64 → Text}
  {baseUrl : BaseUrl} {form : Form}
  {slug discordId displayName : Text} {preview : Bool} {retryStatus : Value}

def bootstrapKeys : List Text :=
  ["base_url".toList, "description".toList, "discord_id".toList, "display_name".toList,
    "guild_id".toList,
    "is_quiz".toList, "preview".toList, "retry".toList, "schema".toList, "slug".toList,
      "title".toList, "version".toList]

private theorem wellFormed_pageBootstrap {schema : Value}
    (hretry : retryStatus.WellFormed floatText) (hschema : schema.WellFormed floatText) :
    (pageBootstrap baseUrl form slug discordId displayName preview retryStatus schema).WellFormed
      floatText := by
  have hsorted : bootstrapKeys.Pairwise (· < ·) := by decide
  have hversion : (Int32.toValue form.version).WellFormed floatText := by
    rw [Int32.toValue, Value.ofI64]
    split <;> exact trivial
  exact ⟨hsorted, trivial, trivial, trivial, trivial, trivial, trivial, trivial, hretry, hschema,
    trivial, trivial, hversion,
    trivial⟩

private theorem mem_strings_pageBootstrap {schema : Value} {s : Text} :
    s ∈ (pageBootstrap baseUrl form slug discordId displayName preview retryStatus schema).strings ↔
      s ∈ bootstrapKeys ∨ s ∈ baseUrl.text :: form.description :: discordId :: displayName ::
        form.guildId :: slug ::
        form.title :: (retryStatus.strings ++ schema.strings) := by
  have hversion : (Int32.toValue form.version).strings = [] := by
    rw [Int32.toValue, Value.ofI64]
    split <;> rfl
  rw [pageBootstrap, Value.strings, Value.mem_memberStrings]
  refine or_congr Iff.rfl ?_
  simp [Value.strings, hversion]
  tauto

private theorem substitute_of_not_occurs {s : Text}
    (hs : ∀ pat ∈ ["__BASE_URL__", "__TITLE__", "__DESCRIPTION__", "__SLUG__"],
      (Pattern.literal pat.toList).occurs s = false) : substitute baseUrl form slug s = s := by
  rw [substitute, Text.replace_of_not_occurs (hs "__BASE_URL__" (by decide)),
    Text.replace_of_not_occurs (hs "__TITLE__" (by decide)),
      Text.replace_of_not_occurs (hs "__DESCRIPTION__" (by decide)),
    Text.replace_of_not_occurs (hs "__SLUG__" (by decide))]

/-- The element of the rendered page, by the strings of its bootstrap. -/
theorem pageDecodes_iff_strings (template : PageTemplate) {bootstrap : Value}
    (hv : bootstrap.WellFormed floatText) :
    PageDecodes floatText
        (substitute baseUrl form slug
          (Text.replace "__BOOTSTRAP__".toList (bootstrap.text floatText) template.text))
            bootstrap ↔
      ∀ s ∈ bootstrap.strings, endTag.occurs s = false ∧
        substitute baseUrl form slug (escape s) = escape s := by
  have hf := rewrites_substitute baseUrl form slug
  have hdecodes : ∀ page, PageDecodes floatText page bootstrap ↔
      elementText page = some (bootstrap.text floatText) :=
    fun page => ⟨PageDecodes.unaltered, fun h => ⟨h, Value.read_text hv⟩⟩
  have hclean : endTag.occurs (bootstrap.text floatText) = false ↔
      ∀ s ∈ bootstrap.strings, endTag.occurs s = false := by
    rw [← Bool.not_eq_true, endTag_text_iff hv]
    simp
  rw [hdecodes, replace_bootstrap, substitute_page hf,
    elementText_page (opensNoScript_rewrite hf template.head_opens),
    elementText_eq_iff hf, hclean, hf.text_iff hv (by decide) rfl (by decide)]
  exact forall₂_and.symm

end

/-- The page decodes just when no string of the bootstrap holds the end tag of a script, and none is
changed by the replacements. -/
theorem page_decodes_iff {σ : Type} (genIndex : (n : Nat) → StateM σ (Fin (n + 1)))
    (floatText : F64 → Text) (template : PageTemplate) (baseUrl : BaseUrl) (form : Form)
    (slug discordId displayName : Text) (preview : Bool) (retryStatus : Value) (seed : σ)
    (hschema : form.schema.WellFormed floatText) (hretry : retryStatus.WellFormed floatText) :
    PageDecodes floatText
        (renderFormPage genIndex floatText template baseUrl form slug discordId displayName preview
          retryStatus seed).1
        (pageBootstrap baseUrl form slug discordId displayName preview retryStatus
          (preparedSchema genIndex form.isQuiz form.schema seed).1) ↔
      ∀ s ∈ pageStrings baseUrl form slug discordId displayName retryStatus,
        endTag.occurs s = false ∧ substitute baseUrl form slug (escape s) = escape s := by
  have hprepared : ((preparedSchema genIndex form.isQuiz form.schema seed).1).WellFormed
      floatText :=
    (preparedSchema_iff (hereditary_wellFormed floatText) _ _ _).2
      (wellFormed_redactAnswerKeys hschema)
  have hstrings : ∀ s, s ∈ ((preparedSchema genIndex form.isQuiz form.schema seed).1).strings ↔
      s ∈ (redactAnswerKeys form.schema).strings :=
    fun s => not_iff_not.1 (preparedSchema_iff (hereditary_notMem_strings s) _ _ _)
  have hkeys : ∀ k ∈ bootstrapKeys, endTag.occurs k = false ∧ escape k = k ∧
      ∀ pat ∈ ["__BASE_URL__", "__TITLE__", "__DESCRIPTION__", "__SLUG__"],
          (Pattern.literal pat.toList).occurs k = false := by
    decide
  refine (pageDecodes_iff_strings template (wellFormed_pageBootstrap hretry hprepared)).trans
    ⟨fun h s hs => ?_, fun h s hs => ?_⟩
  · refine h s (mem_strings_pageBootstrap.2 (Or.inr ?_))
    simpa only [pageStrings, List.mem_cons, List.mem_append, hstrings] using hs
  · rcases mem_strings_pageBootstrap.1 hs with hs | hs
    · obtain ⟨hno, hescape, hpatterns⟩ := hkeys s hs
      rw [hescape]
      exact ⟨hno, substitute_of_not_occurs hpatterns⟩
    · refine h s ?_
      simpa only [pageStrings, List.mem_cons, List.mem_append, hstrings] using hs

/-- A page with its title in the head. -/
def titleTemplate : PageTemplate where
  head := "<title>__TITLE__</title>".toList
  tail := "<h1>__TITLE__</h1>".toList
  head_plain := by decide
  tail_plain := by decide
  head_opens := by decide

def exampleUrl : BaseUrl := ⟨"https://x".toList, by decide, by decide⟩

def titledForm (title : String) : Form :=
  { id := ⟨1, by decide⟩, guildId := "g".toList, slug := "s".toList, title := title.toList,
    schema := .object [] }

theorem page_decodes_iff_plain : PageDecodes (fun _ => [])
    (renderFormPage (σ := Nat) (fun _ state => (0, state + 1))
      (fun _ => []) titleTemplate exampleUrl (titledForm "Quiz")
      "s".toList "1".toList "Ann".toList false .null 0).1
    (pageBootstrap exampleUrl (titledForm "Quiz") "s".toList "1".toList "Ann".toList false .null
      (preparedSchema (σ := Nat) (fun _ state => (0, state + 1)) false (.object []) 0).1) :=
  (page_decodes_iff (σ := Nat) (fun _ state => (0, state + 1))
    (fun _ => []) titleTemplate exampleUrl (titledForm "Quiz")
    "s".toList "1".toList "Ann".toList false .null 0 ⟨List.Pairwise.nil, trivial⟩ trivial).2
      (by decide)

/-- A title that ends the script element. -/
theorem not_page_decodes :
    ¬∀ (genIndex : (n : Nat) → StateM Nat (Fin (n + 1))) (floatText : F64 → Text)
      (template : PageTemplate)
      (baseUrl : BaseUrl) (form : Form) (slug discordId displayName : Text) (preview : Bool)
      (retryStatus : Value) (seed : Nat),
      form.schema.WellFormed floatText → retryStatus.WellFormed floatText →
      PageDecodes floatText
        (renderFormPage genIndex floatText template baseUrl form slug discordId displayName preview
          retryStatus seed).1
        (pageBootstrap baseUrl form slug discordId displayName preview retryStatus
          (preparedSchema genIndex form.isQuiz form.schema seed).1) := by
  intro h
  have hpage := h (fun _ state => (0, state + 1)) (fun _ => []) titleTemplate exampleUrl
    (titledForm "</script>") "s".toList
    "1".toList "Ann".toList false .null 0 ⟨List.Pairwise.nil, trivial⟩ trivial
  have hunread : ((elementText (renderFormPage (fun _ state => (0, state + 1))
    (fun _ => []) titleTemplate exampleUrl
      (titledForm "</script>") "s".toList "1".toList "Ann".toList false
          .null 0).1).bind Value.read).isSome = false := by
    decide +kernel
  rw [hpage.unaltered, Option.bind_some, hpage.reads] at hunread
  cases hunread

end FormRespondentRole
