import FormRespondentRole.Foundations.Search

/-!
# Script elements

The text of a script element, as a reader of HTML finds it: the text goes on to the first end tag of
a script that is not inside a script within a comment.  What of a text belongs to the element is
decided character by character (`ScriptState.step`), so that a text which does not end the element
stands in it as it is (`prefix_elementText_iff`).
-/

namespace Foundations

open Text

/-- Line breaks, as a reader of HTML sees them. -/
def Text.normalizeNewlines : Text → Text
  | [] => []
  | '\r' :: '\n' :: s => '\n' :: normalizeNewlines s
  | c :: s => (if c = '\r' then '\n' else c) :: normalizeNewlines s

/-- The states of the HTML tokenizer in the text of a script.  Tag names are kept in lower case. -/
inductive ScriptState
  | data
  | lessThan
  | endTagOpen
  | endTagName (name : Text)
  | escapeStart
  | escapeStartDash
  | escaped
  | escapedDash
  | escapedDashDash
  | escapedLessThan
  | escapedEndTagOpen
  | escapedEndTagName (name : Text)
  | doubleEscapeStart (name : Text)
  | doubleEscaped
  | doubleEscapedDash
  | doubleEscapedDashDash
  | doubleEscapedLessThan
  | doubleEscapeEnd (name : Text)
deriving DecidableEq

namespace ScriptState

/-- The characters that end a tag's name. -/
def endsName (c : Char) : Bool := c.toNat ∈ [0x09, 0x0A, 0x0C] || c ∈ [' ', '/', '>']

def scriptName : Text := "script".toList

def inData (c : Char) : ScriptState := if c = '<' then lessThan else data

def inEscaped (c : Char) : ScriptState := if c = '-' then escapedDash else if c = '<' then
    escapedLessThan else escaped

def inDoubleEscaped (c : Char) : ScriptState :=
  if c = '-' then doubleEscapedDash else if c = '<' then doubleEscapedLessThan else doubleEscaped

/-- The next state, unless the character ends the name of an end tag of the script. -/
def step : ScriptState → Char → Option ScriptState
  | data, c => some (inData c)
  | lessThan, c => some (if c = '/' then endTagOpen else if c = '!' then escapeStart else inData c)
  | endTagOpen, c => some (if c.isAlpha then endTagName [c.toLower] else inData c)
  | endTagName name, c =>
    if endsName c ∧ name = scriptName then none
    else some (if c.isAlpha then endTagName (name ++ [c.toLower]) else inData c)
  | escapeStart, c => some (if c = '-' then escapeStartDash else inData c)
  | escapeStartDash, c => some (if c = '-' then escapedDashDash else inData c)
  | escaped, c => some (inEscaped c)
  | escapedDash, c => some (if c = '-' then escapedDashDash else inEscaped c)
  | escapedDashDash, c => some (if c = '-' then escapedDashDash else if c = '>' then data
    else inEscaped c)
  | escapedLessThan, c =>
    some (if c = '/' then escapedEndTagOpen else if c.isAlpha then doubleEscapeStart [c.toLower]
      else inEscaped c)
  | escapedEndTagOpen, c => some (if c.isAlpha then escapedEndTagName [c.toLower] else inEscaped c)
  | escapedEndTagName name, c =>
    if endsName c ∧ name = scriptName then none
    else some (if c.isAlpha then escapedEndTagName (name ++ [c.toLower]) else inEscaped c)
  | doubleEscapeStart name, c =>
    some (if endsName c then if name = scriptName then doubleEscaped else escaped
      else if c.isAlpha then doubleEscapeStart (name ++ [c.toLower]) else inEscaped c)
  | doubleEscaped, c => some (inDoubleEscaped c)
  | doubleEscapedDash, c => some (if c = '-' then doubleEscapedDashDash else inDoubleEscaped c)
  | doubleEscapedDashDash, c => some (if c = '-' then doubleEscapedDashDash else if c = '>' then
    data else inDoubleEscaped c)
  | doubleEscapedLessThan, c => some (if c = '/' then doubleEscapeEnd [] else inDoubleEscaped c)
  | doubleEscapeEnd name, c =>
    some (if endsName c then if name = scriptName then escaped else doubleEscaped
      else if c.isAlpha then doubleEscapeEnd (name ++ [c.toLower]) else inDoubleEscaped c)

/-- The state after a text, unless an end tag is found in it. -/
def run (q : ScriptState) (s : Text) : Option ScriptState := s.foldlM step q

/-- The text up to the character that ends the name of the first end tag, and with it. -/
def throughEndTag : ScriptState → Text → Option Text
  | _, [] => none
  | q, c :: s =>
    match q.step c with
    | none => some [c]
    | some q' => (throughEndTag q' s).map (c :: ·)

/-- The text before the first end tag, or all of it if there is none. -/
def elementText (q : ScriptState) (s : Text) : Text :=
  match q.throughEndTag s with
  | none => s
  | some t => t.take (t.length - "</script>".length)

example : elementText data "a < '</script'; <!-- <script> </script> </SCRIPT > b".toList =
    "a < '</script'; <!-- <script> </script> ".toList := by decide

/-- How many characters of an end tag have been read. -/
def tagLength : ScriptState → Nat
  | lessThan | escapedLessThan => 1
  | endTagOpen | escapedEndTagOpen => 2
  | endTagName name | escapedEndTagName name => 2 + name.length
  | _ => 0

variable {q q' : ScriptState} {c : Char} {a b s t : Text}

theorem run_append (q : ScriptState) (a b : Text) :
    q.run (a ++ b) = (q.run a).bind fun q' => q'.run b :=
  List.foldlM_append

theorem tagLength_step (h : q.step c = some q') : q'.tagLength ≤ q.tagLength + 1 := by
  cases q <;> grind [step, tagLength, inData, inEscaped, inDoubleEscaped]

theorem tagLength_end (h : q.step c = none) : q.tagLength = 8 := by
  cases q with
  | endTagName name | escapedEndTagName name =>
    simp only [step, ite_eq_left_iff, reduceCtorEq, imp_false, not_not] at h
    rw [tagLength, h.2]
    rfl
  | _ => cases h

/-- A quote ends what has been read of a tag, and no element. -/
theorem step_quote (q : ScriptState) : ∃ q', q.step '\'' = some q' ∧ q'.tagLength = 0 := by
  cases q <;> exact ⟨_, rfl, rfl⟩

theorem run_append_quote (q : ScriptState) (a : Text) :
    (q.run a = none ∧ q.run (a ++ ['\'']) = none) ∨ ∃ q', q.run (a ++ ['\'']) = some q' ∧
      q'.tagLength = 0 := by
  rw [run_append]
  cases q.run a with
  | none => exact Or.inl ⟨rfl, rfl⟩
  | some q₁ =>
    obtain ⟨q', hstep, hlength⟩ := step_quote q₁
    refine Or.inr ⟨q', ?_, hlength⟩
    rw [Option.bind_some, run, List.foldlM_cons, hstep]
    rfl

theorem run_data (hs : '<' ∉ s) : data.run s = some data := by
  induction s with
  | nil => rfl
  | cons c s ih =>
    rw [List.mem_cons, not_or] at hs
    rw [run, List.foldlM_cons, step, inData, if_neg (Ne.symm hs.1)]
    exact ih hs.2

/-! ### The element -/

theorem throughEndTag_append (h : q.run a = some q') (b : Text) :
    q.throughEndTag (a ++ b) = (q'.throughEndTag b).map (a ++ ·) := by
  induction a generalizing q with
  | nil =>
    cases h
    exact (congrFun Option.map_id _).symm
  | cons c a ih =>
    rw [run, List.foldlM_cons] at h
    obtain ⟨q₁, hstep, hrun⟩ := Option.bind_eq_some_iff.1 h
    rw [List.cons_append, throughEndTag, hstep]
    simp only [ih hrun, Option.map_map]
    rfl

theorem throughEndTag_of_run_eq_none (h : q.run a = none) (b : Text) :
    ∃ t, q.throughEndTag (a ++ b) = some t ∧ t ≠ [] ∧ t <+: a := by
  induction a generalizing q with
  | nil => cases h
  | cons c a ih =>
    rw [run, List.foldlM_cons] at h
    rw [List.cons_append, throughEndTag]
    cases hstep : q.step c with
    | none => exact ⟨[c], rfl, List.cons_ne_nil _ _, a, rfl⟩
    | some q₁ =>
      rw [hstep] at h
      obtain ⟨t, ht, -, hprefix⟩ := ih h
      refine ⟨c :: t, ?_, List.cons_ne_nil _ _, List.cons_prefix_cons.2 ⟨rfl, hprefix⟩⟩
      simp only [ht, Option.map_some]

/-- An end tag is read from its first character on. -/
theorem le_length_throughEndTag (h : q.throughEndTag s = some t) :
    "</script>".length ≤ t.length + q.tagLength := by
  induction s generalizing q t with
  | nil => cases h
  | cons c s ih =>
    rw [throughEndTag] at h
    cases hstep : q.step c with
    | none =>
      rw [hstep] at h
      cases h
      rw [tagLength_end hstep, List.length_singleton]
      decide
    | some q₁ =>
      rw [hstep] at h
      obtain ⟨t', ht', rfl⟩ := Option.map_eq_some_iff.1 h
      have hle := ih ht'
      have hstep' := tagLength_step hstep
      rw [List.length_cons]
      omega

private theorem prefix_of_throughEndTag (h : q.throughEndTag s = some t) : t <+: s := by
  induction s generalizing q t with
  | nil => cases h
  | cons c s ih =>
    rw [throughEndTag] at h
    cases hstep : q.step c with
    | none =>
      rw [hstep] at h
      cases h
      exact ⟨s, rfl⟩
    | some q₁ =>
      rw [hstep] at h
      obtain ⟨t', ht', rfl⟩ := Option.map_eq_some_iff.1 h
      exact List.cons_prefix_cons.2 ⟨rfl, ih ht'⟩

theorem elementText_prefix (q : ScriptState) (s : Text) : q.elementText s <+: s := by
  rw [elementText]
  cases h : q.throughEndTag s with
  | none => exact List.prefix_rfl
  | some t => exact (List.take_prefix _ t).trans (prefix_of_throughEndTag h)

/-- A text with a quote after it stands in the element just when it does not end it. -/
theorem prefix_elementText_iff (q : ScriptState) (a b : Text) :
    a ++ ['\''] <+: q.elementText (a ++ '\'' :: b) ↔ q.run a ≠ none := by
  rw [List.append_cons a _ b, elementText]
  rcases run_append_quote q a with ⟨hnone, hquote⟩ | ⟨q', hquote, hlength⟩
  · obtain ⟨t, ht, hne, hprefix⟩ := throughEndTag_of_run_eq_none hquote b
    refine iff_of_false (fun h => ?_) fun h => h hnone
    rw [ht] at h
    have hle := h.length_le
    have hshort := hprefix.length_le
    have hpos := List.length_pos_iff.2 hne
    have htag : 0 < "</script>".length := by decide
    rw [List.length_take] at hle
    omega
  · have hrun : q.run a ≠ none := fun h => by
      rw [run_append, h] at hquote
      cases hquote
    refine iff_of_true ?_ hrun
    rw [throughEndTag_append hquote]
    cases hend : q'.throughEndTag b with
    | none => exact List.prefix_append _ _
    | some t =>
      have hle := le_length_throughEndTag hend
      have hsum : (a ++ ['\''] ++ t).length = (a ++ ['\'']).length + t.length := List.length_append
      refine List.prefix_take_iff.2 ⟨List.prefix_append _ t, ?_⟩
      change (a ++ ['\'']).length ≤ (a ++ ['\''] ++ t).length - "</script>".length
      omega

end ScriptState

/-! ### Line breaks -/

theorem Text.notMem_normalizeNewlines (s : Text) : '\r' ∉ normalizeNewlines s := by
  fun_induction normalizeNewlines s with
  | case1 => exact List.not_mem_nil
  | case2 s ih => simpa using ih
  | case3 c s hpair ih =>
    rw [List.mem_cons, not_or]
    refine ⟨?_, ih⟩
    split
    · decide
    · exact Ne.symm ‹_›

theorem Text.normalizeNewlines_append {a : Text} (ha : '\r' ∉ a) (b : Text) :
    normalizeNewlines (a ++ b) = a ++ normalizeNewlines b := by
  induction a with
  | nil => rfl
  | cons c a ih =>
    rw [List.mem_cons, not_or] at ha
    rw [List.cons_append, normalizeNewlines, if_neg (Ne.symm ha.1), ih ha.2, List.cons_append]
    exact fun _ hc => absurd hc.symm ha.1

/-! ### The script of a page -/

def scriptStart : Text := "<script>".toList

def nullChar : Char := Char.ofNat 0

/-- What a null character is read as. -/
def replacementChar : Char := Char.ofNat 0xFFFD

/-- The text of the first script element of a page. -/
def scriptText (page : Text) : Option Text :=
  ((Pattern.literal scriptStart).after (normalizeNewlines page)).map fun s =>
    (ScriptState.data.elementText s).map fun c => if c = nullChar then replacementChar else c

private def readChar (c : Char) : Char := if c = nullChar then replacementChar else c

private theorem mem_readChar {s : Text} {c : Char} (hc : c ∈ s.map readChar) :
    c ≠ nullChar ∧ (c = replacementChar ∨ c ∈ s) := by
  obtain ⟨d, hd, rfl⟩ := List.mem_map.1 hc
  rw [readChar]
  split
  · exact ⟨by decide, Or.inl rfl⟩
  · exact ⟨‹_›, Or.inr hd⟩

private theorem map_readChar {s : Text} (hs : nullChar ∉ s) : s.map readChar = s :=
  (List.map_congr_left fun _ hc => if_neg (ne_of_mem_of_not_mem hc hs)).trans (List.map_id s)

theorem scriptText_eq {head : Text} (hcr : '\r' ∉ head)
    (hfirst : (Pattern.literal scriptStart).occurs head = false) (s : Text) :
    scriptText (head ++ (scriptStart ++ s)) =
      some ((ScriptState.data.elementText (normalizeNewlines s)).map fun c => if c = nullChar then
        replacementChar else c) := by
  have hafter : (Pattern.literal scriptStart).after (head ++ (scriptStart ++ normalizeNewlines s)) =
      some (normalizeNewlines s) :=
    Pattern.after_append_match (Pattern.separates_literal (by decide)) hfirst
      (Pattern.matchesHead_literal_self scriptStart _)
  rw [scriptText, normalizeNewlines_append hcr, normalizeNewlines_append (by decide), hafter,
    Option.map_some]

/-- A text with a quote after it begins the script just when it has no character that is read as
another, and does not end the element. -/
theorem exists_scriptText_iff {head : Text} (hcr : '\r' ∉ head)
    (hfirst : (Pattern.literal scriptStart).occurs head = false) (a b : Text) :
    (∃ rest, scriptText (head ++ (scriptStart ++ (a ++ '\'' :: b))) = some (a ++ '\'' :: rest)) ↔
      (∀ c ∈ a, c ∉ ['\r', nullChar]) ∧ ScriptState.data.run a ≠ none := by
  rw [scriptText_eq hcr hfirst]
  change (∃ rest, some
    ((ScriptState.data.elementText (normalizeNewlines (a ++ '\'' :: b))).map readChar) = _) ↔ _
  -- what the element begins with is what the page has
  have hbegins : '\r' ∉ a → normalizeNewlines (a ++ '\'' :: b) = a ++ '\'' :: normalizeNewlines b :=
      fun ha => by
    rw [List.append_cons, normalizeNewlines_append (by simp [ha]), List.append_assoc]
    rfl
  constructor
  · rintro ⟨rest, h⟩
    have hmap := Option.some.inj h
    have hread : ∀ c ∈ a, c ≠ nullChar ∧
        (c = replacementChar ∨ c ∈ normalizeNewlines (a ++ '\'' :: b)) := fun c hc => by
      have hmem : c ∈ (ScriptState.data.elementText (normalizeNewlines (a ++ '\'' :: b))).map
          readChar := by
        rw [hmap]
        exact List.mem_append_left _ hc
      obtain ⟨hnull, hc⟩ := mem_readChar hmem
      exact ⟨hnull, hc.imp_right fun hc => (ScriptState.elementText_prefix _ _).subset hc⟩
    have hreturn : '\r' ∉ a := fun hc => by
      rcases (hread _ hc).2 with hrep | hmem
      · exact absurd hrep (by decide)
      · exact notMem_normalizeNewlines _ hmem
    have hnull : nullChar ∉ a := fun hc => (hread _ hc).1 rfl
    refine ⟨fun c hc => ?_, ?_⟩
    · rw [List.mem_pair, not_or]
      exact ⟨ne_of_mem_of_not_mem hc hreturn, (hread c hc).1⟩
    · rw [hbegins hreturn] at hmap
      rw [← ScriptState.prefix_elementText_iff _ a (normalizeNewlines b)]
      have hprefix := ScriptState.elementText_prefix .data (a ++ '\'' :: normalizeNewlines b)
      refine List.prefix_of_prefix_length_le ⟨normalizeNewlines b, by simp⟩ hprefix ?_
      have hlength := congrArg List.length hmap
      simp only [List.length_map, List.length_append, List.length_cons,
        List.length_nil] at hlength ⊢
      omega
  · rintro ⟨hplain, hrun⟩
    have hreturn : '\r' ∉ a := fun hc => hplain _ hc (by simp)
    have hnull : nullChar ∉ a := fun hc => hplain _ hc (by simp)
    rw [hbegins hreturn]
    obtain ⟨rest, hrest⟩ := (ScriptState.prefix_elementText_iff _ a (normalizeNewlines b)).2 hrun
    refine ⟨rest.map readChar, ?_⟩
    rw [← hrest, List.map_append, map_readChar (by simp [hnull]; decide), List.append_assoc]
    rfl

end Foundations
