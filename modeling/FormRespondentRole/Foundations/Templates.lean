import FormRespondentRole.Foundations.Search

/-!
# Templates

A template is a text with named places.  Values are put into them by one replacement after the
other, each on the whole text, so that a replacement may meet its name in a value that an earlier
one has put in.  When the cells of the template are fenced by characters of no name, that is the
only way in which the result differs from the template with every value in its places
(`Ready.untouched_iff`, `Ready.replaceEach_eq_fill`).
-/

namespace Foundations

open Pattern

/-- One replacement after the other. -/
def Text.replaceEach : List (Text × Text) → Text → Text
  | [], s => s
  | (name, value) :: subs, s => replaceEach subs (replace name value s)

/-- No replacement finds more matches than the template has. -/
def Text.Untouched (template : Text) : List (Text × Text) → Text → Prop
  | [], _ => True
  | (name, value) :: subs, s =>
    matchCount name s = matchCount name template ∧ Untouched template subs (replace name value s)

/-- What stands between two fences of a template. -/
inductive Cell
  | text (s : Text)
  | place (name : Text)
  | value (s : Text)
deriving DecidableEq

namespace Cell

def written : Cell → Text
  | text s | place s | value s => s

def put (name value : Text) : Cell → Cell
  | place n => if n = name then .value value else place n
  | c => c

/-- The name stands in the cell only as that of its place. -/
def Plain (name : Text) : Cell → Prop
  | text s => (literal name).occurs s = false
  | place n => n = name ∨ (literal name).occurs n = false
  | value _ => True

instance (name : Text) : DecidablePred (Plain name)
  | text s => inferInstanceAs (Decidable ((literal name).occurs s = false))
  | place n => inferInstanceAs (Decidable (n = name ∨ (literal name).occurs n = false))
  | value _ => inferInstanceAs (Decidable True)

def value? : Cell → Option Text
  | value s => some s
  | _ => none

end Cell

/-- The cells, each with the fence that follows it. -/
abbrev Template := List (Cell × Char)

namespace Template

def written (t : Template) : Text := t.flatMap fun e => e.1.written ++ [e.2]

def put (name value : Text) (t : Template) : Template := t.map fun e => (e.1.put name value, e.2)

/-- Every value in its places. -/
def fill : List (Text × Text) → Template → Template
  | [], t => t
  | (name, value) :: subs, t => fill subs (t.put name value)

def values (t : Template) : List Text := t.filterMap fun e => e.1.value?

def places (name : Text) (t : Template) : Nat := t.countP fun e => decide (e.1 = .place name)

def Fenced (name : Text) (t : Template) : Prop := ∀ e ∈ t, e.2 ∉ name ∧ e.1.Plain name

instance (name : Text) (t : Template) : Decidable (t.Fenced name) :=
  inferInstanceAs (Decidable (∀ e ∈ t, e.2 ∉ name ∧ e.1.Plain name))

/-- The names are in none of the values that are put in before them. -/
def Clear : List (Text × Text) → List Text → Prop
  | [], _ => True
  | (name, value) :: subs, vs => (∀ u ∈ vs, (literal name).occurs u = false) ∧
    Clear subs (value :: vs)

variable {name value : Text} {e : Cell × Char} {t : Template}

theorem written_cons (e : Cell × Char) (t : Template) :
    written (e :: t) = e.1.written ++ e.2 :: written t := by
  rw [written, List.flatMap_cons, List.append_assoc]
  rfl

theorem values_cons (e : Cell × Char) (t : Template) :
    values (e :: t) = e.1.value?.toList ++ values t := by
  rw [values, List.filterMap_cons]
  cases e.1.value? <;> rfl

theorem places_cons (name : Text) (e : Cell × Char) (t : Template) :
    places name (e :: t) = places name t + if e.1 = .place name then 1 else 0 := by
  rw [places, List.countP_cons]
  simp only [decide_eq_true_eq]
  rfl

theorem fenced_cons : Fenced name (e :: t) ↔ (e.2 ∉ name ∧ e.1.Plain name) ∧ Fenced name t :=
  List.forall_mem_cons

/-! ### One replacement -/

private theorem replace_cell (hname : name ≠ []) {c : Cell} (hplain : c.Plain name)
    (hclear : ∀ u, c.value? = some u → (literal name).occurs u = false) :
    Text.replace name value c.written = (c.put name value).written := by
  cases c with
  | text s => exact Text.replace_of_not_occurs hplain
  | value u => exact Text.replace_of_not_occurs (hclear u rfl)
  | place n =>
    by_cases hn : n = name
    · have hmatch := Text.replace_match hname value []
      rw [List.append_nil] at hmatch
      rw [Cell.put, if_pos hn, Cell.written, hn, hmatch]
      exact List.append_nil value
    · rw [Cell.put, if_neg hn]
      exact Text.replace_of_not_occurs (hplain.resolve_left hn)

theorem mem_values : ∀ {u : Text}, u ∈ t.values ↔ ∃ e ∈ t, e.1.value? = some u := List.mem_filterMap

/-- A replacement puts its value into the places of its name, if the name is in no value. -/
theorem replace_written (hname : name ≠ []) (ht : t.Fenced name)
    (hclear : ∀ u ∈ t.values, (literal name).occurs u = false) :
    Text.replace name value t.written = (t.put name value).written := by
  induction t with
  | nil => rfl
  | cons e t ih =>
    obtain ⟨⟨hfence, hplain⟩, ht⟩ := fenced_cons.1 ht
    have hcell : Text.replace name value e.1.written = (e.1.put name value).written :=
      replace_cell hname hplain fun u hu => hclear u (mem_values.2 ⟨e, List.mem_cons_self, hu⟩)
    have hrest := ih ht fun u hu => by
      obtain ⟨e', he', hu⟩ := mem_values.1 hu
      exact hclear u (mem_values.2 ⟨e', List.mem_cons_of_mem _ he', hu⟩)
    rw [written_cons, Text.replace_append_sep hname hfence, hcell, hrest]
    exact (written_cons (e.1.put name value, e.2) (put name value t)).symm

/-- A replacement finds the places of its name, and what of it is in the values. -/
theorem matchCount_written (hname : name ≠ []) (ht : t.Fenced name) :
    Text.matchCount name t.written = t.places name + (t.values.map (Text.matchCount name)).sum := by
  induction t with
  | nil => rfl
  | cons e t ih =>
    obtain ⟨⟨hfence, hplain⟩, hrest⟩ := fenced_cons.1 ht
    obtain ⟨c, d⟩ := e
    rw [written_cons, Text.matchCount_append_sep hname hfence, ih hrest, places_cons, values_cons]
    cases c with
    | text s =>
      have hnone : Text.matchCount name s = 0 := (Text.matchCount_eq_zero_iff hname).2 hplain
      simp [Cell.written, Cell.value?, hnone]
    | value u =>
      simp [Cell.written, Cell.value?]
      omega
    | place n =>
      by_cases hn : n = name
      · simp [Cell.written, Cell.value?, hn, Text.matchCount_self hname]
        omega
      · have hnone : Text.matchCount name n = 0 :=
          (Text.matchCount_eq_zero_iff hname).2 (hplain.resolve_left hn)
        simp [Cell.written, Cell.value?, hn, hnone]

/-! ### All replacements -/

private theorem value?_put_iff {c : Cell} {u : Text} :
    (c.put name value).value? = some u ↔ c.value? = some u ∨ (u = value ∧ c = .place name) := by
  cases c with
  | place n =>
    by_cases hn : n = name
    · simp [Cell.put, Cell.value?, hn, eq_comm]
    · simp [Cell.put, Cell.value?, hn]
  | _ => simp [Cell.put]

private theorem put_eq_place_iff {c : Cell} {n : Text} (hn : n ≠ name) :
    c.put name value = .place n ↔ c = .place n := by
  cases c with
  | place m =>
    by_cases hm : m = name
    · simp [Cell.put, hm, hn.symm]
    · simp [Cell.put, hm]
  | _ => simp [Cell.put]

theorem values_put_iff {u : Text} :
    u ∈ (t.put name value).values ↔ u ∈ t.values ∨ (u = value ∧ 0 < t.places name) := by
  have hplace : 0 < t.places name ↔ ∃ e ∈ t, e.1 = .place name := by
    simp only [places, List.countP_pos_iff, decide_eq_true_eq]
  have hput : (∃ e ∈ t.put name value, e.1.value? = some u) ↔
      ∃ e ∈ t, (e.1.put name value).value? = some u := by
    simp only [put, List.mem_map, exists_exists_and_eq_and]
  rw [mem_values, mem_values, hplace, hput]
  simp only [value?_put_iff]
  constructor
  · rintro ⟨e, he, hu | ⟨hu, hn⟩⟩
    · exact Or.inl ⟨e, he, hu⟩
    · exact Or.inr ⟨hu, e, he, hn⟩
  · rintro (⟨e, he, hu⟩ | ⟨hu, e, he, hn⟩)
    · exact ⟨e, he, Or.inl hu⟩
    · exact ⟨e, he, Or.inr ⟨hu, hn⟩⟩

theorem places_put {n : Text} (hn : n ≠ name) : (t.put name value).places n = t.places n := by
  rw [places, places, put, List.countP_map]
  exact List.countP_congr fun e _ => by simp [put_eq_place_iff hn]

theorem fenced_put {n : Text} (ht : t.Fenced n) : (t.put name value).Fenced n := by
  intro e he
  obtain ⟨⟨c, d⟩, hmem, rfl⟩ := List.mem_map.1 he
  obtain ⟨hfence, hplain⟩ := ht _ hmem
  refine ⟨hfence, ?_⟩
  cases c with
  | place m =>
    by_cases hm : m = name
    · simp [Cell.put, Cell.Plain, hm]
    · simpa [Cell.put, hm] using hplain
  | _ => exact hplain

/-- The cells are fenced for the names that are still to be replaced, which have their places, and
hold these values. -/
structure Ready (template : Text) (subs : List (Text × Text)) (t : Template)
    (vs : List Text) : Prop where
  distinct : (subs.map Prod.fst).Nodup
  nonempty : ∀ e ∈ subs, e.1 ≠ []
  fenced : ∀ e ∈ subs, t.Fenced e.1
  places : ∀ e ∈ subs, t.places e.1 = Text.matchCount e.1 template ∧ 0 < t.places e.1
  values : ∀ u, u ∈ t.values ↔ u ∈ vs

/-- A template without values is ready. -/
theorem ready {subs : List (Text × Text)} (hdistinct : (subs.map Prod.fst).Nodup)
    (hnonempty : ∀ e ∈ subs, e.1 ≠ []) (hfenced : ∀ e ∈ subs, t.Fenced e.1)
    (hplaces : ∀ e ∈ subs, 0 < t.places e.1) (hvalues : t.values = []) :
    Ready t.written subs t [] where
  distinct := hdistinct
  nonempty := hnonempty
  fenced := hfenced
  places e he := by
    rw [matchCount_written (hnonempty e he) (hfenced e he), hvalues]
    exact ⟨rfl, hplaces e he⟩
  values u := by rw [hvalues]

namespace Ready

variable {template : Text} {subs : List (Text × Text)} {vs : List Text}

theorem put (h : Ready template ((name, value) :: subs) t vs) :
    Ready template subs (t.put name value) (value :: vs) where
  distinct := (List.nodup_cons.1 h.distinct).2
  nonempty e he := h.nonempty e (List.mem_cons_of_mem _ he)
  fenced e he := fenced_put (h.fenced e (List.mem_cons_of_mem _ he))
  places e he := by
    have hne : e.1 ≠ name := by
      intro hname
      exact (List.nodup_cons.1 h.distinct).1 (List.mem_map.2 ⟨e, he, hname⟩)
    rw [places_put hne]
    exact h.places e (List.mem_cons_of_mem _ he)
  values u := by
    rw [values_put_iff, h.values, and_iff_left (h.places _ List.mem_cons_self).2, List.mem_cons,
      or_comm]

private theorem count_iff (h : Ready template ((name, value) :: subs) t vs) :
    Text.matchCount name t.written = Text.matchCount name template ↔
      ∀ u ∈ vs, (literal name).occurs u = false := by
  have hname := h.nonempty _ List.mem_cons_self
  rw [matchCount_written hname (h.fenced _ List.mem_cons_self), ← (h.places _ List.mem_cons_self).1,
    Nat.add_eq_left,
    List.sum_eq_zero_iff, List.forall_mem_map]
  exact forall_congr' fun u => imp_congr (h.values u) (Text.matchCount_eq_zero_iff hname)

/-- No replacement meets its name in a value just when the values are clear of the names. -/
theorem untouched_iff (h : Ready template subs t vs) : Text.Untouched template subs t.written ↔
    Clear subs vs := by
  induction subs generalizing t vs with
  | nil => exact Iff.rfl
  | cons e subs ih =>
    obtain ⟨name, value⟩ := e
    rw [Text.Untouched, Clear, h.count_iff]
    refine and_congr_right fun hclear => ?_
    have hname := h.nonempty _ List.mem_cons_self
    rw [replace_written hname (h.fenced _ List.mem_cons_self) fun u hu =>
      hclear u ((h.values u).1 hu)]
    exact ih h.put

/-- Then every value ends up in its places, as it is. -/
theorem replaceEach_eq_fill (h : Ready template subs t vs) (hclear : Clear subs vs) :
    Text.replaceEach subs t.written = (fill subs t).written := by
  induction subs generalizing t vs with
  | nil => rfl
  | cons e subs ih =>
    obtain ⟨name, value⟩ := e
    have hname := h.nonempty _ List.mem_cons_self
    rw [Text.replaceEach, fill,
      replace_written hname (h.fenced _ List.mem_cons_self) fun u hu =>
        hclear.1 u ((h.values u).1 hu)]
    exact ih h.put hclear.2

end Ready

end Template

end Foundations
