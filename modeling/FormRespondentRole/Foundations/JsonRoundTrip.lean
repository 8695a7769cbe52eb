import FormRespondentRole.Foundations.JsonText

/-!
# What is written is read

Reading the text of a well-formed value gives the value (`read_text`).
-/

namespace Foundations

open Text

namespace Value

/-! ## Strings -/

private theorem eq_ofNat {c : Char} {n : Nat} (h : c.toNat = n) : c = Char.ofNat n := by
  rw [← h, Char.ofNat_toNat]

private theorem hexVal_digitChar {n : Nat} (h : n < 16) : hexVal (Nat.digitChar n) = some n := by
  have hall : ∀ d : Fin 16, hexVal (Nat.digitChar d) = some d.1 := by decide
  exact hall ⟨n, h⟩

private theorem readString_escapeChar (c : Char) (s : Text) :
    readString none (escapeChar c ++ s) = (readString none s).map fun r => (c :: r.1, r.2) := by
  unfold escapeChar
  split
  · rename_i h
    subst h
    rfl
  split
  · rename_i h
    subst h
    rfl
  split
  · rename_i h
    rw [eq_ofNat h]
    rfl
  split
  · rename_i h
    rw [eq_ofNat h]
    rfl
  split
  · rename_i h
    rw [eq_ofNat h]
    rfl
  split
  · rename_i h
    rw [eq_ofNat h]
    rfl
  split
  · rename_i h
    rw [eq_ofNat h]
    rfl
  split
  · rename_i h
    -- a control character is written in four hexadecimal digits
    have hhigh := hexVal_digitChar (n := c.toNat / 16) (by omega)
    have hlow := hexVal_digitChar (n := c.toNat % 16) (by omega)
    have hunit : (0 * 16 + 0) * 256 + (c.toNat / 16 * 16 + c.toNat % 16) = c.toNat := by omega
    have hzero : hexVal '0' = some 0 := rfl
    have hhex : hex4 '0' '0' (Nat.digitChar (c.toNat / 16)) (Nat.digitChar (c.toNat % 16)) =
        some c.toNat := by
      rw [hex4, hzero, hhigh, hlow]
      exact congrArg some hunit
    have hscalar : ¬ (0xD800 ≤ c.toNat ∧ c.toNat < 0xDC00) := by omega
    have hscalar' : ¬ (0xDC00 ≤ c.toNat ∧ c.toNat < 0xE000) := by omega
    simp only [List.cons_append, List.nil_append]
    rw [readString, hhex]
    simp only [Option.bind_eq_bind, Option.bind_some, if_neg hscalar, if_neg hscalar',
      Char.ofNat_toNat]
  · -- any other character stands for itself
    rename_i hquote hback _ _ _ _ _ hctl
    rw [List.singleton_append, readString]
    · rw [if_neg hctl]
    · intro h; exact hquote h
    · intro _ _ _ _ _ h; exact absurd h hback
    · intro _ _ h; exact absurd h hback

theorem readString_escape (s rest : Text) :
    readString none (escape s ++ '"' :: rest) = some (s, rest) := by
  induction s with
  | nil => rfl
  | cons c s ih =>
    rw [escape, List.flatMap_cons, List.append_assoc, readString_escapeChar, ← escape, ih]
    rfl

/-! ## Numbers -/

variable {floatText : F64 → Text}

/-- The text does not go on with a number. -/
def NumberEnds (rest : Text) : Prop := ∀ c s, rest = c :: s → isNumberChar c = false

theorem numberEnds_cons {c : Char} {s : Text} (h : isNumberChar c = false) :
    NumberEnds (c :: s) := by
  intro d t heq
  rw [← (List.cons.inj heq).1]
  exact h

private theorem splitNumber {t rest : Text} (ht : ∀ c ∈ t, isNumberChar c = true)
    (hrest : NumberEnds rest) :
    (t ++ rest).takeWhile isNumberChar = t ∧ (t ++ rest).dropWhile isNumberChar = rest := by
  rw [List.takeWhile_append_of_pos ht, List.dropWhile_append_of_pos ht]
  cases rest with
  | nil => exact ⟨List.append_nil t, rfl⟩
  | cons c s =>
    have hc : ¬ isNumberChar c = true := by
      rw [hrest c s rfl]
      exact Bool.false_ne_true
    rw [List.takeWhile_cons_of_neg hc, List.dropWhile_cons_of_neg hc]
    exact ⟨List.append_nil t, rfl⟩

private theorem digits_ofNat (n : Nat) :
    (ofNat n).takeWhile Char.isDigit = ofNat n ∧ (ofNat n).dropWhile Char.isDigit = [] := by
  have hall : ∀ c ∈ ofNat n, c.isDigit = true := fun c hc => isDigit_of_mem_ofNat hc
  exact ⟨List.takeWhile_eq_self_iff.2 hall, List.dropWhile_eq_nil_iff.2 hall⟩

private theorem isWhole_ofNat (n : Nat) : isWhole (ofNat n) = true := by
  rw [isWhole, decide_eq_true (ofNat_ne_nil n), Bool.true_and]
  by_cases hn : n = 0
  · subst hn
    rfl
  · rw [Bool.or_eq_true]
    right
    simpa using head?_ofNat hn

theorem readNumber_text {n : Number} (hn : n.Readable floatText) :
    readNumber (n.text floatText) = some n := by
  cases n with
  | posInt n h =>
    obtain ⟨htake, hdrop⟩ := digits_ofNat n
    have hunsigned : readUnsigned (ofNat n) = some (.posInt n h) := by
      have hlt : digitsValue 0 (ofNat n) < 2 ^ 64 := by rw [digitsValue_ofNat]; exact h
      rw [readUnsigned, dif_pos hlt]
      simp only [digitsValue_ofNat]
    rw [Number.text, readNumber]
    · simp only [htake, hdrop, isWhole_ofNat, hunsigned, Bool.not_true, if_neg Bool.false_ne_true,
        if_true]
    · intro s hs
      have hminus : ('-' : Char).isDigit = true :=
        isDigit_of_mem_ofNat (n := n) (hs ▸ List.mem_cons_self)
      exact absurd hminus (by decide)
  | negInt z h =>
    obtain ⟨m, rfl⟩ : ∃ m : Nat, z = Int.negSucc m := Int.eq_negSucc_of_lt_zero h.2
    obtain ⟨htake, hdrop⟩ := digits_ofNat (m + 1)
    have hnegative : readNegative (ofNat (m + 1)) = some (.negInt (Int.negSucc m) h) := by
      have hbound : 0 < digitsValue 0 (ofNat (m + 1)) ∧ digitsValue 0 (ofNat (m + 1)) ≤ 2 ^ 63 := by
        rw [digitsValue_ofNat]
        omega
      rw [readNegative, dif_pos hbound]
      simp only [digitsValue_ofNat]
      rfl
    rw [Number.text, ofInt, readNumber]
    simp only [htake, hdrop, isWhole_ofNat, hnegative, Bool.not_true, if_neg Bool.false_ne_true,
      if_true]
  | float x h => exact hn.2

theorem isNumberChar_of_mem_text {n : Number} (hn : n.Readable floatText) {c : Char}
    (hc : c ∈ n.text floatText) :
    isNumberChar c = true := by
  cases n with
  | posInt n h =>
    rw [isNumberChar, isDigit_of_mem_ofNat hc, Bool.true_or]
  | negInt z h =>
    rcases isDigit_or_eq_minus_of_mem_ofInt hc with hdigit | hminus
    · rw [isNumberChar, hdigit, Bool.true_or]
    · rw [hminus]
      rfl
  | float x h => exact hn.1 c hc

/-! ## Values -/

/-- A character that the text of a value begins with. -/
private def Starts (c : Char) : Prop := isNumberChar c = true ∨ c ∈ ['"', '[', '{', 'n', 't', 'f']

private theorem starts_of_number {n : Number} (hn : n.Readable floatText) :
    ∃ c s, n.text floatText = c :: s ∧ isNumberChar c = true := by
  have hread := readNumber_text hn
  have hchars : ∀ c ∈ n.text floatText, isNumberChar c = true :=
    fun c hc => isNumberChar_of_mem_text hn hc
  cases htext : n.text floatText with
  | nil =>
    rw [htext] at hread
    cases hread
  | cons c s =>
    rw [htext] at hchars
    exact ⟨c, s, rfl, hchars c List.mem_cons_self⟩

private theorem text_starts {v : Value} (hv : v.WellFormed floatText) :
    ∃ c s, v.text floatText = c :: s ∧ Starts c := by
  match v with
  | .null => exact ⟨'n', _, rfl, Or.inr (by decide)⟩
  | .bool true => exact ⟨'t', _, rfl, Or.inr (by decide)⟩
  | .bool false => exact ⟨'f', _, rfl, Or.inr (by decide)⟩
  | .number n =>
    obtain ⟨c, s, htext, hc⟩ := starts_of_number hv
    exact ⟨c, s, by rw [← htext]; exact List.append_nil _, Or.inl hc⟩
  | .string s => exact ⟨'"', _, rfl, Or.inr (by decide)⟩
  | .array [] => exact ⟨'[', _, rfl, Or.inr (by decide)⟩
  | .array (x :: xs) => exact ⟨'[', _, text_array_cons floatText x xs, Or.inr (by decide)⟩
  | .object [] => exact ⟨'{', _, rfl, Or.inr (by decide)⟩
  | .object ((k, x) :: fields) =>
    exact ⟨'{', _, text_object_cons floatText k x fields, Or.inr (by decide)⟩

private theorem skipWs_of_not {c : Char} {s : Text}
    (h : (c = ' ' || c = '\t' || c = '\n' || c = '\r') = false) :
    skipWs (c :: s) = c :: s := by
  rw [skipWs, List.dropWhile_cons_of_neg]
  rw [h]
  exact Bool.false_ne_true

private theorem not_ws_of_starts {c : Char} (h : Starts c) :
    (c = ' ' || c = '\t' || c = '\n' || c = '\r') = false ∧ c ≠ ']' ∧ c ≠ '}' := by
  have hnumber : ∀ d ∈ [' ', '\t', '\n', '\r', ']', '}'], isNumberChar d = false := by
    simp [isNumberChar]
  have hother : ∀ d ∈ [' ', '\t', '\n', '\r', ']', '}'], d ∉ ['"', '[', '{', 'n', 't', 'f'] := by
    simp
  have hne : ∀ d ∈ [' ', '\t', '\n', '\r', ']', '}'], c ≠ d := by
    intro d hd hcd
    subst hcd
    rcases h with h | h
    · rw [hnumber c hd] at h
      cases h
    · exact hother c hd h
  refine ⟨?_, hne _ (by decide), hne _ (by decide)⟩
  simp [hne ' ' (by decide), hne '\t' (by decide), hne '\n' (by decide), hne '\r' (by decide)]

private theorem readScalar_number {n : Number} (hn : n.Readable floatText) {rest : Text}
    (hrest : NumberEnds rest) :
    readScalar (n.text floatText ++ rest) = some (.number n, rest) := by
  obtain ⟨c, s, htext, hc⟩ := starts_of_number hn
  obtain ⟨htake, hdrop⟩ := splitNumber (fun c hc => isNumberChar_of_mem_text hn hc) hrest
  have hword : ∀ w : Text, (∀ d ∈ w.head?, isNumberChar d = false) → w ≠ [] →
      ¬ w <+: n.text floatText ++ rest := by
    intro w hw hne hprefix
    obtain ⟨d, w, rfl⟩ := List.exists_cons_of_ne_nil hne
    rw [htext, List.cons_append] at hprefix
    have hcd : d = c := (List.cons_prefix_cons.1 hprefix).1
    have hd := hw d rfl
    rw [hcd, hc] at hd
    cases hd
  rw [readScalar, if_neg (hword "null".toList (by simp [isNumberChar]) (by decide)),
    if_neg (hword "true".toList (by simp [isNumberChar]) (by decide)),
    if_neg (hword "false".toList (by simp [isNumberChar]) (by decide)), htake, hdrop,
      readNumber_text hn]
  rfl

private theorem readValue_scalar {c : Char} {s : Text} (hquote : c ≠ '"') (hbracket : c ≠ '[')
    (hbrace : c ≠ '{')
    (fuel : Nat) : readValue (fuel + 1) (c :: s) = readScalar (c :: s) := by
  rw [readValue]
  · intro _ h; exact hquote (List.cons.inj h).1
  · intro _ h; exact hbracket (List.cons.inj h).1
  · intro _ h; exact hbrace (List.cons.inj h).1

private theorem insertEntry_last {k : Text} {v : Value} {fields : List (Text × Value)}
    (h : ∀ e ∈ fields, e.1 < k) :
    insertEntry k v fields = fields ++ [(k, v)] := by
  induction fields with
  | nil => rfl
  | cons e fields ih =>
    have hlt : e.1 < k := h e List.mem_cons_self
    have hrest := ih fun e' he' => h e' (List.mem_cons_of_mem _ he')
    rw [insertEntry, if_neg (lt_asymm hlt), if_neg (ne_of_gt hlt), hrest, List.cons_append]

/-- Entries in increasing order are the map. -/
theorem ofEntries_sorted {fields : List (Text × Value)}
    (h : (fields.map Prod.fst).Pairwise (· < ·)) :
    ofEntries fields = fields := by
  have hfold : ∀ acc : List (Text × Value), ((acc ++ fields).map Prod.fst).Pairwise (· < ·) →
      fields.foldl (fun fields e => insertEntry e.1 e.2 fields) acc = acc ++ fields := by
    clear h
    induction fields with
    | nil => intro acc _; exact (List.append_nil acc).symm
    | cons e fields ih =>
      intro acc hacc
      have hlast : ∀ e' ∈ acc, e'.1 < e.1 := by
        intro e' he'
        rw [List.map_append, List.pairwise_append] at hacc
        exact hacc.2.2 _ (List.mem_map_of_mem he') _ (by simp)
      rw [List.foldl_cons, insertEntry_last hlast, ih (acc ++ [e]) (by simpa using hacc)]
      simp
  exact hfold [] h

/-- The three readers give back what was written, within fuel `n`. -/
private structure ReadsBack (floatText : F64 → Text) (n : Nat) : Prop where
  value : ∀ (v : Value) (rest : Text), v.WellFormed floatText → (v.text floatText).length ≤ n →
    NumberEnds rest →
    readValue n (v.text floatText ++ rest) = some (v, rest)
  elements : ∀ (x : Value) (xs : List Value) (rest : Text), x.WellFormed floatText →
    AllWellFormed floatText xs →
    (x.text floatText ++ elementText floatText xs).length ≤ n →
    readElements n (x.text floatText ++ (elementText floatText xs ++ rest)) = some (x :: xs, rest)
  members : ∀ (k : Text) (x : Value) (fields : List (Text × Value)) (rest : Text),
    x.WellFormed floatText →
    MembersWellFormed floatText fields →
    ('"' :: (escape k ++ '"' :: ':' ::
      (x.text floatText ++ memberText floatText fields))).length ≤ n →
    readMembers n ('"' ::
      (escape k ++ '"' :: ':' :: (x.text floatText ++ (memberText floatText fields ++ rest)))) =
      some ((k, x) :: fields, rest)

private theorem numberEnds_elementText (floatText : F64 → Text) (xs : List Value) (rest : Text) :
    NumberEnds (elementText floatText xs ++ rest) := by
  cases xs with
  | nil => exact numberEnds_cons (by decide)
  | cons x xs =>
    rw [elementText_cons]
    exact numberEnds_cons (by decide)

private theorem numberEnds_memberText (floatText : F64 → Text) (fields : List (Text × Value))
    (rest : Text) :
    NumberEnds (memberText floatText fields ++ rest) := by
  match fields with
  | [] => exact numberEnds_cons (by decide)
  | (k, x) :: fields =>
    rw [memberText_cons]
    exact numberEnds_cons (by decide)

private theorem readsBack_value {n : Nat} (ih : ReadsBack floatText n) (v : Value) (rest : Text)
    (hv : v.WellFormed floatText) (hlen : (v.text floatText).length ≤ n + 1)
    (hrest : NumberEnds rest) :
    readValue (n + 1) (v.text floatText ++ rest) = some (v, rest) := by
  match v with
  | .null => rfl
  | .bool true => rfl
  | .bool false => rfl
  | .number m =>
    obtain ⟨c, s, htext, hc⟩ := starts_of_number hv
    -- a number starts with none of the characters that open other values
    have hnot : ∀ d ∈ ['"', '[', '{'], c ≠ d := by
      intro d hd hcd
      have hreject : ∀ d ∈ ['"', '[', '{'], isNumberChar d = false := by simp [isNumberChar]
      rw [hcd, hreject d hd] at hc
      cases hc
    have hvalue : (Value.number m).text floatText = m.text floatText := List.append_nil _
    rw [hvalue, ← readScalar_number hv hrest, htext, List.cons_append]
    exact readValue_scalar (hnot _ (by decide)) (hnot _ (by decide)) (hnot _ (by decide)) n
  | .string t =>
    have htext : (Value.string t).text floatText ++ rest = '"' :: (escape t ++ '"' :: rest) := by
      simp [text, pieces, Piece.text]
    rw [htext, readValue, readString_escape]
    rfl
  | .array [] => rfl
  | .array (x :: xs) =>
    obtain ⟨hx, hxs⟩ := hv
    obtain ⟨c, s, htext, hc⟩ := text_starts hx
    obtain ⟨hws, hclose, -⟩ := not_ws_of_starts hc
    rw [text_array_cons, List.length_cons] at hlen
    have helements := ih.elements x xs rest hx hxs (by omega)
    rw [text_array_cons, List.cons_append, List.append_assoc, readValue]
    rw [htext, List.cons_append] at helements ⊢
    rw [skipWs_of_not hws]
    split
    · rename_i heq
      exact absurd (List.cons.inj heq).1 hclose
    · rw [helements]
      rfl
  | .object [] => rfl
  | .object ((k, x) :: fields) =>
    obtain ⟨hsorted, hx, hfields⟩ := hv
    rw [text_object_cons, List.length_cons] at hlen
    have hmembers := ih.members k x fields rest hx hfields (by omega)
    have htext : (Value.object ((k, x) :: fields)).text floatText ++ rest =
        '{' :: '"' :: (escape k ++ '"' :: ':' ::
            (x.text floatText ++ (memberText floatText fields ++ rest))) := by
      rw [text_object_cons]
      simp
    have hskip : ∀ s, skipWs ('"' :: s) = '"' :: s := fun s => skipWs_of_not (by decide)
    rw [htext, readValue, hskip]
    change Option.map (fun r => (Value.object (ofEntries r.1), r.2)) (readMembers n _) = _
    rw [hmembers, Option.map_some, ofEntries_sorted hsorted]

private theorem readsBack_elements {n : Nat} (ih : ReadsBack floatText n) (x : Value)
    (xs : List Value) (rest : Text) (hx : x.WellFormed floatText) (hxs : AllWellFormed floatText xs)
    (hlen : (x.text floatText ++ elementText floatText xs).length ≤ n + 1) :
    readElements (n + 1) (x.text floatText ++ (elementText floatText xs ++ rest)) =
      some (x :: xs, rest) := by
  have hpos : 0 < (elementText floatText xs).length := by
    cases xs with
    | nil => exact Nat.one_pos
    | cons y ys =>
      rw [elementText_cons]
      exact Nat.succ_pos _
  rw [List.length_append] at hlen
  have hvalue := ih.value x _ hx (by omega) (numberEnds_elementText floatText xs rest)
  rw [readElements, hvalue, Option.bind_some]
  cases xs with
  | nil =>
    have hclose : skipWs (elementText floatText [] ++ rest) = ']' :: rest :=
      skipWs_of_not (by decide)
    rw [hclose]
    rfl
  | cons y ys =>
    obtain ⟨hy, hys⟩ := hxs
    obtain ⟨c, s, htext, hc⟩ := text_starts hy
    rw [elementText_cons, List.length_cons] at hlen
    have helements := ih.elements y ys rest hy hys (by omega)
    have hcomma : skipWs (elementText floatText (y :: ys) ++ rest) =
        ',' :: (y.text floatText ++ (elementText floatText ys ++ rest)) := by
      rw [elementText_cons, List.cons_append, List.append_assoc]
      exact skipWs_of_not (by decide)
    have hskip : skipWs (y.text floatText ++ (elementText floatText ys ++ rest)) =
        y.text floatText ++ (elementText floatText ys ++ rest) := by
      rw [htext, List.cons_append]
      exact skipWs_of_not (not_ws_of_starts hc).1
    rw [hcomma]
    simp only [hskip, helements, Option.map_some]

private theorem readsBack_members {n : Nat} (ih : ReadsBack floatText n) (k : Text) (x : Value)
    (fields : List (Text × Value)) (rest : Text) (hx : x.WellFormed floatText)
    (hfields : MembersWellFormed floatText fields)
    (hlen : ('"' :: (escape k ++ '"' :: ':' ::
      (x.text floatText ++ memberText floatText fields))).length ≤ n + 1) :
    readMembers (n + 1) ('"' ::
      (escape k ++ '"' :: ':' :: (x.text floatText ++ (memberText floatText fields ++ rest)))) =
      some ((k, x) :: fields, rest) := by
  obtain ⟨c, s, htext, hc⟩ := text_starts hx
  simp only [List.length_cons, List.length_append] at hlen
  have hvalue := ih.value x _ hx (by omega) (numberEnds_memberText floatText fields rest)
  have hcolon : ∀ s, skipWs (':' :: s) = ':' :: s := fun s => skipWs_of_not (by decide)
  have hskip : skipWs (x.text floatText ++ (memberText floatText fields ++ rest)) =
      x.text floatText ++ (memberText floatText fields ++ rest) := by
    rw [htext, List.cons_append]
    exact skipWs_of_not (not_ws_of_starts hc).1
  rw [readMembers, readString_escape, Option.bind_some]
  simp only [hcolon, hskip, hvalue, Option.bind_some]
  match fields with
  | [] =>
    have hclose : skipWs (memberText floatText [] ++ rest) = '}' :: rest :=
      skipWs_of_not (by decide)
    rw [hclose]
    rfl
  | (k', y) :: fields =>
    obtain ⟨hy, hfields⟩ := hfields
    rw [memberText_cons, List.length_cons] at hlen
    have hmembers := ih.members k' y fields rest hy hfields (by omega)
    have hcomma : skipWs (memberText floatText ((k', y) :: fields) ++ rest) =
        ',' :: '"' :: (escape k' ++ '"' :: ':' ::
            (y.text floatText ++ (memberText floatText fields ++ rest))) := by
      rw [memberText_cons]
      simp only [List.cons_append, List.append_assoc]
      exact skipWs_of_not (by decide)
    have hquote : ∀ s, skipWs ('"' :: s) = '"' :: s := fun s => skipWs_of_not (by decide)
    rw [hcomma]
    simp only [hquote, hmembers, Option.map_some]

private theorem readsBack (floatText : F64 → Text) (n : Nat) : ReadsBack floatText n := by
  induction n with
  | zero =>
    have hpos : ∀ v : Value, v.WellFormed floatText → 0 < (v.text floatText).length := by
      intro v hv
      obtain ⟨c, s, htext, -⟩ := text_starts hv
      rw [htext]
      exact Nat.succ_pos _
    refine ⟨?_, ?_, ?_⟩
    · intro v rest hv hlen
      have := hpos v hv
      omega
    · intro x xs rest hx _ hlen
      have := hpos x hx
      rw [List.length_append] at hlen
      omega
    · intro k x fields rest _ _ hlen
      simp at hlen
  | succ n ih => exact ⟨readsBack_value ih, readsBack_elements ih, readsBack_members ih⟩

/-- The text of a value is read as the value, with what follows it left over. -/
theorem readValue_text {v : Value} (hv : v.WellFormed floatText) {n : Nat}
    (hn : (v.text floatText).length ≤ n) {rest : Text} (hrest : NumberEnds rest) :
    readValue n (v.text floatText ++ rest) = some (v, rest) :=
  (readsBack floatText n).value v rest hv hn hrest

/-- What is written is read. -/
theorem read_text {v : Value} (hv : v.WellFormed floatText) : read (v.text floatText) = some v := by
  obtain ⟨c, s, htext, hc⟩ := text_starts hv
  have hskip : skipWs (v.text floatText) = v.text floatText := by
    rw [htext]
    exact skipWs_of_not (not_ws_of_starts hc).1
  have hends : NumberEnds [] := fun c s h => nomatch h
  have hread := readValue_text hv le_rfl hends
  rw [List.append_nil] at hread
  rw [read, hskip, hread]
  rfl

end Value

end Foundations
