import FormRespondentRole.Foundations.Json

/-!
# Tables

The rows of the tables that roles depend on.  A column of type `TEXT` is a `Text`, `INTEGER` an
`Int32`, `JSONB` a JSON value, `UUID` a 128-bit word and `TIMESTAMPTZ` an `Instant`.  The defaults
are those of the column declarations.
-/

namespace FormRespondentRole

open Foundations

/-- Nanoseconds since the epoch. -/
abbrev Instant := Int

def seconds (n : Int) : Instant := n * 1000000000

abbrev Uuid := BitVec 128

instance : LawfulBEq Uuid := instLawfulBEq

namespace Uuid

private def hexDigits (w : Nat) (n : Nat) : Text :=
  (List.range w).map fun i => Nat.digitChar (n / 16 ^ (w - 1 - i) % 16)

private theorem length_hexDigits (w n : Nat) : (hexDigits w n).length = w := by
  rw [hexDigits, List.length_map, List.length_range]

private theorem hexDigits_succ (w n : Nat) :
    hexDigits (w + 1) n = hexDigits w (n / 16) ++ [Nat.digitChar (n % 16)] := by
  rw [hexDigits, List.range_succ, List.map_append, List.map_singleton]
  congr 1
  · refine List.map_congr_left fun i hi => ?_
    have hlt := List.mem_range.1 hi
    have hexp : w + 1 - 1 - i = (w - 1 - i) + 1 := by omega
    rw [hexp, Nat.pow_succ', Nat.div_div_eq_div_mul]
  · simp

private theorem hexDigits_add (v w n : Nat) :
    hexDigits (v + w) n = hexDigits v (n / 16 ^ w) ++ hexDigits w n := by
  induction w generalizing n with
  | zero => simp [hexDigits]
  | succ w ih =>
    rw [← Nat.add_assoc, hexDigits_succ, ih, hexDigits_succ, Nat.div_div_eq_div_mul,
      ← Nat.pow_succ', List.append_assoc]

private theorem digit_of_mem_hexDigits {w n : Nat} {c : Char} (h : c ∈ hexDigits w n) :
    ∃ d < 16, c = Nat.digitChar d := by
  obtain ⟨i, -, rfl⟩ := List.mem_map.1 h
  exact ⟨_, Nat.mod_lt _ (by decide), rfl⟩

/-- The value of a hexadecimal digit in either case. -/
def digitValue (c : Char) : Nat := if c.isDigit then c.toNat - 48 else c.toLower.toNat - 87

def hexValue (s : Text) : Nat := s.foldl (fun n c => 16 * n + digitValue c) 0

private theorem digitValue_digitChar {d : Nat} (h : d < 16) : digitValue (Nat.digitChar d) = d := by
  have hall : ∀ d : Fin 16, digitValue (Nat.digitChar d) = d := by decide
  exact hall ⟨d, h⟩

private theorem hexValue_hexDigits (w n : Nat) : hexValue (hexDigits w n) = n % 16 ^ w := by
  induction w generalizing n with
  | zero => simp [hexDigits, hexValue, Nat.mod_one]
  | succ w ih =>
    have hstep : hexValue (hexDigits (w + 1) n) = 16 * hexValue
        (hexDigits w (n / 16)) + n % 16 := by
      rw [hexDigits_succ, hexValue, List.foldl_append, List.foldl_cons, List.foldl_nil,
        digitValue_digitChar (Nat.mod_lt _ (by decide))]
      rfl
    rw [hstep, ih, Nat.pow_succ', Nat.mod_mul, Nat.add_comm]

private theorem hexDigits_inj {w m n : Nat} (h : hexDigits w m = hexDigits w n) :
    m % 16 ^ w = n % 16 ^ w := by
  induction w generalizing m n with
  | zero => simp [Nat.mod_one]
  | succ w ih =>
    rw [hexDigits_succ, hexDigits_succ] at h
    obtain ⟨hhigh, hlow⟩ := List.append_inj h (by rw [length_hexDigits, length_hexDigits])
    have hdigit := Text.digitChar_inj (Nat.mod_lt m (by decide)) (Nat.mod_lt n (by decide))
      (List.singleton_inj.1 hlow)
    have hrest := ih hhigh
    rw [Nat.pow_succ', Nat.mod_mul, Nat.mod_mul, hdigit, hrest]

/-- The hyphenated lower-case text of a UUID, which is also what `id::text` gives. -/
def text (u : Uuid) : Text :=
  hexDigits 8 (u.toNat / 2 ^ 96) ++ '-' :: hexDigits 4 (u.toNat / 2 ^ 80) ++ '-' ::
    hexDigits 4 (u.toNat / 2 ^ 64) ++
    '-' :: hexDigits 4 (u.toNat / 2 ^ 48) ++ '-' :: hexDigits 12 u.toNat

example : text 0x123e4567e89b12d3a456426614174000 =
    "123e4567-e89b-12d3-a456-426614174000".toList := by decide

theorem text_injective : Function.Injective text := by
  intro u v h
  have hlen : ∀ w m n, (hexDigits w m).length = (hexDigits w n).length := fun w m n => by
    rw [length_hexDigits, length_hexDigits]
  have hlen' : ∀ w m n, ('-' :: hexDigits w m).length = ('-' :: hexDigits w n).length :=
    fun w m n => congrArg (· + 1) (hlen w m n)
  unfold text at h
  obtain ⟨h, h₅⟩ := List.append_inj' h (hlen' _ _ _)
  obtain ⟨h, h₄⟩ := List.append_inj' h (hlen' _ _ _)
  obtain ⟨h, h₃⟩ := List.append_inj' h (hlen' _ _ _)
  obtain ⟨h₁, h₂⟩ := List.append_inj' h (hlen' _ _ _)
  have h₁ := hexDigits_inj h₁
  have h₂ := hexDigits_inj (List.cons.inj h₂).2
  have h₃ := hexDigits_inj (List.cons.inj h₃).2
  have h₄ := hexDigits_inj (List.cons.inj h₄).2
  have h₅ := hexDigits_inj (List.cons.inj h₅).2
  have hu := u.isLt
  have hv := v.isLt
  refine BitVec.eq_of_toNat_eq ?_
  omega

/-! ### Reading -/

/-- Reads the hyphenated form in either case. -/
def parseHyphenated (s : Text) : Option Uuid :=
  let u : Uuid := BitVec.ofNat 128 (hexValue (s.filter (· ≠ '-')))
  if u.text = s.map Char.toLower then some u else none

private theorem filter_hexDigits (w n : Nat) :
    (hexDigits w n).filter (· ≠ '-') = hexDigits w n := by
  refine List.filter_eq_self.2 fun c hc => ?_
  obtain ⟨d, hd, rfl⟩ := digit_of_mem_hexDigits hc
  have hall : ∀ d : Fin 16, decide (Nat.digitChar d ≠ '-') = true := by decide
  exact hall ⟨d, hd⟩

private theorem filter_text (u : Uuid) : (text u).filter (· ≠ '-') = hexDigits 32 u.toNat := by
  have h : hexDigits 32 u.toNat = hexDigits 8 (u.toNat / 2 ^ 96) ++
    hexDigits 4 (u.toNat / 2 ^ 80) ++
      hexDigits 4 (u.toNat / 2 ^ 64) ++ hexDigits 4 (u.toNat / 2 ^ 48) ++ hexDigits 12 u.toNat := by
    rw [hexDigits_add 20 12, hexDigits_add 16 4, hexDigits_add 12 4, hexDigits_add 8 4]
    simp only [Nat.div_div_eq_div_mul, Nat.reducePow, Nat.reduceMul]
  rw [h, text]
  simp only [List.filter_append, List.filter_cons, filter_hexDigits, ne_eq, not_true_eq_false,
    decide_false, if_false, Bool.false_eq_true, List.append_assoc]

private theorem digit_of_mem_text {u : Uuid} {c : Char} (h : c ∈ text u) :
    (∃ d < 16, c = Nat.digitChar d) ∨ c = '-' := by
  simp only [text, List.mem_append, List.mem_cons] at h
  rcases h with (((h | rfl | h) | rfl | h) | rfl | h) | rfl | h
  all_goals first | exact Or.inr rfl | exact Or.inl (digit_of_mem_hexDigits h)

private theorem toLower_text (u : Uuid) : u.text.map Char.toLower = u.text := by
  refine (List.map_congr_left fun c hc => ?_).trans (List.map_id _)
  rcases digit_of_mem_text hc with ⟨d, hd, rfl⟩ | rfl
  · have hall : ∀ d : Fin 16, (Nat.digitChar d).toLower = Nat.digitChar d := by decide
    exact hall ⟨d, hd⟩
  · rfl

theorem parseHyphenated_text (u : Uuid) : parseHyphenated u.text = some u := by
  have hvalue : BitVec.ofNat 128 (hexValue (u.text.filter (· ≠ '-'))) = u := by
    have hlt : u.toNat < 16 ^ 32 := u.isLt
    rw [filter_text, hexValue_hexDigits, Nat.mod_eq_of_lt hlt, BitVec.ofNat_toNat,
      BitVec.setWidth_eq]
  rw [parseHyphenated, hvalue, if_pos (toLower_text u).symm]

/-- Nothing that is read is blank or has space around it. -/
theorem plain_of_parseHyphenated {s : Text} {u : Uuid} (h : parseHyphenated s = some u) :
    s ≠ [] ∧ Text.trim s = s := by
  rw [parseHyphenated] at h
  split at h
  · rename_i htext
    have hlower : ∀ c ∈ s, Text.isWhitespace c = false := by
      intro c hc
      by_contra hspace
      rw [Bool.not_eq_false] at hspace
      have hmem : c.toLower ∈ text (BitVec.ofNat 128 (hexValue (s.filter (· ≠ '-')))) :=
        htext ▸ List.mem_map_of_mem hc
      rw [Text.toLower_of_isWhitespace hspace] at hmem
      rcases digit_of_mem_text hmem with ⟨d, hd, rfl⟩ | rfl
      · have hall : ∀ d : Fin 16, Text.isWhitespace (Nat.digitChar d) = false := by decide
        rw [hall ⟨d, hd⟩] at hspace
        cases hspace
      · cases hspace
    refine ⟨?_, Text.trim_eq_self hlower⟩
    rintro rfl
    exact List.append_ne_nil_of_right_ne_nil _ (List.cons_ne_nil _ _) htext
  · cases h

end Uuid

/-- A row of `role_links`. -/
structure RoleLink where
  guildId : Text
  roleId : Text
  apiToken : Text
  formId : Option Text := none
  grantOnAnySubmission : Bool := false
  conditions : Value := .array []

/-- What identifies a link. -/
abbrev LinkKey := Text × Text

instance : LawfulBEq LinkKey := inferInstance

def RoleLink.key (l : RoleLink) : LinkKey := (l.guildId, l.roleId)

/-- A row of `role_assignments`; RoleLogic's lists are kept in the same form. -/
structure Assignment where
  guildId : Text
  roleId : Text
  discordId : Text
deriving DecidableEq

def Assignment.key (a : Assignment) : LinkKey := (a.guildId, a.roleId)

/-- A row of `form_responses`. -/
structure FormResponse where
  id : Uuid
  formId : Text
  guildId : Text
  discordId : Text
  answers : Value
  totalScore : Option Int32 := none
  schemaVersion : Int32 := 1
  attemptCount : Int32 := 1
  passed : Option Bool := none
  submittedAt : Instant := 0
  lastEditedAt : Instant := 0

/-- A row of `forms`. -/
structure Form where
  id : Uuid
  guildId : Text
  slug : Text
  title : Text
  description : Text := []
  version : Int32 := 1
  schema : Value
  isQuiz : Bool := false
  openAt : Option Instant := none
  closeAt : Option Instant := none
  allowEdits : Bool := false
  singleSubmission : Bool := true
  requireVerified : Bool := false
  minAccountAgeDays : Int32 := 0
  successMessage : Text := "Thanks for your response!".toList
  previewToken : Text := []
  webhookUrl : Option Text := none
  archived : Bool := false
  updatedAt : Instant := 0
  passingScore : Option Int32 := none
  maxAttempts : Int32 := 1
  retryCooldownSeconds : Int32 := 0
  retryPolicy : Text := "keep_best".toList
  lockOnPass : Bool := true

/-- A row of `guild_settings`. -/
structure GuildSettings where
  guildId : Text
  viewPermission : Text := "managers".toList

end FormRespondentRole
