import FormRespondentRole.Foundations.Binary64

/-!
# The number that a binary64 stands for

Which numbers the two conversions between binary64 and 64-bit integers keep: towards integers those
that are whole and within the bounds (`F64.toInt64_eq_value_iff`), from integers those with 53
significant bits at most (`F64.value_ofInt_iff`).  Finite values are ordered as the numbers are
(`F64.lt_iff_value`).  `Text.decimal` is the number that a decimal text denotes.
-/

namespace Foundations

namespace F64

open Float.Model Float.Model.UnpackedFloat

/-- The number that a finite binary64 stands for. -/
def value (x : F64) : Option ℚ :=
  match x.unpack with
  | .zero _ => some 0
  | .finite s m e _ => some (s.apply m * 2 ^ e)
  | .infinity _ | .notANumber => none

/-- A finite number without a fraction. -/
def isWhole (x : F64) : Bool :=
  match x.unpack with
  | .zero _ => true
  | .finite _ m e _ => decide (m % 2 ^ (-e).toNat = 0)
  | .infinity _ | .notANumber => false

/-- Whole, and with 53 significant bits at most. -/
def HoldsInt (n : Int) : Prop := ∃ m k : Nat, m < 2 ^ 53 ∧ n.natAbs = m * 2 ^ k

/-! ### Truncation -/

private theorem shiftRight_mantissa (em : ExtendedMantissa) (k : Nat) :
    (em >>> k).mantissa = em.mantissa / 2 ^ k := by
  induction k with
  | zero => exact (Nat.div_one _).symm
  | succ k ih =>
    have hstep : (em >>> (k + 1)).mantissa = (em >>> k).mantissa / 2 := rfl
    rw [hstep, ih, Nat.div_div_eq_div_mul, Nat.pow_succ]

private theorem roundToInt_eq (s : Sign) (m : Nat) (e : Int) :
    roundToInt s m e = s.apply (m * 2 ^ e.toNat / 2 ^ (-e).toNat : Nat) := by
  have hshift : (0 - (e - e.toNat)).toNat = (-e).toNat := by omega
  simp only [roundToInt, decreaseExponent, shiftToExponent, sub_zero, hshift, shiftRight_mantissa,
    ExtendedMantissa.ofMantissaAndAccuracy, Nat.shiftLeft_eq]

private theorem apply_mul (s : Sign) (m n : Int) : s.apply (m * n) = s.apply m * n := by
  cases s
  · exact (Int.neg_mul m n).symm
  · rfl

private theorem apply_ediv_of_mul {s : Sign} {m n d : Int} (hd : d ≠ 0) (h : s.apply m = n * d) :
    s.apply (m / d) = n := by
  cases s with
  | positive => exact Int.ediv_eq_of_eq_mul_left hd h
  | negative =>
    have hm : m = -n * d := by
      rw [Int.neg_mul, ← h]
      exact (Int.neg_neg m).symm
    have hdiv : m / d = -n := Int.ediv_eq_of_eq_mul_left hd hm
    exact (congrArg Neg.neg hdiv).trans (Int.neg_neg n)

/-- What is whole is not changed by truncation. -/
private theorem roundToInt_of_whole {s : Sign} {m : Nat} {e n : Int}
    (h : (s.apply m : ℚ) * 2 ^ e = n) :
    roundToInt s m e = n := by
  rw [roundToInt_eq]
  by_cases he : 0 ≤ e
  · obtain ⟨a, rfl⟩ := Int.eq_ofNat_of_zero_le he
    have hzero : (-(a : Int)).toNat = 0 := by omega
    have hwhole : s.apply m * 2 ^ a = n := by exact_mod_cast h
    rw [hzero, Int.toNat_natCast, pow_zero, Nat.div_one, Nat.cast_mul, apply_mul, ← hwhole]
    push_cast
    rfl
  · obtain ⟨b, rfl⟩ : ∃ b : Nat, e = -b := ⟨(-e).toNat, by omega⟩
    have hzero : (-(b : Int)).toNat = 0 := by omega
    have hwhole : s.apply m = n * 2 ^ b := by
      have hq : (s.apply m : ℚ) = n * 2 ^ b := by
        rw [← h, zpow_neg, zpow_natCast, mul_assoc, inv_mul_cancel₀ (by positivity), mul_one]
      exact_mod_cast hq
    rw [hzero, neg_neg, Int.toNat_natCast, pow_zero, mul_one, Int.natCast_ediv]
    exact apply_ediv_of_mul (by positivity) (by exact_mod_cast hwhole)

/-- A whole number is clamped to the bounds of an `i64`. -/
theorem toInt64_of_value {x : F64} {n : Int} (h : x.value = some (n : ℚ)) :
    x.toInt64 = Int64.ofIntClamp n := by
  have htrunc : x.unpack.toInt Int64.minValue.toInt Int64.maxValue.toInt = n := by
    rw [value] at h
    split at h
    · rename_i hunpack
      have hn : n = 0 := by exact_mod_cast (Option.some.inj h).symm
      rw [hunpack, hn]
      rfl
    · rename_i hunpack
      rw [hunpack]
      exact roundToInt_of_whole (Option.some.inj h)
    · cases h
    · cases h
  exact congrArg Int64.ofIntClamp htrunc

/-- The conversion to an `i64` keeps the number just when it is whole and within the bounds. -/
theorem toInt64_eq_value_iff {x : F64} {q : ℚ} (h : x.value = some q) :
    (x.toInt64.toInt : ℚ) = q ↔ ∃ n : Int, (n : ℚ) = q ∧ -2 ^ 63 ≤ n ∧ n < 2 ^ 63 := by
  constructor
  · exact fun heq => ⟨_, heq, x.toInt64.le_toInt, x.toInt64.toInt_lt⟩
  · rintro ⟨n, rfl, hlow, hhigh⟩
    have hmin : Int64.minValue.toInt = -2 ^ 63 := by decide
    have hmax : Int64.maxValue.toInt = 2 ^ 63 - 1 := by decide
    rw [toInt64_of_value h, Int64.toInt_ofIntClamp (by omega) (by omega)]

/-! ### Canonical form -/

/-- A mantissa and an exponent as they come out of a binary64. -/
private def Canonical (m : Nat) (e : Int) : Prop :=
  m < 2 ^ 53 ∧ -1074 ≤ e ∧ (2 ^ 52 ≤ m ∨ e = -1074)

private theorem one_append_ge (b : BitVec 52) : 2 ^ 52 ≤ (1#1 ++ b).toNat := by
  rw [BitVec.toNat_append, ← Nat.shiftLeft_add_eq_or_of_lt b.isLt, Nat.shiftLeft_eq]
  exact Nat.le_add_right _ _

private theorem canonical_unpack {x : F64} {s : Sign} {m : Nat} {e : Int} {hm : 0 < m}
    (h : x.unpack = .finite s m e hm) :
    Canonical m e := by
  rw [Float.Model.unpack, UnpackedFloat.unpack] at h
  split at h
  · split at h <;> cases h
  split at h
  · rename_i hzero
    split at h
    · cases h
    · cases h
      have hexp : ((@unpackExponent Format.binary64 x.toBits.toBitVec).toNat : Int) -
        (Format.binary64.exponentBias + 52 : Nat) + 1 =
          -1074 := by
        rw [hzero]
        rfl
      exact ⟨Nat.lt_trans (BitVec.isLt _) (by decide), hexp.ge, Or.inr hexp⟩
  · rename_i hzero
    cases h
    have hpos : 0 < (@unpackExponent Format.binary64 x.toBits.toBitVec).toNat :=
      Nat.pos_of_ne_zero fun h => hzero (BitVec.eq_of_toNat_eq h)
    have hbias : (Format.binary64.exponentBias + 52 : Nat) = 1075 := rfl
    refine ⟨BitVec.isLt _, ?_, Or.inl (one_append_ge _)⟩
    change -1074 ≤ ((@unpackExponent Format.binary64 x.toBits.toBitVec).toNat : Int) -
      (Format.binary64.exponentBias + 52 : Nat)
    rw [hbias]
    omega

/-! ### Whole numbers -/

private theorem apply_eq_or_eq_neg (s : Sign) (m : Int) : s.apply m = m ∨ s.apply m = -m := by
  cases s
  · exact Or.inr rfl
  · exact Or.inl rfl

private theorem whole_iff_dvd {s : Sign} {m : Nat} {e : Int} :
    (∃ k : Int, (s.apply m : ℚ) * 2 ^ e = k) ↔ 2 ^ (-e).toNat ∣ m := by
  have hsign : ∀ d : Nat, (d : Int) ∣ s.apply m ↔ d ∣ m := by
    intro d
    rcases apply_eq_or_eq_neg s m with heq | heq
    · rw [heq, Int.natCast_dvd_natCast]
    · rw [heq, dvd_neg, Int.natCast_dvd_natCast]
  by_cases he : 0 ≤ e
  · obtain ⟨a, rfl⟩ := Int.eq_ofNat_of_zero_le he
    have hzero : (-(a : Int)).toNat = 0 := by omega
    refine iff_of_true ⟨s.apply m * 2 ^ a, by push_cast; rfl⟩ ?_
    rw [hzero, pow_zero]
    exact one_dvd m
  · obtain ⟨b, rfl⟩ : ∃ b : Nat, e = -b := ⟨(-e).toNat, by omega⟩
    have hpow : (2 : ℚ) ^ b ≠ 0 := by positivity
    rw [neg_neg, Int.toNat_natCast, ← hsign, dvd_def]
    refine exists_congr fun k => ?_
    rw [zpow_neg, zpow_natCast, mul_inv_eq_iff_eq_mul₀ hpow]
    constructor
    · intro h
      rw [mul_comm]
      exact_mod_cast h
    · intro h
      rw [h]
      push_cast
      ring

/-- Whole are the numbers without a fraction. -/
theorem isWhole_iff {x : F64} : x.isWhole = true ↔ ∃ k : Int, x.value = some (k : ℚ) := by
  rw [isWhole, value]
  cases x.unpack with
  | notANumber => simp
  | infinity s => simp
  | zero s => exact iff_of_true rfl ⟨0, by rw [Int.cast_zero]⟩
  | finite s m e hm =>
    simp only [decide_eq_true_eq, Option.some.injEq]
    rw [whole_iff_dvd, Nat.dvd_iff_mod_eq_zero]

/-- A binary64 that stands for a whole number holds it. -/
theorem holdsInt_of_value {x : F64} {n : Int} (h : x.value = some (n : ℚ)) : HoldsInt n := by
  rw [value] at h
  split at h
  · have hn : n = 0 := by exact_mod_cast (Option.some.inj h).symm
    exact ⟨0, 0, by decide, by rw [hn]; rfl⟩
  · rename_i s m e hm hunpack
    have hlt := (canonical_unpack hunpack).1
    have hround := roundToInt_of_whole (Option.some.inj h)
    rw [roundToInt_eq] at hround
    have habs : n.natAbs = m * 2 ^ e.toNat / 2 ^ (-e).toNat := by
      rw [← hround]
      cases s
      · exact Int.natAbs_neg _
      · rfl
    by_cases he : 0 ≤ e
    · have hzero : (-e).toNat = 0 := by omega
      refine ⟨m, e.toNat, hlt, ?_⟩
      rw [habs, hzero, pow_zero, Nat.div_one]
    · have hzero : e.toNat = 0 := by omega
      rw [hzero, pow_zero, mul_one] at habs
      exact ⟨m / 2 ^ (-e).toNat, 0, (Nat.div_le_self _ _).trans_lt hlt,
        by rw [habs, pow_zero, mul_one]⟩
  · cases h
  · cases h

private theorem unpackSign_packComponents {spec : Format} {sign : Sign}
    {exponent : BitVec spec.exponentBits} {mantissa : BitVec spec.mantissaBitsWithoutImplicit} :
    Sign.ofBitVec (unpackSign (packComponents spec sign exponent mantissa)) = sign := by
  have hbit : unpackSign (packComponents spec sign exponent mantissa) = sign.toBitVec := by
    ext i hi
    obtain rfl : i = 0 := by omega
    simp [unpackSign, packComponents, BitVec.getLsbD_append, BitVec.getElem_append]
  rw [hbit]
  cases sign <;> rfl

private theorem one_append_toNat {m : Nat} (hlow : 2 ^ 52 ≤ m) (hhigh : m < 2 ^ 53) :
    (1#1 ++ BitVec.ofNat 52 m).toNat = m := by
  have hrest : (BitVec.ofNat 52 m).toNat = m - 2 ^ 52 := by
    rw [BitVec.toNat_ofNat]
    omega
  have hlt : m - 2 ^ 52 < 2 ^ 52 := by omega
  rw [BitVec.toNat_append, hrest, ← Nat.shiftLeft_add_eq_or_of_lt hlt, Nat.shiftLeft_eq]
  have hone : (1#1).toNat = 1 := rfl
  omega

/-- A normal number that is packed is unpacked as it was. -/
private theorem unpack_pack_normal {s : Sign} {m : Nat} {e : Int} (hm : 0 < m) (hlow : 2 ^ 52 ≤ m)
    (hhigh : m < 2 ^ 53) (hmin : -1074 ≤ e) (hmax : e ≤ 971) :
    (pack (.finite s m e hm)).unpack = .finite s m e hm := by
  have hlog : m.log2 + 1 = 53 := by
    have h₁ := (Nat.le_log2 hm.ne').2 hlow
    have h₂ := (Nat.log2_lt hm.ne').2 hhigh
    omega
  obtain ⟨b, hb⟩ : ∃ b : Nat, e + 1075 = b := ⟨(e + 1075).toNat, by omega⟩
  have hbiased : (e + Format.binary64.exponentBias + Format.binary64.mantissaBitsWithoutImplicit).toNat = b := by
    simp only [Format.exponentBias]
    omega
  have hpack : UnpackedFloat.pack Format.binary64 (.finite s m e hm) =
      packComponents Format.binary64 s (BitVec.ofNat _ b) (BitVec.ofNat _ m) := by
    have hfits : ¬2 ^ Format.binary64.exponentBits ≤ b + 1 := by
      simp only [not_le]
      omega
    simp only [UnpackedFloat.pack, hbiased, if_neg hfits]
    exact if_pos hlog
  have hexp : (BitVec.ofNat 11 b).toNat = b := by
    rw [BitVec.toNat_ofNat, Nat.mod_eq_of_lt (by omega)]
  have hones : BitVec.ofNat 11 b ≠ -1#11 := by
    intro h
    have hnat := congrArg BitVec.toNat h
    rw [hexp] at hnat
    have : (-1#11).toNat = 2047 := rfl
    omega
  have hzeros : BitVec.ofNat 11 b ≠ 0#11 := by
    intro h
    have hnat := congrArg BitVec.toNat h
    rw [hexp] at hnat
    have : (0#11).toNat = 0 := rfl
    omega
  change UnpackedFloat.unpack Format.binary64 (UnpackedFloat.pack Format.binary64 _) = _
  rw [hpack, UnpackedFloat.unpack]
  simp only [unpackMantissa_packComponents, unpackExponent_packComponents,
    unpackSign_packComponents]
  rw [if_neg hones, if_neg hzeros]
  have hexponent : ((BitVec.ofNat 11 b).toNat : Int) - (Format.binary64.exponentBias + 52 : Nat) =
      e := by
    simp only [hexp, Format.exponentBias]
    omega
  congr 1
  exact one_append_toNat hlow hhigh

/-! ### Rounding a whole number -/

private theorem shiftRight_exact {m k : Nat} (h : 2 ^ k ∣ m) :
    (⟨m, false, false⟩ : ExtendedMantissa) >>> k = ⟨m / 2 ^ k, false, false⟩ := by
  induction k with
  | zero => rw [pow_zero, Nat.div_one]; rfl
  | succ k ih =>
    have hk : 2 ^ k ∣ m := (pow_dvd_pow 2 (Nat.le_succ k)).trans h
    have hstep : (⟨m, false, false⟩ : ExtendedMantissa) >>> (k + 1) =
        ((⟨m, false, false⟩ : ExtendedMantissa) >>> k).shiftRightOne := rfl
    have heven : m / 2 ^ k % 2 = 0 := by
      obtain ⟨c, rfl⟩ := h
      rw [pow_succ, mul_assoc, Nat.mul_div_cancel_left _ (by positivity), Nat.mul_mod_right]
    rw [hstep, ih hk, ExtendedMantissa.shiftRightOne, heven, Nat.div_div_eq_div_mul, pow_succ]
    rfl

/-- The exponent that a number of this size has as a binary64. -/
private theorem targetExponent_eq {m k : Nat} {e : Int} (hm : 0 < m) (hlow : 2 ^ 52 ≤ m)
    (hhigh : m < 2 ^ 53) (he : -1074 ≤ e + k) :
    Format.binary64.targetExponent (totalExponent (m * 2 ^ k) e) = e + k := by
  have hpos : m * 2 ^ k ≠ 0 := (Nat.mul_pos hm (by positivity)).ne'
  have hlog : (m * 2 ^ k).log2 = 52 + k := by
    have h₁ : 2 ^ (52 + k) ≤ m * 2 ^ k := by
      rw [pow_add]
      exact Nat.mul_le_mul_right _ hlow
    have h₂ : m * 2 ^ k < 2 ^ (53 + k) := by
      rw [pow_add]
      exact Nat.mul_lt_mul_of_pos_right hhigh (by positivity)
    have h₃ := (Nat.le_log2 hpos).2 h₁
    have h₄ := (Nat.log2_lt hpos).2 h₂
    omega
  simp only [Format.targetExponent, totalExponent, hlog, Format.mantissaBits, Format.minExponent]
  push_cast
  omega

/-- A mantissa that is too long by `k` zeros is shortened without loss. -/
private theorem shiftToTargetExponent_exact {m k : Nat} {e : Int} (hm : 0 < m) (hlow : 2 ^ 52 ≤ m)
    (hhigh : m < 2 ^ 53) (he : -1074 ≤ e + k) :
    shiftToTargetExponent Format.binary64 (m * 2 ^ k) e .exact = (⟨m, false, false⟩, e + k) := by
  have hamount : (e + k - e).toNat = k := by omega
  rw [shiftToTargetExponent, targetExponent_eq hm hlow hhigh he, shiftToExponent, hamount]
  dsimp only [ExtendedMantissa.ofMantissaAndAccuracy]
  rw [shiftRight_exact (Dvd.intro_left m rfl), Nat.mul_div_cancel _ (by positivity)]

private theorem roundWithAccuracy_exact {s : Sign} {m k : Nat} {e : Int} (hm : 0 < m)
    (hlow : 2 ^ 52 ≤ m) (hhigh : m < 2 ^ 53) (he : -1074 ≤ e + k) :
    roundWithAccuracy Format.binary64 s (m * 2 ^ k) e .exact = .finite s m (e + k) hm := by
  have hfirst := shiftToTargetExponent_exact hm hlow hhigh he
  have hsecond := shiftToTargetExponent_exact (k := 0) hm hlow hhigh
    (by omega : -1074 ≤ e + k + (0 : Nat))
  rw [pow_zero, mul_one, Nat.cast_zero, add_zero] at hsecond
  have hrounded : (⟨m, false, false⟩ : ExtendedMantissa).roundedMantissa = m := rfl
  rw [roundWithAccuracy]
  simp only [hfirst, hrounded, hsecond]
  exact dif_neg hm.ne'

/-- A number with 53 significant bits at most, written with 53 bits. -/
private theorem exists_mantissa {n : Nat} (hn : n ≠ 0) (h : HoldsInt n) :
    ∃ m, 2 ^ 52 ≤ m ∧ m < 2 ^ 53 ∧ n * 2 ^ (52 - n.log2) = m * 2 ^ (n.log2 - 52) := by
  have hlow : 2 ^ n.log2 ≤ n := (Nat.le_log2 hn).1 le_rfl
  have hhigh : n < 2 ^ (n.log2 + 1) := (Nat.log2_lt hn).1 (Nat.lt_succ_self _)
  by_cases hL : n.log2 ≤ 52
  · have hpow : 2 ^ (52 - n.log2) * 2 ^ n.log2 = 2 ^ 52 := by rw [← pow_add, Nat.sub_add_cancel hL]
    refine ⟨n * 2 ^ (52 - n.log2), ?_, ?_, by rw [Nat.sub_eq_zero_of_le hL, pow_zero, mul_one]⟩
    · calc 2 ^ 52 = 2 ^ n.log2 * 2 ^ (52 - n.log2) := by rw [mul_comm, hpow]
        _ ≤ n * 2 ^ (52 - n.log2) := Nat.mul_le_mul_right _ hlow
    · calc n * 2 ^ (52 - n.log2) < 2 ^ (n.log2 + 1) * 2 ^ (52 - n.log2) :=
        Nat.mul_lt_mul_of_pos_right hhigh (by positivity)
        _ = 2 ^ 53 := by rw [pow_succ, mul_right_comm, mul_comm (2 ^ n.log2), hpow]; rfl
  · obtain ⟨m, j, hm, habs⟩ := h
    have hmul : n = m * 2 ^ j := habs
    obtain ⟨k, hk⟩ : ∃ k, n.log2 = 52 + k := ⟨n.log2 - 52, by omega⟩
    have hzero : 52 - n.log2 = 0 := by omega
    have hsub : n.log2 - 52 = k := by omega
    have hjk : k ≤ j := by
      by_contra hjk
      have hlt : n < 2 ^ (52 + k) :=
        calc n = m * 2 ^ j := hmul
          _ < 2 ^ 53 * 2 ^ j := Nat.mul_lt_mul_of_pos_right hm (by positivity)
          _ = 2 ^ (53 + j) := (pow_add 2 53 j).symm
          _ ≤ 2 ^ (52 + k) := Nat.pow_le_pow_right (by decide) (by omega)
      rw [hk] at hlow
      exact absurd hlt (not_lt.2 hlow)
    have hfull : n = m * 2 ^ (j - k) * 2 ^ k := by rw [mul_assoc, ← pow_add, Nat.sub_add_cancel hjk,
      ← hmul]
    have hpos : 0 < 2 ^ k := by positivity
    rw [hk, hfull] at hlow hhigh
    rw [pow_add] at hlow
    rw [show 52 + k + 1 = 53 + k by omega, pow_add] at hhigh
    refine ⟨m * 2 ^ (j - k), Nat.le_of_mul_le_mul_right hlow hpos, Nat.lt_of_mul_lt_mul_right hhigh,
      ?_⟩
    rw [hzero, hsub, pow_zero, mul_one]
    exact hfull

/-- Rounding keeps a number that has 53 significant bits at most, however many zeros follow it. -/
private theorem roundWithAccuracy_holdsInt {n : Nat} (hn : n ≠ 0) (hbound : n < 2 ^ 64)
    (h : HoldsInt n) :
    ∃ (m : Nat) (e : Int) (hm : 0 < m), (2 ^ 52 ≤ m ∧ m < 2 ^ 53) ∧ (-1074 ≤ e ∧ e ≤ 971) ∧
      (m : ℚ) * 2 ^ e = n ∧
      ∀ (s : Sign) (j : Nat), 52 ≤ n.log2 + j → j ≤ 53 →
        roundWithAccuracy Format.binary64 s (n * 2 ^ j) (-j) .exact = .finite s m e hm := by
  obtain ⟨m, hlow, hhigh, hmul⟩ := exists_mantissa hn h
  have hm : 0 < m := by omega
  have hL : n.log2 < 64 := (Nat.log2_lt hn).2 hbound
  have hscale : (n : ℚ) * 2 ^ (52 - n.log2) = m * 2 ^ (n.log2 - 52) := by exact_mod_cast hmul
  have hcast : (n.log2 : Int) - 52 = (0 : Int) - (52 - n.log2 : Nat) + (n.log2 - 52 : Nat) := by
    omega
  have hvalue : (m : ℚ) * 2 ^ ((n.log2 : Int) - 52) = n := by
    rw [hcast, zpow_add₀ two_ne_zero, zero_sub, zpow_neg, zpow_natCast, zpow_natCast, mul_left_comm,
      ← hscale, mul_comm,
      mul_assoc, mul_inv_cancel₀ (by positivity), mul_one]
  refine ⟨m, (n.log2 : Int) - 52, hm, ⟨hlow, hhigh⟩, ⟨by omega, by omega⟩, hvalue, fun s j hj hj' =>
    ?_⟩
  obtain ⟨i, hi⟩ : ∃ i, j = 52 - n.log2 + i := ⟨j - (52 - n.log2), by omega⟩
  have hzeros : n * 2 ^ j = m * 2 ^ (n.log2 - 52 + i) := by rw [hi, pow_add, pow_add, ← mul_assoc,
    ← mul_assoc, hmul]
  have hexponent : -(j : Int) + (n.log2 - 52 + i : Nat) = (n.log2 : Int) - 52 := by omega
  rw [hzeros, roundWithAccuracy_exact hm hlow hhigh (by omega)]
  congr 1

private theorem value_pack {s : Sign} {m : Nat} {e : Int} {hm : 0 < m}
    (hmantissa : 2 ^ 52 ≤ m ∧ m < 2 ^ 53) (hexponent : -1074 ≤ e ∧ e ≤ 971) :
    value (pack (.finite s m e hm)) = some ((s.apply m : ℚ) * 2 ^ e) := by
  rw [value, unpack_pack_normal hm hmantissa.1 hmantissa.2 hexponent.1 hexponent.2]

private theorem value_round {s : Sign} {n : Nat} (hn : n ≠ 0) (hbound : n < 2 ^ 64)
    (h : HoldsInt n) :
    value (pack (UnpackedFloat.round Format.binary64 s n 0)) = some (s.apply n : ℚ) := by
  obtain ⟨m, e, hm, hmantissa, hexponent, hvalue, hround⟩ := roundWithAccuracy_holdsInt hn hbound h
  have htarget : Format.binary64.targetExponent (totalExponent n 0) = n.log2 - 52 := by
    have hL : n.log2 < 64 := (Nat.log2_lt hn).2 hbound
    simp only [Format.targetExponent, totalExponent, Format.mantissaBits, Format.minExponent]
    push_cast
    omega
  have hshift : (0 - ((n.log2 : Int) - 52)).toNat = 52 - n.log2 := by omega
  have hexact := hround s (52 - n.log2) (by omega) (by omega)
  rw [← zero_sub] at hexact
  rw [UnpackedFloat.round]
  simp only [htarget, decreaseExponent, hshift, Nat.shiftLeft_eq, hexact]
  rw [value_pack hmantissa hexponent]
  cases s with
  | positive => exact congrArg some hvalue
  | negative =>
    have happly : ∀ a : Nat, ((Sign.negative.apply a : Int) : ℚ) = -a :=
      fun a => by simp [Sign.apply]
    rw [happly, happly, neg_mul, hvalue]

private theorem value_zero : value (Float.Model.ofInt 0) = some 0 := by decide

/-- Within 64 bits, just the numbers with 53 significant bits at most are kept by the conversion. -/
theorem value_ofInt_iff {n : Int} (h : n.natAbs < 2 ^ 64) :
    value (Float.Model.ofInt n) = some (n : ℚ) ↔ HoldsInt n := by
  refine ⟨holdsInt_of_value, fun hn => ?_⟩
  rw [Float.Model.ofInt, UnpackedFloat.ofInt, UnpackedFloat.normalize]
  rcases lt_trichotomy n 0 with hneg | rfl | hpos
  · have hcompare : compare n 0 = .lt := compare_lt_iff_lt.2 hneg
    obtain ⟨a, rfl⟩ : ∃ a : Nat, n = -a := ⟨n.natAbs, by omega⟩
    rw [hcompare]
    simp only [neg_neg, Int.toNat_natCast]
    have hholds : HoldsInt (a : Int) := by
      obtain ⟨m, k, hm, habs⟩ := hn
      exact ⟨m, k, hm, by rw [← habs, Int.natAbs_neg]⟩
    exact value_round (s := .negative) (by omega) (by omega) hholds
  · exact value_zero
  · have hcompare : compare n 0 = .gt := compare_gt_iff_gt.2 hpos
    obtain ⟨a, rfl⟩ : ∃ a : Nat, n = a := ⟨n.natAbs, by omega⟩
    rw [hcompare]
    simp only [Int.toNat_natCast]
    exact value_round (s := .positive) (by omega) (by omega) hn

/-! ### Reading a whole number -/

private theorem ofScientific_pack {n : Nat} (hn : n ≠ 0) (hbound : n < 2 ^ 64) (h : HoldsInt n) :
    ∃ (m : Nat) (e : Int) (hm : 0 < m), (2 ^ 52 ≤ m ∧ m < 2 ^ 53) ∧ (-1074 ≤ e ∧ e ≤ 971) ∧
      (m : ℚ) * 2 ^ e = n ∧
      Float.Model.ofScientific n 0 = pack (.finite .positive m e hm) := by
  obtain ⟨m, e, hm, hmantissa, hexponent, hvalue, hround⟩ := roundWithAccuracy_holdsInt hn hbound h
  refine ⟨m, e, hm, hmantissa, hexponent, hvalue, congrArg pack ?_⟩
  have hsmall : ¬(0 : Int) > 2 ^ Format.binary64.exponentBits := by decide
  have hlarge : ¬(0 : Int) < -((2 ^ Format.binary64.exponentBits : Int) + n.log2) := by
    have hpow : (0 : Int) ≤ 2 ^ Format.binary64.exponentBits := by positivity
    omega
  have hsign : (.positive : Sign) * .positive = .positive := rfl
  have hbits : Format.binary64.mantissaBits = 53 := rfl
  rw [UnpackedFloat.ofScientific, dif_neg hn, if_neg hsmall, if_neg hlarge, if_pos le_rfl,
    UnpackedFloat.mul, hsign]
  simp only [hbits, Nat.shiftLeft_eq, Int.toNat_zero, pow_zero, mul_one, add_zero]
  exact hround .positive 53 (by omega) le_rfl

private theorem value_ofScientific_zero : value (Float.Model.ofScientific 0 0) = some 0 := by decide

/-- A whole number with 53 significant bits at most is read as it is. -/
theorem value_parse_ofInt {z : Int} (hbound : z.natAbs < 2 ^ 64) (h : HoldsInt z) :
    ∃ x, parse (Text.ofInt z) = some x ∧ x.value = some (z : ℚ) := by
  cases z with
  | ofNat n =>
    refine ⟨_, parse_ofNat n, ?_⟩
    rcases Nat.eq_zero_or_pos n with rfl | hn
    · exact value_ofScientific_zero
    · obtain ⟨m, e, hm, hmantissa, hexponent, hvalue, heq⟩ := ofScientific_pack hn.ne' hbound h
      rw [heq, value_pack hmantissa hexponent]
      exact congrArg some hvalue
  | negSucc n =>
    obtain ⟨m, e, hm, hmantissa, hexponent, hvalue, heq⟩ :=
      ofScientific_pack (Nat.succ_ne_zero n) hbound h
    refine ⟨_, parse_neg_ofNat (n + 1), ?_⟩
    have hneg : (Float.Model.ofScientific (n + 1) 0).neg = pack (.finite .negative m e hm) := by
      rw [Float.Model.neg, heq,
        unpack_pack_normal hm hmantissa.1 hmantissa.2 hexponent.1 hexponent.2]
      rfl
    have happly : ((Sign.negative.apply m : Int) : ℚ) = -m := by simp [Sign.apply]
    rw [hneg, value_pack hmantissa hexponent, happly, neg_mul, hvalue, Int.cast_negSucc]

/-! ### Order -/

/-- The canonical forms are ordered by the exponent first. -/
private theorem compare_canonical {m₁ m₂ : Nat} {e₁ e₂ : Int} (h₁ : Canonical m₁ e₁)
    (h₂ : Canonical m₂ e₂) :
    (compare e₁ e₂).then (compare m₁ m₂) = compare ((m₁ : ℚ) * 2 ^ e₁) (m₂ * 2 ^ e₂) := by
  have hless : ∀ {m₁ m₂ : Nat} {e₁ e₂ : Int}, Canonical m₁ e₁ → Canonical m₂ e₂ → e₁ < e₂ →
      (m₁ : ℚ) * 2 ^ e₁ < m₂ * 2 ^ e₂ := by
    intro m₁ m₂ e₁ e₂ h₁ h₂ he
    have hm₁ : (m₁ : ℚ) < 2 ^ 53 := by exact_mod_cast h₁.1
    have hm₂ : (2 : ℚ) ^ 52 ≤ m₂ := by
      have hnormal : 2 ^ 52 ≤ m₂ := h₂.2.2.resolve_right fun hmin => by have := h₁.2.1; omega
      exact_mod_cast hnormal
    calc (m₁ : ℚ) * 2 ^ e₁ < 2 ^ 53 * 2 ^ e₁ := mul_lt_mul_of_pos_right hm₁ (by positivity)
      _ = 2 ^ 52 * 2 ^ (e₁ + 1) := by rw [zpow_add_one₀ two_ne_zero]; ring
      _ ≤ 2 ^ 52 * 2 ^ e₂ :=
        mul_le_mul_of_nonneg_left (zpow_le_zpow_right₀ one_le_two he) (by positivity)
      _ ≤ m₂ * 2 ^ e₂ := mul_le_mul_of_nonneg_right hm₂ (by positivity)
  rcases lt_trichotomy e₁ e₂ with he | rfl | he
  · rw [compare_lt_iff_lt.2 he, compare_lt_iff_lt.2 (hless h₁ h₂ he)]
    rfl
  · have hpos : (0 : ℚ) < 2 ^ e₁ := by positivity
    rw [compare_eq_iff_eq.2 rfl]
    rcases lt_trichotomy m₁ m₂ with hm | rfl | hm
    · rw [compare_lt_iff_lt.2 hm,
        compare_lt_iff_lt.2 (mul_lt_mul_of_pos_right (Nat.cast_lt.2 hm) hpos)]
      rfl
    · rw [compare_eq_iff_eq.2 rfl, compare_eq_iff_eq.2 rfl]
      rfl
    · rw [compare_gt_iff_gt.2 hm,
        compare_gt_iff_gt.2 (mul_lt_mul_of_pos_right (Nat.cast_lt.2 hm) hpos)]
      rfl
  · rw [compare_gt_iff_gt.2 he, compare_gt_iff_gt.2 (hless h₂ h₁ he)]
    rfl

private theorem compare_neg_neg (a b : ℚ) : compare (-a) (-b) = (compare a b).swap := by
  rcases lt_trichotomy a b with h | rfl | h
  · rw [compare_lt_iff_lt.2 h, compare_gt_iff_gt.2 (neg_lt_neg h)]
    rfl
  · rw [compare_eq_iff_eq.2 rfl, compare_eq_iff_eq.2 rfl]
    rfl
  · rw [compare_gt_iff_gt.2 h, compare_lt_iff_lt.2 (neg_lt_neg h)]
    rfl

/-- The order of finite numbers, whose signs may differ. -/
private theorem compare_finite {s₁ s₂ : Sign} {m₁ m₂ : Nat} {e₁ e₂ : Int} {hm₁ : 0 < m₁}
    {hm₂ : 0 < m₂} (h₁ : Canonical m₁ e₁) (h₂ : Canonical m₂ e₂) :
    (UnpackedFloat.finite s₁ m₁ e₁ hm₁).compare (.finite s₂ m₂ e₂ hm₂) =
      some (compare ((s₁.apply m₁ : ℚ) * 2 ^ e₁) (s₂.apply m₂ * 2 ^ e₂)) := by
  have hpos₁ : (0 : ℚ) < m₁ * 2 ^ e₁ := mul_pos (Nat.cast_pos.2 hm₁) (by positivity)
  have hpos₂ : (0 : ℚ) < m₂ * 2 ^ e₂ := mul_pos (Nat.cast_pos.2 hm₂) (by positivity)
  have hplus : ∀ m : Nat, ((Sign.positive.apply m : Int) : ℚ) = m := fun m => rfl
  have hminus : ∀ m : Nat, ((Sign.negative.apply m : Int) : ℚ) = -m := fun m => by simp [Sign.apply]
  cases s₁ <;> cases s₂ <;> simp only [hplus, hminus, neg_mul]
  · rw [UnpackedFloat.compare, compare_canonical h₁ h₂, compare_neg_neg]
  · rw [compare_lt_iff_lt.2 (by linarith)]
    rfl
  · rw [compare_gt_iff_gt.2 (by linarith)]
    rfl
  · rw [UnpackedFloat.compare, compare_canonical h₁ h₂]

private theorem compare_unpack {x y : F64} {p q : ℚ} (hx : x.value = some p)
    (hy : y.value = some q) :
    x.unpack.compare y.unpack = some (compare p q) := by
  have hsign : ∀ {s : Sign} {m : Nat} {e : Int}, 0 < m →
      s = .positive ∧ 0 < (s.apply m : ℚ) * 2 ^ e ∨ s = .negative ∧
          (s.apply m : ℚ) * 2 ^ e < 0 := by
    intro s m e hm
    have hpos : (0 : ℚ) < m * 2 ^ e := mul_pos (Nat.cast_pos.2 hm) (by positivity)
    cases s with
    | positive => exact Or.inl ⟨rfl, hpos⟩
    | negative => exact Or.inr ⟨rfl, by simpa [Sign.apply] using hpos⟩
  rw [value] at hx hy
  cases hxu : x.unpack with
  | notANumber => simp [hxu] at hx
  | infinity s => simp [hxu] at hx
  | zero s =>
    obtain rfl : 0 = p := by simpa [hxu] using hx
    cases hyu : y.unpack with
    | notANumber => simp [hyu] at hy
    | infinity s => simp [hyu] at hy
    | zero s =>
      obtain rfl : 0 = q := by simpa [hyu] using hy
      rfl
    | finite t n f hn =>
      obtain rfl : (t.apply n : ℚ) * 2 ^ f = q := by simpa [hyu] using hy
      rcases hsign (s := t) (e := f) hn with ⟨rfl, hq⟩ | ⟨rfl, hq⟩
      · rw [compare_lt_iff_lt.2 hq]
        rfl
      · rw [compare_gt_iff_gt.2 hq]
        rfl
  | finite s m e hm =>
    obtain rfl : (s.apply m : ℚ) * 2 ^ e = p := by simpa [hxu] using hx
    cases hyu : y.unpack with
    | notANumber => simp [hyu] at hy
    | infinity s => simp [hyu] at hy
    | zero t =>
      obtain rfl : 0 = q := by simpa [hyu] using hy
      rcases hsign (s := s) (e := e) hm with ⟨rfl, hp⟩ | ⟨rfl, hp⟩
      · rw [compare_gt_iff_gt.2 hp]
        rfl
      · rw [compare_lt_iff_lt.2 hp]
        rfl
    | finite t n f hn =>
      obtain rfl : (t.apply n : ℚ) * 2 ^ f = q := by simpa [hyu] using hy
      exact compare_finite (canonical_unpack hxu) (canonical_unpack hyu)

/-- Finite numbers are ordered as they stand. -/
theorem lt_iff_value {x y : F64} {p q : ℚ} (hx : x.value = some p) (hy : y.value = some q) :
    x < y ↔ p < q := by
  have hcompare := compare_unpack hx hy
  change x.unpack.lt y.unpack = true ↔ p < q
  rw [UnpackedFloat.lt, hcompare]
  simp [compare_lt_iff_lt]

theorem le_iff_value {x y : F64} {p q : ℚ} (hx : x.value = some p) (hy : y.value = some q) :
    x ≤ y ↔ p ≤ q := by
  have hcompare := compare_unpack hx hy
  change x.unpack.le y.unpack = true ↔ p ≤ q
  rw [UnpackedFloat.le, hcompare]
  simp [Ordering.isLE_iff_ne_gt, compare_gt_iff_gt]

private theorem compare_swap (a b : UnpackedFloat) :
    b.compare a = (a.compare b).map Ordering.swap := by
  have hthen : ∀ (e₁ e₂ : Int) (m₁ m₂ : Nat),
      (compare e₂ e₁).then (compare m₂ m₁) = ((compare e₁ e₂).then (compare m₁ m₂)).swap := by
    intro e₁ e₂ m₁ m₂
    rw [Ordering.swap_then, Std.OrientedOrd.eq_swap (a := e₁), Std.OrientedOrd.eq_swap (a := m₁),
      Ordering.swap_swap,
      Ordering.swap_swap]
  cases a with
  | notANumber => cases b <;> rfl
  | infinity s => cases b with
    | notANumber => cases s <;> rfl
    | infinity t => cases s <;> cases t <;> rfl
    | zero t => cases s <;> rfl
    | finite t n f hn => cases s <;> rfl
  | zero s => cases b with
    | notANumber => rfl
    | infinity t => cases t <;> rfl
    | zero t => rfl
    | finite t n f hn => cases t <;> rfl
  | finite s m e hm => cases b with
    | notANumber => cases s <;> rfl
    | infinity t => cases s <;> cases t <;> rfl
    | zero t => cases s <;> rfl
    | finite t n f hn =>
      cases s <;> cases t
      · exact congrArg (fun o => some o.swap) (hthen e f m n)
      · rfl
      · rfl
      · exact congrArg some (hthen e f m n)

private theorem exists_compare {a b : UnpackedFloat} (ha : a.isNaN = false) (hb : b.isNaN = false) :
    ∃ o, a.compare b = some o := by
  cases a with
  | notANumber => cases ha
  | infinity s => cases b with
    | notANumber => cases hb
    | infinity t => exact ⟨_, rfl⟩
    | _ => cases s <;> exact ⟨_, rfl⟩
  | zero s => cases b with
    | notANumber => cases hb
    | zero t => exact ⟨_, rfl⟩
    | infinity t | finite t _ _ _ => cases t <;> exact ⟨_, rfl⟩
  | finite s m e hm => cases b with
    | notANumber => cases hb
    | zero t => cases s <;> exact ⟨_, rfl⟩
    | infinity t | finite t _ _ _ => cases s <;> cases t <;> exact ⟨_, rfl⟩

private theorem not_isNaN_of_compare {x y : F64} {o : Ordering}
    (h : x.unpack.compare y.unpack = some o) :
    x.isNaN = false ∧ y.isNaN = false := by
  have hright : ∀ a : UnpackedFloat, a.compare .notANumber = none := fun a => by cases a <;> rfl
  rw [Float.Model.isNaN, Float.Model.isNaN]
  cases hx : x.unpack with
  | notANumber =>
    rw [hx] at h
    cases h
  | _ =>
    refine ⟨rfl, ?_⟩
    cases hy : y.unpack with
    | notANumber =>
      rw [hy, hright] at h
      cases h
    | _ => rfl

/-- Only numbers are below one another. -/
theorem not_isNaN_of_lt {x y : F64} (h : x < y) : x.isNaN = false ∧ y.isNaN = false := by
  change (x.unpack.compare y.unpack == some .lt) = true at h
  exact not_isNaN_of_compare (beq_iff_eq.1 h)

theorem not_isNaN_of_le {x y : F64} (h : x ≤ y) : x.isNaN = false ∧ y.isNaN = false := by
  change (x.unpack.compare y.unpack).any (·.isLE) = true at h
  obtain ⟨o, ho, -⟩ := (Option.any_eq_true _ _).1 h
  exact not_isNaN_of_compare ho

theorem isNaN_of_value {x : F64} {p : ℚ} (h : x.value = some p) : x.isNaN = false := by
  rw [value] at h
  rw [Float.Model.isNaN]
  cases hx : x.unpack with
  | notANumber => simp [hx] at h
  | _ => rfl

theorem isFinite_of_value {x : F64} {p : ℚ} (h : x.value = some p) : x.isFinite = true := by
  rw [value] at h
  rw [Float.Model.isFinite]
  cases hx : x.unpack with
  | notANumber | infinity s => simp [hx] at h
  | _ => rfl

/-- Only one binary64 is not a number. -/
theorem eq_of_isNaN {x : F64} (h : x.isNaN = true) : x = pack .notANumber := by
  obtain ⟨bits, hvalid⟩ := x
  have hbits : bits.toBitVec = packedNaN Format.binary64 := by
    rw [Float.Model.isNaN, Float.Model.unpack, UnpackedFloat.unpack] at h
    refine hvalid.eq_packedNaN ?_ ?_
    · by_contra hexp
      simp only [if_neg hexp] at h
      split at h
      · split at h <;> cases h
      · cases h
    · intro hmantissa
      simp only [if_pos hmantissa] at h
      split at h
      · cases h
      · split at h <;> cases h
  obtain rfl : bits = UInt64.ofBitVec (packedNaN Format.binary64) := by rw [← hbits]
  rfl

theorem exists_value {x : F64} (h : x.isFinite = true) : ∃ p, x.value = some p := by
  rw [Float.Model.isFinite] at h
  rw [value]
  cases hx : x.unpack with
  | zero s => exact ⟨_, rfl⟩
  | finite s m e hm => exact ⟨_, rfl⟩
  | _ =>
    rw [hx] at h
    cases h

/-- Numbers are comparable. -/
theorem le_of_not_lt {x y : F64} (hx : x.isNaN = false) (hy : y.isNaN = false) (h : ¬x < y) :
    y ≤ x := by
  obtain ⟨o, ho⟩ := exists_compare hx hy
  change ¬(x.unpack.compare y.unpack == some .lt) = true at h
  change (y.unpack.compare x.unpack).any (·.isLE) = true
  rw [ho] at h
  rw [compare_swap, ho]
  cases o with
  | lt => exact absurd rfl h
  | eq | gt => rfl

/-- What is not finite is on the same side of all finite numbers. -/
theorem le_iff_of_value_none {x y z : F64} {p q : ℚ} (hx : x.value = some p) (hy : y.value = some q)
    (hz : z.value = none) :
    (z ≤ x ↔ z ≤ y) ∧ (x ≤ z ↔ y ≤ z) := by
  have hside : ∀ {a : F64} {r : ℚ}, a.value = some r →
      z.unpack.compare a.unpack = z.unpack.compare (.zero .positive) := by
    intro a r ha
    rw [value] at ha hz
    cases hau : a.unpack with
    | notANumber | infinity => simp [hau] at ha
    | zero t | finite t n f hn =>
      cases hzu : z.unpack with
      | notANumber => rfl
      | infinity s => cases s <;> rfl
      | zero | finite => simp [hzu] at hz
  have hcompare := (hside hx).trans (hside hy).symm
  change (z.unpack.le x.unpack = true ↔ z.unpack.le y.unpack = true) ∧
    (x.unpack.le z.unpack = true ↔ y.unpack.le z.unpack = true)
  rw [UnpackedFloat.le, UnpackedFloat.le, UnpackedFloat.le, UnpackedFloat.le,
    compare_swap z.unpack x.unpack,
    compare_swap z.unpack y.unpack, hcompare]
  exact ⟨Iff.rfl, Iff.rfl⟩

/-! ### Differences -/

/-- One number is held in one way only, but for the sign of zero. -/
private theorem unpack_eq_of_value {x y : F64} {p : ℚ} (hx : x.value = some p)
    (hy : y.value = some p) :
    x.unpack = y.unpack ∨ ∃ s t, x.unpack = .zero s ∧ y.unpack = .zero t := by
  have hcompare : x.unpack.compare y.unpack = some .eq := by
    rw [compare_unpack hx hy, compare_eq_iff_eq.2 rfl]
  have hsame : ∀ {m₁ m₂ : Nat} {e₁ e₂ : Int}, (compare e₁ e₂).then (compare m₁ m₂) = .eq → e₁ = e₂ ∧
      m₁ = m₂ := by
    intro m₁ m₂ e₁ e₂ h
    rw [Ordering.then_eq_eq, compare_eq_iff_eq, compare_eq_iff_eq] at h
    exact h
  rw [value] at hx hy
  cases hxu : x.unpack with
  | notANumber | infinity s => simp [hxu] at hx
  | zero s =>
    cases hyu : y.unpack with
    | notANumber | infinity t => simp [hyu] at hy
    | zero t => exact Or.inr ⟨s, t, rfl, rfl⟩
    | finite t n f hn =>
      rw [hxu, hyu] at hcompare
      cases t <;> cases hcompare
  | finite s m e hm =>
    cases hyu : y.unpack with
    | notANumber | infinity t => simp [hyu] at hy
    | zero t =>
      rw [hxu, hyu] at hcompare
      cases s <;> cases hcompare
    | finite t n f hn =>
      rw [hxu, hyu] at hcompare
      left
      cases s <;> cases t
      · obtain ⟨rfl, rfl⟩ := hsame (Ordering.swap_inj.1 (Option.some.inj hcompare))
        rfl
      · cases hcompare
      · cases hcompare
      · obtain ⟨rfl, rfl⟩ := hsame (Option.some.inj hcompare)
        rfl

/-- How far `w` is from a number does not depend on how the number is held. -/
theorem abs_sub_eq_of_value {w x y : F64} {p : ℚ} (hx : x.value = some p) (hy : y.value = some p) :
    (w - x).abs = (w - y).abs := by
  have hzero : ∀ s t : Sign, (pack (.zero s)).abs = (pack (.zero t)).abs := by decide
  change (pack (w.unpack.sub Format.binary64 x.unpack)).abs =
    (pack (w.unpack.sub Format.binary64 y.unpack)).abs
  obtain heq | ⟨s, t, hs, ht⟩ := unpack_eq_of_value hx hy
  · rw [heq]
  · rw [hs, ht]
    cases w.unpack with
    | notANumber | infinity u | finite u m e hm => rfl
    | zero u => cases u <;> cases s <;> cases t <;> exact hzero _ _

end F64

namespace Text

private def decimalUnsigned (s : Text) : Option ℚ :=
  let whole := s.takeWhile Char.isDigit
  let afterWhole := s.dropWhile Char.isDigit
  let (fraction, afterFraction) :=
    match afterWhole with
    | '.' :: rest => (rest.takeWhile Char.isDigit, rest.dropWhile Char.isDigit)
    | rest => ([], rest)
  if whole = [] ∧ fraction = [] then none
  else (F64.parseExponent afterFraction).map fun e : Int =>
    digitsValue (digitsValue 0 whole) fraction * 10 ^ (e - fraction.length)

/-- The number that a decimal text denotes: a sign, digits with a point among them, and an
exponent. -/
def decimal : Text → Option ℚ
  | '-' :: s => (decimalUnsigned s).map Neg.neg
  | '+' :: s => decimalUnsigned s
  | s => decimalUnsigned s

private theorem decimalUnsigned_of_parseDigits {s : Text} {n : Nat} (h : parseDigits s = some n) :
    decimalUnsigned s = some (n : ℚ) := by
  rw [parseDigits] at h
  split at h
  · rename_i hs
    have hall : ∀ c ∈ s, c.isDigit := List.all_eq_true.1 hs.2
    have htake : s.takeWhile Char.isDigit = s := List.takeWhile_eq_self_iff.2 hall
    have hdrop : s.dropWhile Char.isDigit = [] := List.dropWhile_eq_nil_iff.2 hall
    have hvalue : digitsValue (digitsValue 0 s) [] = n := Option.some.inj h
    simp only [decimalUnsigned, htake, hdrop, hs.1, false_and, if_false, F64.parseExponent,
      Option.map_some, hvalue,
      List.length_nil, Nat.cast_zero, sub_zero, zpow_zero, mul_one]
  · cases h

/-- A text that reads as an `i64` denotes that number. -/
theorem decimal_of_parseI64 {s : Text} {n : Int} (h : parseI64 s = some n) :
    decimal s = some (n : ℚ) := by
  have hdigits : ∀ {ds : Text} {p : Nat → Bool} {i : Int},
    (((parseDigits ds).filter p).bind fun m => some (m : Int)) =
      some i → decimalUnsigned ds = some (i : ℚ) := by
    intro ds p i h
    obtain ⟨m, hm, hi⟩ := Option.bind_eq_some_iff.1 h
    obtain rfl := Option.some.inj hi
    exact decimalUnsigned_of_parseDigits (Option.filter_eq_some_iff.1 hm).1
  rw [parseI64.eq_def] at h
  split at h
  · obtain ⟨i, hi, rfl⟩ := Option.map_eq_some_iff.1 h
    rw [decimal, hdigits hi, Int.cast_neg]
    rfl
  · obtain ⟨i, hi, rfl⟩ := Option.map_eq_some_iff.1 h
    exact hdigits hi
  · rename_i hminus hplus
    obtain ⟨i, hi, rfl⟩ := Option.map_eq_some_iff.1 h
    rw [decimal]
    · exact hdigits hi
    · exact hminus
    · exact hplus

end Text

end Foundations
