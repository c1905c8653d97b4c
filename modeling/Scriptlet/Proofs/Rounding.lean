import Scriptlet.Proofs.NumberBits

/-!
Rounding to numbers. What has the value of a number is rounded to this number. A significand that is
too long for a number is rounded by its value alone, whatever its exponent is.
-/

namespace Scriptlet.Decimal.Binary

open Float.Model (Format UnpackedFloat totalExponent)
open Float.Model.UnpackedFloat

def value (b : Binary) : ℚ := b.significand * 2 ^ b.exponent

variable {m m' : Nat} {e e' : Int} {b : Binary}

theorem value_eq_div (b : Binary) : b.value = b.numerator / b.denominator := by
  obtain ⟨m, e⟩ := b
  cases e with
  | ofNat n => simp [value, numerator, denominator]
  | negSucc n => simp [value, numerator, denominator, zpow_negSucc, div_eq_mul_inv]

theorem value_whole (n : Nat) : value ⟨n, 0⟩ = n := by
  rw [value, zpow_zero, mul_one]

theorem value_pos (h : b.significand ≠ 0) : 0 < b.value := by
  have hpos : (0 : ℚ) < b.significand := Nat.cast_pos.mpr (Nat.pos_of_ne_zero h)
  exact mul_pos hpos (zpow_pos two_pos _)

theorem value_mul (m m' : Nat) (e e' : Int) :
    value ⟨m, e⟩ * value ⟨m', e'⟩ = value ⟨m * m', e + e'⟩ := by
  rw [value, value, value, Nat.cast_mul, zpow_add₀ two_ne_zero]
  ring

theorem value_mul_pow (m k : Nat) (e : Int) : value ⟨m * 2 ^ k, e⟩ = value ⟨m, e + k⟩ := by
  rw [value, value, Nat.cast_mul, Nat.cast_pow, zpow_add₀ two_ne_zero, zpow_natCast]
  push_cast
  ring

theorem eq_of_value_eq (h : value ⟨m, e⟩ = value ⟨m', e⟩) : m = m' :=
  Nat.cast_injective (mul_right_cancel₀ (zpow_ne_zero e two_ne_zero) h)

/-! The power of two right above a value. -/

theorem zpow_le_value (hm : m ≠ 0) : (2 : ℚ) ^ (totalExponent m e - 1) ≤ value ⟨m, e⟩ := by
  have hlog : (2 : ℚ) ^ m.log2 ≤ m := by exact_mod_cast Nat.log2_self_le hm
  have htotal : totalExponent m e - 1 = m.log2 + e := by
    rw [totalExponent]
    omega
  rw [htotal, zpow_add₀ two_ne_zero, zpow_natCast]
  exact mul_le_mul_of_nonneg_right hlog (by positivity)

theorem value_lt_zpow (b : Binary) :
    b.value < (2 : ℚ) ^ totalExponent b.significand b.exponent := by
  have hlog : (b.significand : ℚ) < 2 ^ (b.significand.log2 + 1) := by
    exact_mod_cast Nat.lt_log2_self
  have htotal : totalExponent b.significand b.exponent =
      (b.significand.log2 + 1 : Nat) + b.exponent := rfl
  rw [htotal, zpow_add₀ two_ne_zero, zpow_natCast]
  exact mul_lt_mul_of_pos_right hlog (by positivity)

theorem totalExponent_le (hm : m ≠ 0) {n : Int} (h : value ⟨m, e⟩ < 2 ^ n) :
    totalExponent m e ≤ n := by
  have hlt := (zpow_lt_zpow_iff_right₀ (one_lt_two (α := ℚ))).mp ((zpow_le_value hm).trans_lt h)
  omega

theorem totalExponent_eq (hm : m ≠ 0) (hpos : b.significand ≠ 0) (h : value ⟨m, e⟩ = b.value) :
    totalExponent m e = totalExponent b.significand b.exponent := by
  apply le_antisymm
  · exact totalExponent_le hm (h ▸ b.value_lt_zpow)
  · exact totalExponent_le hpos (h ▸ value_lt_zpow ⟨m, e⟩)

/-! Rounding to the numbers leaves a number alone. -/

section Exact

variable (hb : b.Canonical) (hpos : b.significand ≠ 0)
include hb hpos

theorem targetExponent_eq :
    Format.binary64.targetExponent (totalExponent b.significand b.exponent) = b.exponent := by
  have hmin : Format.binary64.minExponent = -1074 := by decide
  have hwidth : Format.binary64.mantissaBits = 53 := rfl
  have hlt := (Nat.log2_lt hpos).mpr hb.significand_lt
  have hge := hb.le_exponent
  rw [Format.targetExponent, hmin, hwidth, totalExponent]
  obtain hnormal | hexp := hb.normal
  · have hle := (Nat.le_log2 hpos).mpr hnormal
    omega
  · omega

omit hb hpos in
theorem shiftRight_mul_pow (m k : Nat) :
    (⟨m * 2 ^ k, false, false⟩ : ExtendedMantissa) >>> k = ⟨m, false, false⟩ := by
  induction k generalizing m with
  | zero =>
      rw [Nat.pow_zero, Nat.mul_one]
      rfl
  | succ k ih =>
      have hstep : (⟨m * 2 ^ (k + 1), false, false⟩ : ExtendedMantissa) >>> (k + 1) =
          ((⟨m * 2 * 2 ^ k, false, false⟩ : ExtendedMantissa) >>> k).shiftRightOne := by
        rw [Nat.pow_succ', ← Nat.mul_assoc]
        rfl
      rw [hstep, ih, ExtendedMantissa.shiftRightOne]
      simp

theorem shiftToTargetExponent_exact (h : value ⟨m, e⟩ = b.value) (he : e ≤ b.exponent) :
    shiftToTargetExponent .binary64 m e .exact = (⟨b.significand, false, false⟩, b.exponent) := by
  obtain ⟨k, hk⟩ := Int.le.dest he
  obtain rfl : m = b.significand * 2 ^ k := by
    apply eq_of_value_eq (e := e)
    rw [h, value_mul_pow, hk]
  have hm : b.significand * 2 ^ k ≠ 0 := Nat.mul_ne_zero hpos (Nat.two_pow_pos k).ne'
  have hshift : (b.exponent - e).toNat = k := by omega
  rw [shiftToTargetExponent, totalExponent_eq hm hpos h, targetExponent_eq hb hpos,
    shiftToExponent, hshift, ExtendedMantissa.ofMantissaAndAccuracy, shiftRight_mul_pow, hk]

theorem roundWithAccuracy_exact (s : Sign) (h : value ⟨m, e⟩ = b.value) (he : e ≤ b.exponent) :
    roundWithAccuracy .binary64 s m e .exact = b.signed s := by
  have hrounded : (⟨b.significand, false, false⟩ : ExtendedMantissa).roundedMantissa =
      b.significand := rfl
  have hself : value ⟨b.significand, b.exponent⟩ = b.value := rfl
  simp only [roundWithAccuracy, shiftToTargetExponent_exact hb hpos h he, hrounded,
    shiftToTargetExponent_exact hb hpos hself le_rfl]
  rfl

theorem round_exact (s : Sign) (h : value ⟨m, e⟩ = b.value) :
    UnpackedFloat.round .binary64 s m e = b.signed s := by
  have hm : m ≠ 0 := by
    rintro rfl
    have hvalue := value_pos hpos
    rw [← h, value, Nat.cast_zero, zero_mul] at hvalue
    exact hvalue.false
  rw [UnpackedFloat.round, totalExponent_eq hm hpos h, targetExponent_eq hb hpos,
    decreaseExponent]
  apply roundWithAccuracy_exact hb hpos
  · rw [Nat.shiftLeft_eq, value_mul_pow, Int.sub_add_cancel, h]
  · omega

theorem roundWithAccuracy_long (s : Sign) (h : value ⟨m, e⟩ = b.value) (hlong : 2 ^ 53 ≤ m) :
    roundWithAccuracy .binary64 s m e .exact = b.signed s := by
  refine roundWithAccuracy_exact hb hpos s h ?_
  -- With the larger exponent, `m` would be shorter than the significand of the number.
  by_contra hlt
  obtain ⟨k, hk⟩ := Int.le.dest (Int.le_of_not_le hlt)
  rw [← hk, ← value_mul_pow] at h
  have hsignificand : m * 2 ^ k = b.significand := eq_of_value_eq h
  have hle : m ≤ m * 2 ^ k := Nat.le_mul_of_pos_right _ (Nat.two_pow_pos k)
  have hlt := hb.significand_lt
  omega

omit hb hpos in
theorem totalExponent_sub_le (hm : m ≠ 0) (h : value ⟨m, e⟩ = b.value * value ⟨m', e'⟩) :
    totalExponent m e - totalExponent m' e' ≤ totalExponent b.significand b.exponent := by
  have hlt : value ⟨m, e⟩ <
      (2 : ℚ) ^ (totalExponent b.significand b.exponent + totalExponent m' e') := by
    rw [h, zpow_add₀ two_ne_zero]
    exact mul_lt_mul'' b.value_lt_zpow (value_lt_zpow ⟨m', e'⟩) (by unfold value; positivity)
      (by unfold value; positivity)
  have hle := totalExponent_le hm hlt
  omega

/-- A quotient is taken to so many bits that nothing is left of one that is a number. -/
theorem div_exact {s s' : Sign} {hm : 0 < m} {hm' : 0 < m'}
    (h : value ⟨m, e⟩ = b.value * value ⟨m', e'⟩) :
    UnpackedFloat.div .binary64 (.finite s m e hm) (.finite s' m' e' hm') = b.signed (s / s') := by
  obtain ⟨target, htarget⟩ : ∃ target, target = min (e - e') (Format.binary64.targetExponent
    (totalExponent m e - totalExponent m' e')) := ⟨_, rfl⟩
  have hle : target ≤ b.exponent := by
    have hsub := totalExponent_sub_le hm.ne' h
    rw [← targetExponent_eq hb hpos, htarget, Format.targetExponent, Format.targetExponent]
    omega
  obtain ⟨k, hk⟩ := Int.le.dest hle
  obtain ⟨shift, hshift⟩ := Int.le.dest (htarget.le.trans (min_le_left _ _))
  have hquotient : m * 2 ^ shift = b.significand * 2 ^ k * m' := by
    have he : e = target + e' + shift := by omega
    have hproduct : target + k + e' = target + e' + k := by omega
    apply eq_of_value_eq (e := target + e')
    calc value ⟨m * 2 ^ shift, target + e'⟩ = value ⟨m, e⟩ := by rw [value_mul_pow, he]
      _ = value ⟨b.significand, b.exponent⟩ * value ⟨m', e'⟩ := h
      _ = value ⟨b.significand * 2 ^ k * m', target + e'⟩ := by
        rw [value_mul, ← hk, hproduct, ← value_mul_pow, Nat.mul_right_comm]
  have hcore : divCore .binary64 m e m' e' = (b.significand * 2 ^ k, target, .exact) := by
    have hamount : (e - e' - target).toNat = shift := by omega
    simp only [divCore, ← htarget, hamount, Nat.shiftLeft_eq, hquotient, Nat.mul_div_cancel _ hm',
      Nat.mul_mod_left, accuracyOfFraction, if_pos]
  simp only [UnpackedFloat.div, hcore]
  refine roundWithAccuracy_exact hb hpos (s / s') ?_ hle
  rw [value_mul_pow, hk]

end Exact

/-! A long significand is rounded by its value. -/

theorem shiftRight_mul_pow_add (m k n : Nat) :
    (⟨m * 2 ^ k, false, false⟩ : ExtendedMantissa) >>> (k + n) =
      (⟨m, false, false⟩ : ExtendedMantissa) >>> n := by
  induction n with
  | zero => exact shiftRight_mul_pow m k
  | succ n ih => exact congrArg ExtendedMantissa.shiftRightOne ih

theorem le_targetExponent (hm : 2 ^ 53 ≤ m) (e : Int) :
    e ≤ Format.binary64.targetExponent (totalExponent m e) := by
  have hwidth : Format.binary64.mantissaBits = 53 := rfl
  have hlog : 53 ≤ m.log2 := (Nat.le_log2 (by omega)).mpr hm
  rw [Format.targetExponent, hwidth, totalExponent]
  omega

theorem shiftToTargetExponent_mul_pow (hm : 2 ^ 53 ≤ m) (k : Nat) (e : Int) :
    shiftToTargetExponent .binary64 (m * 2 ^ k) e .exact =
      shiftToTargetExponent .binary64 m (e + k) .exact := by
  have hpos : m ≠ 0 := by omega
  have hpos' : m * 2 ^ k ≠ 0 := Nat.mul_ne_zero hpos (Nat.two_pow_pos k).ne'
  have htotal : totalExponent (m * 2 ^ k) e = totalExponent m (e + k) :=
    totalExponent_eq (b := ⟨m, e + k⟩) hpos' hpos (value_mul_pow m k e)
  -- Both are cut at the same exponent, which lies above `e + k`: no bit of `2 ^ k` is left.
  obtain ⟨n, hn⟩ := Int.le.dest (le_targetExponent hm (e + k))
  have hshift : (e + k + n - e).toNat = k + n := by omega
  have hshift' : (e + k + n - (e + k)).toNat = n := by omega
  have hexponent : e + (k + n : Nat) = e + k + n := by omega
  rw [shiftToTargetExponent, shiftToTargetExponent, htotal, ← hn, shiftToExponent, shiftToExponent,
    hshift, hshift', hexponent]
  exact congrArg (·, _) (shiftRight_mul_pow_add m k n)

/-- Long significands of the same value are rounded alike. -/
theorem roundWithAccuracy_eq (s : Sign) (hm : 2 ^ 53 ≤ m) (hm' : 2 ^ 53 ≤ m')
    (h : value ⟨m, e⟩ = value ⟨m', e'⟩) :
    roundWithAccuracy .binary64 s m e .exact = roundWithAccuracy .binary64 s m' e' .exact := by
  wlog hle : e ≤ e' generalizing m m' e e'
  · exact (this hm' hm h.symm (Int.le_of_not_le hle)).symm
  · obtain ⟨k, rfl⟩ := Int.le.dest hle
    rw [← value_mul_pow] at h
    obtain rfl := eq_of_value_eq h
    rw [roundWithAccuracy, roundWithAccuracy, shiftToTargetExponent_mul_pow hm']

/-- A whole number below `2 ^ 53` is a number. -/
theorem exists_value_eq {n : Nat} (hn : n ≠ 0) (hlt : n < 2 ^ 53) :
    ∃ b : Binary, b.Canonical ∧ 2 ^ 52 ≤ b.significand ∧ b.value = n := by
  have hlog : n.log2 < 53 := (Nat.log2_lt hn).mpr hlt
  have hlow : 2 ^ 52 = 2 ^ n.log2 * 2 ^ (52 - n.log2) := by
    rw [← Nat.pow_add, Nat.add_sub_cancel' (Nat.le_of_lt_succ hlog)]
  have hhigh : 2 ^ 53 = 2 ^ (n.log2 + 1) * 2 ^ (52 - n.log2) := by
    calc 2 ^ 53 = 2 ^ 52 * 2 := rfl
      _ = 2 ^ (n.log2 + 1) * 2 ^ (52 - n.log2) := by
        rw [hlow, Nat.pow_succ, Nat.mul_right_comm]
  have hle : 2 ^ 52 ≤ n * 2 ^ (52 - n.log2) := by
    rw [hlow]
    exact Nat.mul_le_mul_right _ (Nat.log2_self_le hn)
  have hbound : n * 2 ^ (52 - n.log2) < 2 ^ 53 := by
    rw [hhigh]
    exact Nat.mul_lt_mul_of_pos_right Nat.lt_log2_self (Nat.two_pow_pos _)
  refine ⟨⟨n * 2 ^ (52 - n.log2), -(52 - n.log2 : Nat)⟩, ⟨hbound, ?_, ?_, .inl hle⟩, hle, ?_⟩
  · dsimp only
    omega
  · dsimp only
    omega
  · rw [value_mul_pow, Int.add_left_neg, value_whole]

theorem unpack_toFloat {n : Nat} (hn : n ≠ 0) (hlt : n < 2 ^ 53) (hb : b.Canonical)
    (hpos : b.significand ≠ 0) (h : b.value = n) :
    n.toUInt64.toFloat.toModel.unpack = b.signed .positive := by
  have hnat : n.toUInt64.toNat = n := by
    rw [UInt64.toNat_ofNat']
    omega
  have hgt : compare (n : Int) 0 = .gt := Int.compare_eq_gt.mpr (by omega)
  change (Float.Model.pack (UnpackedFloat.ofUInt64 .binary64 n.toUInt64)).unpack = _
  rw [UnpackedFloat.ofUInt64, hnat, UnpackedFloat.ofNat, UnpackedFloat.ofInt,
    UnpackedFloat.normalize, hgt]
  dsimp only
  rw [Int.toNat_natCast, round_exact hb hpos _ ((value_whole n).trans h.symm), unpack_pack _ hb]

theorem powers_of_ten : ∀ i : Fin Float.exactlyRepresentablePowersOfTen.size,
    Number.IsFinite Float.exactlyRepresentablePowersOfTen[i] ∧
      Number.isNegative Float.exactlyRepresentablePowersOfTen[i] = false ∧
      2 ^ 52 ≤ (ofFloat Float.exactlyRepresentablePowersOfTen[i]).significand ∧
      (ofFloat Float.exactlyRepresentablePowersOfTen[i]).numerator =
        10 ^ i.val * (ofFloat Float.exactlyRepresentablePowersOfTen[i]).denominator := by
  unfold Number.IsFinite
  decide +kernel

/-- So are the first powers of ten. -/
theorem exists_power {k : Nat} (hk : k < Float.exactlyRepresentablePowersOfTen.size) :
    ∃ b : Binary, b.Canonical ∧ 2 ^ 52 ≤ b.significand ∧ b.value = 10 ^ k ∧
      Float.exactlyRepresentablePowersOfTen[k].toModel.unpack = b.signed .positive := by
  obtain ⟨hfinite, hsign, hnormal, hvalue⟩ := powers_of_ten ⟨k, hk⟩
  refine ⟨ofFloat Float.exactlyRepresentablePowersOfTen[k], hfinite.canonical, hnormal, ?_, ?_⟩
  · have hpos : ((ofFloat Float.exactlyRepresentablePowersOfTen[k]).denominator : ℚ) ≠ 0 :=
      Nat.cast_ne_zero.mpr (Nat.two_pow_pos _).ne'
    rw [value_eq_div, div_eq_iff hpos]
    exact_mod_cast hvalue
  · exact hfinite.unpack_of_not_negative hsign

end Scriptlet.Decimal.Binary
