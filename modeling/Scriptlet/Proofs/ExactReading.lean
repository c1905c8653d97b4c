import Scriptlet.Proofs.Rounding

/-!
How numerals are read. A numeral is read in one of two ways: by one operation on numbers if its
coefficient and its power of ten are numbers themselves, by way of longer whole numbers otherwise.
Either way, a numeral that has the value of a number is read as this number; so is the shortest
numeral of a number. And a whole number is read as the same number whether its last zeros are
written out or left to the power of ten.
-/

namespace Scriptlet.Decimal

open Float.Model (Format UnpackedFloat totalExponent)
open Float.Model.UnpackedFloat

def value (d : Decimal) : ℚ := d.coefficient * 10 ^ d.exponent

/-! The ways in which numerals are read. -/

section Reading

variable {b : Binary} {c k : Nat} (hb : b.Canonical) (hpos : b.significand ≠ 0) (hc : c ≠ 0)

include hc in
/-- The parts of a coefficient and of a power of ten that are numbers. -/
theorem exists_parts (hshort : c < 2 ^ 53) (hk : k < Float.exactlyRepresentablePowersOfTen.size) :
    ∃ m e hm m' e' hm', Binary.value ⟨m, e⟩ = c ∧ Binary.value ⟨m', e'⟩ = 10 ^ k ∧
      2 ^ 53 ≤ m * m' ∧ c.toUInt64.toFloat.toModel.unpack = .finite .positive m e hm ∧
      Float.exactlyRepresentablePowersOfTen[k].toModel.unpack = .finite .positive m' e' hm' := by
  obtain ⟨b, hb, hnormal, hvalue⟩ := Binary.exists_value_eq hc hshort
  obtain ⟨b', hb', hnormal', hvalue', hpower⟩ := Binary.exists_power hk
  have hpos : b.significand ≠ 0 := by omega
  have hpos' : b'.significand ≠ 0 := by omega
  have hwhole := Binary.unpack_toFloat hc hshort hb hpos hvalue
  rw [Binary.signed_eq_finite _ hpos] at hwhole
  rw [Binary.signed_eq_finite _ hpos'] at hpower
  refine ⟨_, _, _, _, _, _, hvalue, hvalue', ?_, hwhole, hpower⟩
  calc 2 ^ 53 ≤ 2 ^ 52 * 2 ^ 52 := by decide
    _ ≤ b.significand * b'.significand := Nat.mul_le_mul hnormal hnormal'

include hb hpos hc

theorem unpack_quotient (hshort : c < 2 ^ 53)
    (hk : k < Float.exactlyRepresentablePowersOfTen.size) (h : c = b.value * 10 ^ k) :
    (c.toUInt64.toFloat / Float.exactlyRepresentablePowersOfTen[k]).toModel.unpack =
      b.signed .positive := by
  obtain ⟨m, e, hm, m', e', hm', hv, hv', -, hwhole, hpower⟩ := exists_parts hc hshort hk
  change (Float.Model.pack (UnpackedFloat.div .binary64 c.toUInt64.toFloat.toModel.unpack
    Float.exactlyRepresentablePowersOfTen[k].toModel.unpack)).unpack = _
  rw [hwhole, hpower, Binary.div_exact hb hpos (by rw [hv, hv', h])]
  exact Binary.unpack_pack _ hb

omit hpos hc in
theorem value_lt : b.value < 2 ^ 1024 := by
  have hsig : (b.significand : ℚ) < 2 ^ 53 := by exact_mod_cast hb.significand_lt
  have hexp : (2 : ℚ) ^ b.exponent ≤ 2 ^ (971 : ℤ) := zpow_le_zpow_right₀ one_le_two hb.exponent_le
  calc b.value < 2 ^ 53 * 2 ^ b.exponent := mul_lt_mul_of_pos_right hsig (by positivity)
    _ ≤ 2 ^ 53 * 2 ^ (971 : ℤ) := mul_le_mul_of_nonneg_left hexp (by positivity)
    _ = 2 ^ 1024 := by
      rw [← zpow_natCast, ← zpow_natCast, ← zpow_add₀ two_ne_zero]
      rfl

omit hc in
theorem one_le_value : 1 ≤ b.value * 2 ^ 1074 := by
  have hsig : (1 : ℚ) ≤ b.significand := by exact_mod_cast Nat.pos_of_ne_zero hpos
  have hexp : (2 : ℚ) ^ (-1074 : ℤ) ≤ 2 ^ b.exponent :=
    zpow_le_zpow_right₀ one_le_two hb.le_exponent
  calc (1 : ℚ) = 1 * 2 ^ (-1074 : ℤ) * 2 ^ 1074 := by norm_num
    _ ≤ b.significand * 2 ^ b.exponent * 2 ^ 1074 :=
      mul_le_mul_of_nonneg_right (mul_le_mul hsig hexp (by positivity) (by positivity))
        (by positivity)

omit hb hpos hc in
theorem lt_of_ten_pow_lt {n : Nat} (h : (10 : ℚ) ^ k < 2 ^ n) : 3 * k < n := by
  have height : (2 : ℚ) ^ (3 * k) ≤ 10 ^ k := by
    rw [pow_mul]
    exact pow_le_pow_left₀ (by norm_num) (by norm_num) k
  exact (pow_lt_pow_iff_right₀ one_lt_two).mp (height.trans_lt h)

theorem ofScientific_quotient (hk : k ≠ 0) (h : c = b.value * 10 ^ k) :
    UnpackedFloat.ofScientific .binary64 c (-k) = b.signed .positive := by
  -- the numeral is not so small that it is taken for zero at once
  have hlow : ¬ (-k : ℤ) < -(2 ^ 11 + c.log2) := by
    have hlog : (c : ℚ) < 2 ^ (c.log2 + 1) := by exact_mod_cast Nat.lt_log2_self
    have hpower : (10 : ℚ) ^ k < 2 ^ (c.log2 + 1 + 1074) := by
      calc (10 : ℚ) ^ k ≤ 10 ^ k * (b.value * 2 ^ 1074) :=
            le_mul_of_one_le_right (by positivity) (one_le_value hb hpos)
        _ = c * 2 ^ 1074 := by rw [h, mul_left_comm, mul_assoc]
        _ < 2 ^ (c.log2 + 1) * 2 ^ 1074 := mul_lt_mul_of_pos_right hlog (by positivity)
        _ = 2 ^ (c.log2 + 1 + 1074) := (pow_add _ _ _).symm
    have hlt := lt_of_ten_pow_lt hpower
    omega
  have hhigh : ¬ (-k : ℤ) > 2 ^ 11 := by omega
  have hneg : ¬ (0 : ℤ) ≤ -k := by omega
  simp only [UnpackedFloat.ofScientific, dif_neg hc, if_neg hlow, if_neg hhigh, if_neg hneg]
  refine Binary.div_exact hb hpos ?_
  rw [Binary.value_whole, Binary.value_whole, h, Nat.cast_pow, Int.neg_neg, Int.toNat_natCast]
  rfl

omit hpos in
/-- A whole number that is a number is not so large that it is taken for infinity. -/
theorem le_of_product_eq (h : c * 10 ^ k = b.value) : k ≤ 2 ^ 11 := by
  have hone : (1 : ℚ) ≤ c := by exact_mod_cast Nat.pos_of_ne_zero hc
  have hpower : (10 : ℚ) ^ k < 2 ^ 1024 := by
    calc (10 : ℚ) ^ k ≤ c * 10 ^ k := le_mul_of_one_le_left (by positivity) hone
      _ < 2 ^ 1024 := h ▸ value_lt hb
  have hlt := lt_of_ten_pow_lt hpower
  omega

omit hb hpos

theorem ofScientific_product (hk : k ≤ 2 ^ 11) :
    UnpackedFloat.ofScientific .binary64 c k =
      roundWithAccuracy .binary64 .positive (c <<< 53 * 10 ^ k) (-53) .exact := by
  have hhigh : ¬ (k : ℤ) > 2 ^ 11 := by omega
  have hlow : ¬ (k : ℤ) < -(2 ^ 11 + c.log2) := by omega
  have hnonneg : (0 : ℤ) ≤ k := by omega
  simp only [UnpackedFloat.ofScientific, dif_neg hc, if_neg hlow, if_neg hhigh, if_pos hnonneg]
  rfl

omit hc in
theorem toFloat_of_short (hshort : c < 2 ^ 53)
    (hk : k < Float.exactlyRepresentablePowersOfTen.size) :
    toFloat ⟨c, k⟩ = c.toUInt64.toFloat * Float.exactlyRepresentablePowersOfTen[k] := by
  have hnonneg : ¬ (k : Int) < 0 := by omega
  have hboth : c < 2 ^ 53 ∧ k ≤ 22 := ⟨hshort, Nat.le_of_lt_succ hk⟩
  simp only [toFloat, Float.ofScientific, Int.natAbs_natCast, dif_pos hboth, hnonneg]
  rfl

omit hc in
theorem toModel_of_long (hlong : ¬ (c < 2 ^ 53 ∧ k ≤ 22)) :
    (toFloat ⟨c, k⟩).toModel = Float.Model.pack (UnpackedFloat.ofScientific .binary64 c k) := by
  have hnonneg : ¬ (k : Int) < 0 := by omega
  simp only [toFloat, Float.ofScientific, Int.natAbs_natCast, dif_neg hlong, hnonneg]
  rfl

/-- A whole number is read by rounding a long significand of its value. -/
theorem exists_rounded (hk : k ≤ 2 ^ 11) :
    ∃ m e, 2 ^ 53 ≤ m ∧ Binary.value ⟨m, e⟩ = c * 10 ^ k ∧ (toFloat ⟨c, k⟩).toModel =
      Float.Model.pack (roundWithAccuracy .binary64 .positive m e .exact) := by
  by_cases hshort : c < 2 ^ 53 ∧ k ≤ 22
  · have hindex : k < Float.exactlyRepresentablePowersOfTen.size := Nat.lt_succ_of_le hshort.2
    obtain ⟨m, e, hm, m', e', hm', hv, hv', hlong, hwhole, hpower⟩ :=
      exists_parts hc hshort.1 hindex
    refine ⟨m * m', e + e', hlong, ?_, ?_⟩
    · rw [← Binary.value_mul, hv, hv']
    · rw [toFloat_of_short hshort.1 hindex]
      change Float.Model.pack (UnpackedFloat.mul .binary64 c.toUInt64.toFloat.toModel.unpack
        Float.exactlyRepresentablePowersOfTen[k].toModel.unpack) = _
      rw [hwhole, hpower]
      rfl
  · refine ⟨c <<< 53 * 10 ^ k, -53, ?_, ?_, ?_⟩
    · rw [Nat.shiftLeft_eq, Nat.mul_right_comm]
      exact Nat.le_mul_of_pos_left _
        (Nat.mul_pos (Nat.pos_of_ne_zero hc) (Nat.pow_pos (by decide)))
    · rw [Nat.shiftLeft_eq, Nat.mul_right_comm, Binary.value_mul_pow]
      exact (Binary.value_whole _).trans (by push_cast; rfl)
    · rw [toModel_of_long hshort, ofScientific_product hc hk]

end Reading

variable {d : Decimal} {b : Binary}

/-- A numeral that has the value of a number is read as this number. -/
theorem unpack_toFloat_of_value_eq (hb : b.Canonical) (hpos : b.significand ≠ 0)
    (h : d.value = b.value) : d.toFloat.toModel.unpack = b.signed .positive := by
  obtain ⟨c, q⟩ := d
  have hc : c ≠ 0 := by
    rintro rfl
    have hvalue := Binary.value_pos hpos
    rw [← h, value, Nat.cast_zero, zero_mul] at hvalue
    exact hvalue.false
  by_cases hneg : q < 0
  · obtain ⟨k, rfl⟩ : ∃ k : Nat, q = -k := ⟨q.natAbs, by omega⟩
    have hquotient : (c : ℚ) = b.value * 10 ^ k := by
      rw [← h, value, zpow_neg, zpow_natCast, inv_mul_cancel_right₀ (by positivity)]
    unfold toFloat Float.ofScientific
    simp only [hneg, decide_true, if_true, Int.natAbs_neg, Int.natAbs_natCast]
    split
    · next hshort =>
      exact unpack_quotient hb hpos hc hshort.1 (Nat.lt_succ_of_le hshort.2) hquotient
    · have hk : k ≠ 0 := by omega
      change (Float.Model.pack (UnpackedFloat.ofScientific .binary64 c (Int.negOfNat k))).unpack = _
      rw [Int.negOfNat_eq, Int.ofNat_eq_natCast, ofScientific_quotient hb hpos hc hk hquotient]
      exact Binary.unpack_pack _ hb
  · obtain ⟨k, rfl⟩ : ∃ k : Nat, q = k := ⟨q.natAbs, by omega⟩
    have hproduct : (c : ℚ) * 10 ^ k = b.value := by
      rw [← h, value, zpow_natCast]
    obtain ⟨m, e, hlong, hvalue, hread⟩ := exists_rounded hc (le_of_product_eq hb hc hproduct)
    rw [hread, Binary.roundWithAccuracy_long hb hpos _ (hvalue.trans hproduct) hlong]
    exact Binary.unpack_pack _ hb

theorem unpack_toFloat_zero (k : Nat) : (toFloat ⟨0, k⟩).toModel.unpack = .zero .positive := by
  by_cases hk : k < 23
  · have hbits : ∀ i : Fin 23, (toFloat ⟨0, i.val⟩).toBits = 0 := by decide +kernel
    have hzero := hbits ⟨k, hk⟩
    have hfinite : Number.IsFinite (toFloat ⟨0, k⟩) := by
      rw [Number.IsFinite, hzero]
      decide
    rw [hfinite.unpack_eq, Binary.ofFloat_eq, hzero]
    rfl
  · rw [toModel_of_long (by omega)]
    exact Binary.unpack_pack (b := ⟨0, -1074⟩) .positive ⟨by decide, by decide, by decide, .inr rfl⟩

/-- A whole number is read alike with its last zeros and without them. -/
theorem toFloat_whole {c k : Nat} (hk : c ≠ 0 → k ≤ 2 ^ 11) :
    toFloat ⟨c, k⟩ = toFloat ⟨c * 10 ^ k, 0⟩ := by
  apply Binary.eq_of_unpack_eq
  by_cases hc : c = 0
  · rw [hc, Nat.zero_mul, unpack_toFloat_zero k]
    exact (unpack_toFloat_zero 0).symm
  · have hc' : c * 10 ^ k ≠ 0 := Nat.mul_ne_zero hc (Nat.pow_pos (by decide)).ne'
    obtain ⟨m, e, hlong, hvalue, hread⟩ := exists_rounded hc (hk hc)
    obtain ⟨m', e', hlong', hvalue', hread'⟩ := exists_rounded hc' (Nat.zero_le (2 ^ 11))
    have hsame : Binary.value ⟨m, e⟩ = Binary.value ⟨m', e'⟩ := by
      rw [hvalue, hvalue', pow_zero, mul_one, Nat.cast_mul, Nat.cast_pow]
      rfl
    rw [hread, Binary.roundWithAccuracy_eq .positive hlong hlong' hsame]
    exact congrArg Float.Model.unpack hread'.symm

/-- A numeral with a larger power of ten is read as infinity. -/
theorem exponent_le_of_isFinite (h : Number.IsFinite d.toFloat) (hc : d.coefficient ≠ 0) :
    d.exponent ≤ 2 ^ 11 := by
  obtain ⟨c, q⟩ := d
  by_contra hq
  obtain ⟨k, rfl⟩ : ∃ k : Nat, q = k := ⟨q.natAbs, by dsimp only at hq; omega⟩
  have hhigh : (k : Int) > 2 ^ 11 := Int.not_le.mp hq
  have hinfinity : (toFloat ⟨c, k⟩).toModel = Float.Model.pack (.infinity .positive) := by
    rw [toModel_of_long (by omega)]
    simp only [UnpackedFloat.ofScientific, dif_neg hc, if_pos hhigh]
  have hbits : (toFloat ⟨c, k⟩).toBits = _ := congrArg Float.Model.toBits hinfinity
  rw [Number.IsFinite, hbits] at h
  exact h (by decide)

/-! The shortest numeral. -/

theorem value_exact (b : Binary) : (exact b).value = b.value := by
  obtain ⟨m, e⟩ := b
  cases e with
  | ofNat n => simp [exact, value, Binary.value, Binary.numerator]
  | negSucc n =>
      have hten : (10 : ℚ) ^ (n + 1) = 2 ^ (n + 1) * 5 ^ (n + 1) := by
        rw [← mul_pow]
        norm_num
      have hexact : exact ⟨m, .negSucc n⟩ = ⟨m * 5 ^ (n + 1), .negSucc n⟩ := by
        simp [exact, Binary.numerator]
        omega
      rw [hexact, value, Binary.value, zpow_negSucc, zpow_negSucc, hten]
      push_cast
      field_simp

theorem toFloat_withDigits? {x : Float} {magnitude : Int} {count : Nat}
    (h : withDigits? x b magnitude count = some d) : d.toFloat = x := by
  unfold withDigits? at h
  dsimp only at h
  split at h
  · next hbelow =>
    split at h
    · next habove =>
      cases h
      exact of_decide_eq_true (Bool.and_eq_true_iff.mp habove).1
    · cases h
      exact hbelow
  · split at h
    · next habove =>
      cases h
      exact habove
    · cases h

/-- The shortest numeral of a finite number without a sign is read as this number. -/
theorem toFloat_shortest {x : Float} (hfinite : Number.IsFinite x)
    (hsign : Number.isNegative x = false) : (shortest x).toFloat = x := by
  have hunpack := hfinite.unpack_of_not_negative hsign
  apply Binary.eq_of_unpack_eq
  unfold shortest
  dsimp only
  split
  · next hzero =>
    rw [hunpack, Binary.signed, dif_pos hzero]
    exact unpack_toFloat_zero 0
  · next hpos =>
    cases hfound : (List.range 17).findSome? fun n =>
        withDigits? x (Binary.ofFloat x) (Binary.ofFloat x).magnitude (n + 1) with
    | some d =>
        obtain ⟨n, -, hn⟩ := List.exists_of_findSome?_eq_some hfound
        exact congrArg (·.toModel.unpack) (toFloat_withDigits? hn)
    | none =>
        rw [hunpack]
        exact unpack_toFloat_of_value_eq hfinite.canonical hpos (value_exact _)

end Scriptlet.Decimal
