import Mathlib
import Scriptlet.Number

/-!
Numbers and their bits. A finite number is told by its sign and by its two parts, and every pair of
parts in canonical form is that of a number. Infinite numbers are told by their sign, and there is
one number that is not a number.
-/

namespace Scriptlet.Decimal.Binary

open Float.Model (Format UnpackedFloat totalExponent)
open Float.Model.UnpackedFloat

/-- The parts of a finite number: of all pairs with its value, the one with the greatest significand
that the exponent leaves room for. -/
structure Canonical (b : Binary) : Prop where
  significand_lt : b.significand < 2 ^ 53
  le_exponent : -1074 ≤ b.exponent
  exponent_le : b.exponent ≤ 971
  normal : 2 ^ 52 ≤ b.significand ∨ b.exponent = -1074

/-- The number with these parts and a sign. -/
def signed (s : Sign) (b : Binary) : UnpackedFloat :=
  if h : b.significand = 0 then .zero s
  else .finite s b.significand b.exponent (Nat.pos_of_ne_zero h)

variable {b : Binary}

theorem signed_eq_finite (s : Sign) (h : b.significand ≠ 0) :
    b.signed s = .finite s b.significand b.exponent (Nat.pos_of_ne_zero h) := dif_neg h

theorem neg_signed (s : Sign) (b : Binary) : (b.signed s).neg = b.signed (-s) := by
  unfold signed
  split <;> rfl

theorem neg_neg (u : UnpackedFloat) : u.neg.neg = u := by
  have hsign : ∀ s : Sign, -(-s) = s := by
    intro s
    cases s <;> rfl
  cases u with
  | notANumber => rfl
  | infinity s | zero s => exact congrArg _ (hsign s)
  | finite s m e hm => simp only [UnpackedFloat.neg, hsign]

/-- The sign that the bits of a number tell. -/
def signOf (bits : Nat) : Sign := if bits < 2 ^ 63 then .positive else .negative

/-- The parts that the bits of a finite number tell. -/
def ofBits (bits : Nat) : Binary :=
  if bits / 2 ^ 52 % 2 ^ 11 = 0 then ⟨bits % 2 ^ 52, -1074⟩
  else ⟨2 ^ 52 + bits % 2 ^ 52, (bits / 2 ^ 52 % 2 ^ 11 : Nat) - 1075⟩

theorem ofFloat_eq (x : Float) : ofFloat x = ofBits x.toBits.toNat := rfl

theorem canonical_ofBits {bits : Nat} (h : bits / 2 ^ 52 % 2 ^ 11 ≠ 2047) :
    (ofBits bits).Canonical := by
  unfold ofBits
  split <;> constructor <;> dsimp only <;> omega

/-! The three fields of the bits, as whole numbers. -/

section Fields

variable (v : BitVec 64)

theorem toNat_packComponents (s : Sign) (field : BitVec 11) (fraction : BitVec 52) :
    (packComponents .binary64 s field fraction).toNat =
      s.toBitVec.toNat * 2 ^ 63 + field.toNat * 2 ^ 52 + fraction.toNat := by
  rw [packComponents, BitVec.toNat_append, BitVec.toNat_append,
    ← Nat.shiftLeft_add_eq_or_of_lt field.isLt, ← Nat.shiftLeft_add_eq_or_of_lt fraction.isLt,
    Nat.shiftLeft_eq, Nat.shiftLeft_eq]
  omega

theorem toNat_unpackMantissa : (@unpackMantissa .binary64 v).toNat = v.toNat % 2 ^ 52 := by
  simp [unpackMantissa]

theorem toNat_unpackExponent :
    (@unpackExponent .binary64 v).toNat = v.toNat / 2 ^ 52 % 2 ^ 11 := by
  simp [unpackExponent, Nat.shiftRight_eq_div_pow]

theorem toNat_unpackSign : (@unpackSign .binary64 v).toNat = v.toNat / 2 ^ 63 := by
  have hlt := v.isLt
  simp only [unpackSign, BitVec.toNat_cast, BitVec.extractLsb_toNat, Nat.shiftRight_eq_div_pow]
  omega

theorem toNat_append_one (fraction : BitVec 52) :
    (1#1 ++ fraction).toNat = 2 ^ 52 + fraction.toNat := by
  rw [BitVec.toNat_append, ← Nat.shiftLeft_add_eq_or_of_lt fraction.isLt, Nat.shiftLeft_eq]
  rfl

theorem ofBitVec_unpackSign : Sign.ofBitVec (@unpackSign .binary64 v) = signOf v.toNat := by
  have hlt := v.isLt
  have hzero : @unpackSign .binary64 v = 0#1 ↔ v.toNat < 2 ^ 63 := by
    rw [← BitVec.toNat_inj, toNat_unpackSign, BitVec.toNat_ofNat]
    omega
  simp only [Sign.ofBitVec, hzero, signOf]

end Fields

/-- What bits stand for. -/
theorem unpack_eq (v : BitVec 64) :
    UnpackedFloat.unpack .binary64 v =
      if v.toNat / 2 ^ 52 % 2 ^ 11 = 2047 then
        if v.toNat % 2 ^ 52 = 0 then .infinity (signOf v.toNat) else .notANumber
      else (ofBits v.toNat).signed (signOf v.toNat) := by
  have hfield : ∀ w : BitVec 11,
      @unpackExponent .binary64 v = w ↔ v.toNat / 2 ^ 52 % 2 ^ 11 = w.toNat := by
    intro w
    rw [← BitVec.toNat_inj, toNat_unpackExponent]
  have hfraction : @unpackMantissa .binary64 v = 0#52 ↔ v.toNat % 2 ^ 52 = 0 := by
    rw [← BitVec.toNat_inj, toNat_unpackMantissa]
    rfl
  have hbias : (Format.binary64.exponentBias : Int) + (52 : Nat) = 1075 := by decide
  have hones : (-1#11).toNat = 2047 := by decide
  have hzero : (0#11).toNat = 0 := rfl
  simp only [UnpackedFloat.unpack, hfield, hfraction, hbias, toNat_append_one,
    toNat_unpackMantissa, toNat_unpackExponent, hones, hzero, ofBitVec_unpackSign]
  split
  · rfl
  · split
    · next h =>
      simp only [ofBits, signed, h]
      rfl
    · next h =>
      have hpos : 2 ^ 52 + v.toNat % 2 ^ 52 ≠ 0 := by omega
      simp only [ofBits, if_neg h, signed, dif_neg hpos]

/-- The bits of a finite number. Below `2 ^ 52` the significand fills them as it is; above, its
leading bit is left out and the exponent stands in its place. -/
theorem toNat_pack (s : Sign) (hb : b.Canonical) :
    (UnpackedFloat.pack .binary64 (b.signed s)).toNat = s.toBitVec.toNat * 2 ^ 63 +
      if b.significand < 2 ^ 52 then b.significand
      else (b.exponent + 1075).toNat * 2 ^ 52 + (b.significand - 2 ^ 52) := by
  obtain ⟨hlt, hge, hle, hnormal⟩ := hb
  have hbias : (Format.binary64.exponentBias : Int) = 1023 := by decide
  have hwidth : Format.binary64.mantissaBits = 53 := rfl
  have hfit : ¬ 2 ^ 11 ≤ (b.exponent + 1023 + (52 : Nat)).toNat + 1 := by omega
  by_cases hpos : b.significand = 0
  · simp only [signed, dif_pos hpos, UnpackedFloat.pack, packedZero, toNat_packComponents]
    simp [hpos]
  · simp only [signed, dif_neg hpos, UnpackedFloat.pack, hbias, if_neg hfit]
    by_cases hsmall : b.significand < 2 ^ 52
    · have hlog : ¬ b.significand.log2 + 1 = 53 := by
        have hbound := (Nat.log2_lt hpos).mpr hsmall
        omega
      rw [hwidth, if_neg hlog, if_pos hsmall, toNat_packComponents, BitVec.toNat_ofNat]
      simp
      omega
    · have hlog : b.significand.log2 + 1 = 53 := by
        have hbound := (Nat.log2_lt hpos).mpr hlt
        have hbound' := (Nat.le_log2 hpos).mpr (Nat.le_of_not_lt hsmall)
        omega
      rw [hwidth, if_pos hlog, if_neg hsmall, toNat_packComponents, BitVec.toNat_ofNat,
        BitVec.toNat_ofNat]
      omega

/-- The bits of a finite number tell its parts and its sign. -/
theorem bits_pack (s : Sign) (hb : b.Canonical) {bits : Nat}
    (h : (UnpackedFloat.pack .binary64 (b.signed s)).toNat = bits) :
    bits / 2 ^ 52 % 2 ^ 11 ≠ 2047 ∧ ofBits bits = b ∧ signOf bits = s := by
  obtain ⟨m, e⟩ := b
  have hpack := toNat_pack s hb
  rw [h] at hpack
  obtain ⟨hlt, hge, hle, hnormal⟩ := hb
  dsimp only at hpack hlt hge hle hnormal
  have hsign : signOf bits = s := by
    unfold signOf
    cases s with
    | positive =>
        rw [if_pos]
        change bits = 0 * 2 ^ 63 + _ at hpack
        split at hpack <;> omega
    | negative =>
        rw [if_neg]
        change bits = 1 * 2 ^ 63 + _ at hpack
        omega
  unfold ofBits
  by_cases hsmall : m < 2 ^ 52
  · rw [if_pos hsmall] at hpack
    have hfield : bits / 2 ^ 52 % 2 ^ 11 = 0 := by omega
    have hfraction : bits % 2 ^ 52 = m := by omega
    obtain rfl : e = -1074 := by omega
    rw [hfield, if_pos rfl, hfraction]
    exact ⟨by decide, rfl, hsign⟩
  · rw [if_neg hsmall] at hpack
    have hfield : bits / 2 ^ 52 % 2 ^ 11 = (e + 1075).toNat := by omega
    have hfraction : 2 ^ 52 + bits % 2 ^ 52 = m := by omega
    have hexponent : ((e + 1075).toNat : Int) - 1075 = e := by omega
    rw [hfield, if_neg (by omega), hfraction, hexponent]
    exact ⟨by omega, rfl, hsign⟩

theorem unpack_pack (s : Sign) (hb : b.Canonical) :
    (Float.Model.pack (b.signed s)).unpack = b.signed s := by
  obtain ⟨hfinite, hparts, hsign⟩ := bits_pack s hb rfl
  change UnpackedFloat.unpack .binary64 (UnpackedFloat.pack .binary64 (b.signed s)) = _
  rw [unpack_eq, if_neg hfinite, hparts, hsign]

theorem eq_of_unpack_eq {x y : Float} (h : x.toModel.unpack = y.toModel.unpack) : x = y := by
  apply Float.toBits_inj.mp
  apply UInt64.toBitVec_inj.mp
  exact (unpack_inj_of_valid x.toModel.valid y.toModel.valid).mp h

end Scriptlet.Decimal.Binary

namespace Scriptlet.Number

open Decimal (Binary)
open Float.Model (UnpackedFloat)

variable {x y : Float}

/-- The number is neither infinite nor not a number. -/
def IsFinite (x : Float) : Prop := x.toBits.toNat / 2 ^ 52 % 2 ^ 11 ≠ 2047

theorem IsFinite.unpack_eq (h : IsFinite x) :
    x.toModel.unpack = (Binary.ofFloat x).signed (Binary.signOf x.toBits.toNat) :=
  (Binary.unpack_eq x.toBits.toBitVec).trans (if_neg h)

theorem IsFinite.canonical (h : IsFinite x) : (Binary.ofFloat x).Canonical :=
  Binary.canonical_ofBits h

theorem isFinite_of_not (hnan : x.isNaN = false) (hinf : x.isInf = false) : IsFinite x := by
  intro hones
  have hunpack : x.toModel.unpack = _ :=
    (Binary.unpack_eq x.toBits.toBitVec).trans (if_pos hones)
  change x.toModel.unpack.isNaN = false at hnan
  change x.toModel.unpack.isInf = false at hinf
  split at hunpack <;> rw [hunpack] at hnan hinf
  · cases hinf
  · cases hnan

/-- There is one number that is not a number. -/
theorem eq_of_isNaN (hx : x.isNaN = true) (hy : y.isNaN = true) : x = y := by
  rw [Float.isNaN_eq_decide_eq_nan, decide_eq_true_iff] at hx hy
  rw [hx, hy]

theorem isNegative_eq_true_iff : isNegative x = true ↔ ¬ x.toBits.toNat < 2 ^ 63 :=
  decide_eq_true_iff.trans Nat.not_lt.symm

theorem signOf_eq (x : Float) :
    Binary.signOf x.toBits.toNat = if isNegative x = true then .negative else .positive := by
  simp only [Binary.signOf, isNegative_eq_true_iff, ite_not]

theorem IsFinite.unpack_of_not_negative (h : IsFinite x) (hsign : isNegative x = false) :
    x.toModel.unpack = (Binary.ofFloat x).signed .positive := by
  rw [h.unpack_eq, signOf_eq, hsign, if_neg Bool.false_ne_true]

/-- An infinite number is told by its sign. -/
theorem eq_of_isInf (hx : x.isInf = true) (hy : y.isInf = true)
    (h : isNegative x = isNegative y) : x = y := by
  have hunpack : ∀ z : Float, z.isInf = true →
      z.toModel.unpack = .infinity (Binary.signOf z.toBits.toNat) := by
    intro z hz
    change z.toModel.unpack.isInf = true at hz
    have heq : z.toModel.unpack = _ := Binary.unpack_eq z.toBits.toBitVec
    split at heq
    · split at heq
      · exact heq
      · rw [heq] at hz
        cases hz
    · rw [heq, Binary.signed] at hz
      split at hz <;> cases hz
  apply Binary.eq_of_unpack_eq
  rw [hunpack x hx, hunpack y hy, signOf_eq, signOf_eq, h]

/-! The sign of a finite number can be changed and taken off. -/

theorem IsFinite.unpack_neg (h : IsFinite x) :
    (-x).toModel.unpack = (Binary.ofFloat x).signed (-Binary.signOf x.toBits.toNat) := by
  change (Float.Model.pack x.toModel.unpack.neg).unpack = _
  rw [h.unpack_eq, Binary.neg_signed, Binary.unpack_pack _ h.canonical]

theorem IsFinite.bits_neg (h : IsFinite x) :
    IsFinite (-x) ∧ Binary.signOf (-x).toBits.toNat = -Binary.signOf x.toBits.toNat := by
  have hpack : (Float.Model.UnpackedFloat.pack .binary64
      ((Binary.ofFloat x).signed (-Binary.signOf x.toBits.toNat))).toNat = (-x).toBits.toNat := by
    rw [← Binary.neg_signed, ← h.unpack_eq]
    rfl
  obtain ⟨hfinite, -, hsign⟩ := Binary.bits_pack _ h.canonical hpack
  exact ⟨hfinite, hsign⟩

theorem IsFinite.magnitude (h : IsFinite x) :
    IsFinite (magnitude x) ∧ isNegative (magnitude x) = false := by
  unfold Number.magnitude
  split
  · next hneg =>
    refine ⟨h.bits_neg.1, ?_⟩
    have hsign := h.bits_neg.2
    rw [signOf_eq, signOf_eq, if_pos hneg] at hsign
    cases hx : isNegative (-x) with
    | true =>
        rw [hx] at hsign
        cases hsign
    | false => rfl
  · next hpos => exact ⟨h, Bool.eq_false_iff.mpr hpos⟩

theorem eq_of_magnitude_eq (hx : IsFinite x) (hy : IsFinite y)
    (hsign : isNegative x = isNegative y) (h : magnitude x = magnitude y) : x = y := by
  unfold magnitude at h
  rw [← hsign] at h
  split at h
  · apply Binary.eq_of_unpack_eq
    have hunpack := hx.unpack_neg
    rw [h, hy.unpack_neg, ← Binary.neg_signed, ← Binary.neg_signed, ← hx.unpack_eq,
      ← hy.unpack_eq] at hunpack
    rw [← Binary.neg_neg x.toModel.unpack, ← hunpack, Binary.neg_neg]
  · exact h

end Scriptlet.Number
