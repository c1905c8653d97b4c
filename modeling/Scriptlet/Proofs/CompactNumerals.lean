import Scriptlet.Proofs.ExactReading
import Scriptlet.Proofs.SourceLines

/-!
The compact form of numbers. A numeral tells its digits and the power of ten of the last one, unless
it is a whole number of up to six digits, which is written in one way however it is made up, and
read in one way too. So no two numbers have the same compact form.
-/

namespace Scriptlet

namespace Decimal

variable {d d' : Decimal} {c : Char}

theorem isDigit_of_mem_digits (h : c ∈ d.digits) : c.isDigit = true :=
  Nat.isDigit_of_mem_toDigits (by decide) (by decide) h

theorem isDigit_of_mem_zeros {n : Nat} (h : c ∈ List.replicate n '0') : c.isDigit = true := by
  rw [(List.mem_replicate.mp h).2]
  rfl

theorem ofDigitChars_digits (d : Decimal) : Nat.ofDigitChars 10 d.digits 0 = d.coefficient :=
  Nat.ofDigitChars_ten_toDigits

theorem ofDigitChars_zeros_append (n : Nat) (digits : List Char) :
    Nat.ofDigitChars 10 (List.replicate n '0' ++ digits) 0 = Nat.ofDigitChars 10 digits 0 := by
  rw [Nat.ofDigitChars_append, Nat.ofDigitChars_replicate_zero, Nat.mul_zero]

/-! Every digit in its place. -/

/-- With digits behind the point, the numeral is the one that the digits on both sides of the point
are read as. -/
theorem exists_positional_eq (h : d.exponent < 0) :
    ∃ whole fraction, d.positional = whole ++ '.' :: fraction ∧ whole ≠ [] ∧
      (∀ c ∈ whole, c.isDigit = true) ∧ (∀ c ∈ fraction, c.isDigit = true) ∧
      ofDigits whole fraction = d := by
  have hposition : d.pointPosition = d.digits.length + d.exponent := rfl
  have hexponent : -((-d.exponent).toNat : Int) = d.exponent := by omega
  by_cases hpoint : 0 < d.pointPosition
  · refine ⟨d.digits.take d.pointPosition.toNat, d.digits.drop d.pointPosition.toNat,
      ?_, ?_, ?_, ?_, ?_⟩
    · have hpad : d.pointPosition.toNat - d.digits.length = 0 := by omega
      have hzeros : (-d.pointPosition).toNat = 0 := by omega
      simp only [positional, if_pos hpoint, if_pos h, hpad, hzeros, List.replicate_zero,
        List.append_nil, List.append_assoc]
      rfl
    · have hlength : 0 < d.digits.length := Nat.length_toDigits_pos
      apply List.ne_nil_of_length_pos
      rw [List.length_take]
      omega
    · exact fun c hc => isDigit_of_mem_digits (List.mem_of_mem_take hc)
    · exact fun c hc => isDigit_of_mem_digits (List.mem_of_mem_drop hc)
    · have hlength : (d.digits.drop d.pointPosition.toNat).length = (-d.exponent).toNat := by
        rw [List.length_drop]
        omega
      rw [ofDigits, List.take_append_drop, ofDigitChars_digits, hlength, hexponent]
  · refine ⟨['0'], List.replicate (-d.pointPosition).toNat '0' ++ d.digits, ?_,
      List.cons_ne_nil _ _, ?_, ?_, ?_⟩
    · have hdrop : d.pointPosition.toNat = 0 := by omega
      simp only [positional, if_neg hpoint, if_pos h, hdrop, List.drop_zero]
      rfl
    · exact fun c hc => List.mem_singleton.mp hc ▸ rfl
    · intro c hc
      obtain hc | hc := List.mem_append.mp hc
      · exact isDigit_of_mem_zeros hc
      · exact isDigit_of_mem_digits hc
    · have hlength : (List.replicate (-d.pointPosition).toNat '0' ++ d.digits).length =
          (-d.exponent).toNat := by
        rw [List.length_append, List.length_replicate]
        omega
      have hvalue : Nat.ofDigitChars 10
          (['0'] ++ (List.replicate (-d.pointPosition).toNat '0' ++ d.digits)) 0 =
            d.coefficient := by
        rw [← List.replicate_one, ofDigitChars_zeros_append, ofDigitChars_zeros_append,
          ofDigitChars_digits]
      rw [ofDigits, hlength, hexponent, hvalue]

/-- Without, the digits are those of a whole number. -/
theorem positional_of_nonneg (h : 0 ≤ d.exponent) :
    d.positional = d.digits ++ List.replicate d.exponent.toNat '0' := by
  have hposition : d.pointPosition = d.digits.length + d.exponent := rfl
  have hlength : 0 < d.digits.length := Nat.length_toDigits_pos
  have hpoint : 0 < d.pointPosition := by omega
  have htake : d.digits.length ≤ d.pointPosition.toNat := by omega
  have hpad : d.pointPosition.toNat - d.digits.length = d.exponent.toNat := by omega
  simp only [positional, if_pos hpoint, if_neg (Int.not_lt.mpr h),
    List.take_of_length_le htake, hpad]

theorem ofDigitChars_positional (h : 0 ≤ d.exponent) :
    Nat.ofDigitChars 10 d.positional 0 = d.coefficient * 10 ^ d.exponent.toNat := by
  rw [positional_of_nonneg h, Nat.ofDigitChars_append, ofDigitChars_digits,
    Nat.ofDigitChars_replicate_zero, Nat.mul_comm]

/-- Read back, they are this number. -/
theorem toFloat_ofDigits_positional (h : 0 ≤ d.exponent)
    (hle : d.coefficient ≠ 0 → d.exponent ≤ 2 ^ 11) :
    (ofDigits d.positional []).toFloat = d.toFloat := by
  have hexponent : ((d.exponent.toNat : Nat) : Int) = d.exponent := Int.toNat_of_nonneg h
  have hk : d.coefficient ≠ 0 → d.exponent.toNat ≤ 2 ^ 11 := by
    intro hc
    have hle := hle hc
    omega
  have hwhole := toFloat_whole hk
  rw [hexponent, ← ofDigitChars_positional h] at hwhole
  rw [ofDigits, List.append_nil]
  exact hwhole.symm

theorem isDigit_of_mem_positional (h : 0 ≤ d.exponent) (hc : c ∈ d.positional) :
    c.isDigit = true := by
  rw [positional_of_nonneg h] at hc
  obtain hc | hc := List.mem_append.mp hc
  · exact isDigit_of_mem_digits hc
  · exact isDigit_of_mem_zeros hc

theorem isDigit_or_eq_point (hc : c ∈ d.positional) : c.isDigit = true ∨ c = '.' := by
  by_cases h : d.exponent < 0
  · obtain ⟨whole, fraction, heq, -, hwhole, hfraction, -⟩ := exists_positional_eq h
    rw [heq, List.mem_append, List.mem_cons] at hc
    obtain hc | hc | hc := hc
    · exact .inl (hwhole c hc)
    · exact .inr hc
    · exact .inl (hfraction c hc)
  · exact .inl (isDigit_of_mem_positional (Int.not_lt.mp h) hc)

theorem point_mem_positional_iff : '.' ∈ d.positional ↔ d.exponent < 0 := by
  constructor
  · intro hmem
    by_contra h
    cases isDigit_of_mem_positional (Int.not_lt.mp h) hmem
  · intro h
    obtain ⟨whole, fraction, heq, -⟩ := exists_positional_eq h
    rw [heq]
    exact List.mem_append_right _ List.mem_cons_self

theorem eq_of_positional_eq (hd : d.exponent < 0) (hd' : d'.exponent < 0)
    (h : d.positional = d'.positional) : d = d' := by
  obtain ⟨whole, fraction, heq, -, hwhole, -, hof⟩ := exists_positional_eq hd
  obtain ⟨whole', fraction', heq', -, hwhole', -, hof'⟩ := exists_positional_eq hd'
  rw [heq, heq'] at h
  obtain ⟨rfl, -, rfl⟩ := eq_of_append_stop (p := Char.isDigit) hwhole hwhole' rfl rfl h
  exact hof.symm.trans hof'

/-! With an exponent. -/

theorem exists_mantissa (d : Decimal) :
    ∃ mantissa, d.scientific =
        mantissa ++ 'e' :: (if d.pointPosition - 1 < 0 then '-' else '+') ::
          (List.replicate (2 - (Nat.toDigits 10 (d.pointPosition - 1).natAbs).length) '0' ++
            Nat.toDigits 10 (d.pointPosition - 1).natAbs) ∧
      (∀ c ∈ mantissa, c.isDigit = true ∨ c = '.') ∧
      mantissa.filter Char.isDigit = d.digits := by
  have hdigits : ∀ c ∈ d.digits, c.isDigit = true := fun c => isDigit_of_mem_digits
  unfold scientific
  cases heq : d.digits with
  | nil =>
      rw [heq] at hdigits
      refine ⟨[], ?_, fun c hc => .inl (hdigits c hc), rfl⟩
      simp only [List.append_assoc]
      rfl
  | cons first tail =>
      rw [heq] at hdigits
      cases tail with
      | nil =>
          refine ⟨[first], ?_, fun c hc => .inl (hdigits c hc), List.filter_eq_self.mpr hdigits⟩
          simp only [List.append_assoc]
          rfl
      | cons second rest =>
          obtain ⟨hfirst, hrest⟩ := List.forall_mem_cons.mp hdigits
          refine ⟨first :: '.' :: second :: rest, ?_, ?_, ?_⟩
          · simp only [List.append_assoc]
            rfl
          · intro c hc
            obtain rfl | hc := List.mem_cons.mp hc
            · exact .inl hfirst
            · obtain rfl | hc := List.mem_cons.mp hc
              · exact .inr rfl
              · exact .inl (hrest c hc)
          · rw [List.filter_cons_of_pos hfirst, List.filter_cons_of_neg (by decide),
              List.filter_eq_self.mpr hrest]

theorem exists_scientific_eq (d : Decimal) :
    ∃ mantissa size, d.scientific =
        mantissa ++ 'e' :: (if d.pointPosition - 1 < 0 then '-' else '+') :: size ∧
      (∀ c ∈ mantissa, c.isDigit = true ∨ c = '.') ∧ mantissa.filter Char.isDigit = d.digits ∧
      (∀ c ∈ size, c.isDigit = true) ∧
      Nat.ofDigitChars 10 size 0 = (d.pointPosition - 1).natAbs := by
  obtain ⟨mantissa, heq, hchars, hfilter⟩ := d.exists_mantissa
  refine ⟨mantissa, _, heq, hchars, hfilter, ?_, ?_⟩
  · intro c hc
    obtain hc | hc := List.mem_append.mp hc
    · exact isDigit_of_mem_zeros hc
    · exact Nat.isDigit_of_mem_toDigits (by decide) (by decide) hc
  · rw [ofDigitChars_zeros_append, Nat.ofDigitChars_ten_toDigits]

theorem eq_of_scientific_eq (h : d.scientific = d'.scientific) : d = d' := by
  obtain ⟨mantissa, size, heq, hmantissa, hdigits, -, hsize⟩ := d.exists_scientific_eq
  obtain ⟨mantissa', size', heq', hmantissa', hdigits', -, hsize'⟩ := d'.exists_scientific_eq
  have hstop : ∀ c : Char, c.isDigit = true ∨ c = '.' → (c != 'e') = true := by
    rintro c (hc | rfl)
    · apply bne_iff_ne.mpr
      rintro rfl
      cases hc
    · rfl
  rw [heq, heq'] at h
  obtain ⟨rfl, -, hpower⟩ := eq_of_append_stop (p := (· != 'e'))
    (fun c hc => hstop c (hmantissa c hc)) (fun c hc => hstop c (hmantissa' c hc)) rfl rfl h
  obtain ⟨hsign, rfl⟩ := List.cons.inj hpower
  have hsame : d.digits = d'.digits := hdigits.symm.trans hdigits'
  have hcoefficient : d.coefficient = d'.coefficient := by
    rw [← ofDigitChars_digits, hsame, ofDigitChars_digits]
  have hposition : d.pointPosition = d'.pointPosition := by
    have hnatAbs := hsize.symm.trans hsize'
    split at hsign <;> split at hsign <;> simp at hsign <;> omega
  have hexponent : d.exponent = d'.exponent := by
    rw [pointPosition, pointPosition, hsame] at hposition
    exact Int.add_left_cancel hposition
  cases d
  cases d'
  simp_all

theorem positional_ne_scientific (d d' : Decimal) : d.positional ≠ d'.scientific := by
  have he : ¬ ('e'.isDigit = true ∨ 'e' = '.') := by decide
  obtain ⟨mantissa, size, heq, -⟩ := d'.exists_scientific_eq
  intro h
  apply he
  apply isDigit_or_eq_point (d := d)
  rw [h, heq]
  exact List.mem_append_right _ List.mem_cons_self

/-! The form of listings, which is one or the other. -/

def compact (d : Decimal) : List Char :=
  if Number.isCompact (d.pointPosition - 1) then d.positional else d.scientific

/-- A numeral that listings write without an exponent has few zeros at its end. -/
theorem exponent_lt_of_isCompact (hcompact : Number.isCompact (d.pointPosition - 1) = true) :
    d.exponent < 6 := by
  have hposition : d.pointPosition = d.digits.length + d.exponent := rfl
  have hpower : d.pointPosition - 1 < 6 := of_decide_eq_true (Bool.and_eq_true_iff.mp hcompact).2
  have hlength : 0 < d.digits.length := Nat.length_toDigits_pos
  omega

theorem toFloat_eq_of_positional_eq (hd : Number.isCompact (d.pointPosition - 1) = true)
    (hd' : Number.isCompact (d'.pointPosition - 1) = true) (h : d.positional = d'.positional) :
    d.toFloat = d'.toFloat := by
  have hiff : d.exponent < 0 ↔ d'.exponent < 0 := by
    rw [← point_mem_positional_iff, h, point_mem_positional_iff]
  by_cases hneg : d.exponent < 0
  · rw [eq_of_positional_eq hneg (hiff.mp hneg) h]
  · have hnonneg : 0 ≤ d.exponent := Int.not_lt.mp hneg
    have hnonneg' : 0 ≤ d'.exponent := Int.not_lt.mp (hneg ∘ hiff.mpr)
    have hlt := exponent_lt_of_isCompact hd
    have hlt' := exponent_lt_of_isCompact hd'
    rw [← toFloat_ofDigits_positional hnonneg (fun _ => by omega), h,
      toFloat_ofDigits_positional hnonneg' (fun _ => by omega)]

/-- The form of listings tells what a numeral is read as. -/
theorem toFloat_eq_of_compact_eq (h : d.compact = d'.compact) : d.toFloat = d'.toFloat := by
  unfold compact at h
  split at h <;> split at h
  · next hd hd' => exact toFloat_eq_of_positional_eq hd hd' h
  · exact absurd h (positional_ne_scientific d d')
  · exact absurd h.symm (positional_ne_scientific d' d)
  · rw [eq_of_scientific_eq h]

theorem mem_compact (hc : c ∈ d.compact) : c.isDigit = true ∨ c ∈ ['.', 'e', '-', '+'] := by
  have hpoint : ∀ c : Char, c.isDigit = true ∨ c = '.' →
      c.isDigit = true ∨ c ∈ ['.', 'e', '-', '+'] := by
    rintro c (hdigit | rfl)
    · exact .inl hdigit
    · exact .inr (by decide)
  unfold compact at hc
  split at hc
  · exact hpoint c (isDigit_or_eq_point hc)
  · obtain ⟨mantissa, size, heq, hmantissa, -, hsize, -⟩ := d.exists_scientific_eq
    rw [heq, List.mem_append, List.mem_cons, List.mem_cons] at hc
    obtain hc | rfl | hc | hc := hc
    · exact hpoint c (hmantissa c hc)
    · exact .inr (by decide)
    · rw [hc]
      split
      · exact .inr (by decide)
      · exact .inr (by decide)
    · exact .inl (hsize c hc)

theorem compact_ne_minus (d : Decimal) (rest : List Char) : d.compact ≠ '-' :: rest := by
  have hminus : ¬ ('-'.isDigit = true ∨ '-' = '.') := by decide
  intro h
  unfold compact at h
  split at h
  · exact hminus (isDigit_or_eq_point (h ▸ List.mem_cons_self))
  · obtain ⟨mantissa, size, heq, hmantissa, -⟩ := d.exists_scientific_eq
    rw [heq] at h
    cases mantissa with
    | nil => cases h
    | cons c mantissa =>
        cases h
        exact hminus (hmantissa _ List.mem_cons_self)

theorem eq_of_sign_append_eq {s s' : Bool}
    (h : (if s then ['-'] else []) ++ d.compact = (if s' then ['-'] else []) ++ d'.compact) :
    s = s' ∧ d.compact = d'.compact := by
  cases s <;> cases s'
  · exact ⟨rfl, h⟩
  · exact absurd h (d.compact_ne_minus _)
  · exact absurd h.symm (d'.compact_ne_minus _)
  · exact ⟨rfl, (List.cons.inj h).2⟩

end Decimal

namespace Number

variable {x y : Float}

theorem compact_of_isNaN (h : x.isNaN = true) : compact x = "NaN" := by
  simp only [compact, h, if_true]

theorem compact_of_isInf (hnan : x.isNaN = false) (h : x.isInf = true) :
    compact x = if isNegative x then "-Inf" else "+Inf" := by
  simp only [compact, hnan, h, if_true, if_neg Bool.false_ne_true]

theorem toList_compact (hnan : x.isNaN = false) (hinf : x.isInf = false) :
    (compact x).toList = (if isNegative x then ['-'] else []) ++
      (Decimal.shortest (magnitude x)).compact := by
  simp only [compact, hnan, hinf, if_neg Bool.false_ne_true, signed, String.toList_ofList]
  split <;> rfl

/-- The characters of the form of a finite number. -/
theorem mem_compact (hnan : x.isNaN = false) (hinf : x.isInf = false) {c : Char}
    (hc : c ∈ (compact x).toList) : c.isDigit = true ∨ c ∈ ['.', 'e', '-', '+'] := by
  rw [toList_compact hnan hinf] at hc
  obtain hc | hc := List.mem_append.mp hc
  · split at hc
    · rw [List.mem_singleton.mp hc]
      exact .inr (by decide)
    · cases hc
  · exact Decimal.mem_compact hc

theorem isNaN_iff : x.isNaN = true ↔ 'N' ∈ (compact x).toList := by
  cases hnan : x.isNaN with
  | true =>
      rw [compact_of_isNaN hnan]
      decide
  | false =>
      refine iff_of_false Bool.false_ne_true fun hc => ?_
      cases hinf : x.isInf with
      | true =>
          rw [compact_of_isInf hnan hinf] at hc
          split at hc <;> revert hc <;> decide
      | false =>
          have hchars := mem_compact hnan hinf hc
          revert hchars
          decide

theorem isInf_iff (hnan : x.isNaN = false) : x.isInf = true ↔ 'I' ∈ (compact x).toList := by
  cases hinf : x.isInf with
  | true =>
      rw [compact_of_isInf hnan hinf]
      refine iff_of_true rfl ?_
      split <;> decide
  | false =>
      refine iff_of_false Bool.false_ne_true fun hc => ?_
      have hchars := mem_compact hnan hinf hc
      revert hchars
      decide

theorem newline_notMem_compact (x : Float) : '\n' ∉ (compact x).toList := by
  intro hc
  cases hnan : x.isNaN with
  | true =>
      rw [compact_of_isNaN hnan] at hc
      revert hc
      decide
  | false =>
      cases hinf : x.isInf with
      | true =>
          rw [compact_of_isInf hnan hinf] at hc
          split at hc <;> revert hc <;> decide
      | false =>
          have hchars := mem_compact hnan hinf hc
          revert hchars
          decide

/-- No two numbers have the same compact form. -/
theorem eq_of_compact_eq (h : compact x = compact y) : x = y := by
  have hnan : x.isNaN = y.isNaN := by
    rw [Bool.eq_iff_iff, isNaN_iff, isNaN_iff, h]
  cases hx : x.isNaN with
  | true => exact eq_of_isNaN hx (hnan ▸ hx)
  | false =>
      have hy : y.isNaN = false := hnan ▸ hx
      have hinf : x.isInf = y.isInf := by
        rw [Bool.eq_iff_iff, isInf_iff hx, isInf_iff hy, h]
      cases hx' : x.isInf with
      | true =>
          have hy' : y.isInf = true := hinf ▸ hx'
          refine eq_of_isInf hx' hy' ?_
          rw [compact_of_isInf hx hx', compact_of_isInf hy hy'] at h
          cases hneg : isNegative x <;> cases hneg' : isNegative y <;> simp [hneg, hneg'] at h ⊢
      | false =>
          have hy' : y.isInf = false := hinf ▸ hx'
          have hfinite := isFinite_of_not hx hx'
          have hfinite' := isFinite_of_not hy hy'
          have htext := congrArg String.toList h
          rw [toList_compact hx hx', toList_compact hy hy'] at htext
          obtain ⟨hsign, hdigits⟩ := Decimal.eq_of_sign_append_eq htext
          apply eq_of_magnitude_eq hfinite hfinite' hsign
          rw [← Decimal.toFloat_shortest hfinite.magnitude.1 hfinite.magnitude.2,
            Decimal.toFloat_eq_of_compact_eq hdigits,
            Decimal.toFloat_shortest hfinite'.magnitude.1 hfinite'.magnitude.2]

end Number

end Scriptlet
