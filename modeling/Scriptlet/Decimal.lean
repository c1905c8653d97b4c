/-!
Decimal numerals: a whole coefficient and a power of ten. A numeral is read as the nearest
binary64 number, and written either with every digit in its place or with an exponent.
-/

namespace Scriptlet

/-- The numeral `coefficient * 10 ^ exponent`. -/
structure Decimal where
  coefficient : Nat
  exponent : Int
  deriving DecidableEq, Repr, Inhabited

namespace Decimal

/-- The nearest number, the even one of two; infinity beyond the largest. -/
def toFloat (d : Decimal) : Float :=
  Float.ofScientific d.coefficient (d.exponent < 0) d.exponent.natAbs

/-- The numeral with these digits before and after the point. -/
def ofDigits (whole fraction : List Char) : Decimal :=
  ⟨Nat.ofDigitChars 10 (whole ++ fraction) 0, -fraction.length⟩

def digits (d : Decimal) : List Char :=
  Nat.toDigits 10 d.coefficient

/-- How many digits stand before the point; zero or less for a number below one tenth. -/
def pointPosition (d : Decimal) : Int :=
  d.digits.length + d.exponent

/-- Every digit in its place: `1500`, `0.25`. -/
def positional (d : Decimal) : List Char :=
  let point := d.pointPosition
  let whole :=
    if 0 < point then
      d.digits.take point.toNat ++ List.replicate (point.toNat - d.digits.length) '0'
    else ['0']
  if d.exponent < 0 then
    whole ++ '.' :: List.replicate (-point).toNat '0' ++ d.digits.drop point.toNat
  else whole

/-- One digit before the point and a signed exponent of two digits or more: `1.5e+08`. -/
def scientific (d : Decimal) : List Char :=
  let power := d.pointPosition - 1
  let mantissa :=
    match d.digits with
    | first :: second :: rest => first :: '.' :: second :: rest
    | short => short
  let size := Nat.toDigits 10 power.natAbs
  mantissa ++ ['e', if power < 0 then '-' else '+'] ++
    List.replicate (2 - size.length) '0' ++ size

end Decimal

end Scriptlet
