import Scriptlet.Decimal

/-!
The shortest numeral of a number: the fewest digits that are read back as the same number, and
of those the ones nearest to it. All comparisons are between whole numbers.
-/

namespace Scriptlet.Decimal

/-- A positive number as `significand * 2 ^ exponent`. -/
structure Binary where
  significand : Nat
  exponent : Int

/-- What a fraction of 52 bits is less than. -/
def fractionLimit : Nat := 0x10000000000000

/-- The two parts of a finite number, its sign left out. -/
def Binary.ofFloat (x : Float) : Binary :=
  let bits := x.toBits.toNat
  let field := bits / fractionLimit % 0x800
  let fraction := bits % fractionLimit
  if field = 0 then ⟨fraction, -1074⟩ else ⟨fractionLimit + fraction, Int.ofNat field - 1075⟩

def Binary.numerator (b : Binary) : Nat := b.significand * Nat.pow 2 b.exponent.toNat

def Binary.denominator (b : Binary) : Nat := Nat.pow 2 (-b.exponent).toNat

/-- Powers of ten that are tried to make a positive number one or greater. -/
def powersTried : Nat := 400

/-- The number of digits before the point, counted as for a numeral. -/
def Binary.magnitude (b : Binary) : Int :=
  let whole := b.numerator / b.denominator
  if 0 < whole then (Nat.toDigits 10 whole).length
  else
    let isEnough (power : Nat) : Bool := b.denominator ≤ b.numerator * Nat.pow 10 power
    1 - (((List.range powersTried).find? isEnough).getD powersTried : Int)

/-- The numeral after the one with this coefficient of `count` digits. -/
def next (coefficient count : Nat) (exponent : Int) : Decimal :=
  if coefficient + 1 = Nat.pow 10 count then ⟨1, exponent + count⟩ else ⟨coefficient + 1, exponent⟩

/-- The best numeral of `count` digits that is read back as `x`: there are two next to the number,
and of two that fit the nearer is taken, the even one if they are equally near. -/
def withDigits? (x : Float) (b : Binary) (magnitude : Int) (count : Nat) : Option Decimal :=
  let exponent := magnitude - count
  let numerator := b.numerator * Nat.pow 10 (-exponent).toNat
  let denominator := b.denominator * Nat.pow 10 exponent.toNat
  let below : Decimal := ⟨numerator / denominator, exponent⟩
  let above := next (numerator / denominator) count exponent
  let remainder := numerator % denominator
  let preferBelow := 2 * remainder < denominator ||
    (2 * remainder == denominator && below.coefficient % 2 == 0)
  if below.toFloat = x then
    if above.toFloat = x && !preferBelow then some above else some below
  else if above.toFloat = x then some above
  else none

/-- All digits of the number: a binary fraction is a decimal one. -/
def exact (b : Binary) : Decimal :=
  let places := (-b.exponent).toNat
  ⟨b.numerator * Nat.pow 5 places, -places⟩

/-- Seventeen digits always suffice. -/
def shortest (x : Float) : Decimal :=
  let b := Binary.ofFloat x
  if b.significand = 0 then ⟨0, 0⟩
  else
    let magnitude := b.magnitude
    ((List.range 17).findSome? fun n => withDigits? x b magnitude (n + 1)).getD (exact b)

end Scriptlet.Decimal
