import Scriptlet.Decimal.Shortest

/-!
Numbers of the language are binary64 numbers. They have two written forms: the one that a program
prints, with every digit in its place, and the compact one of listings, which turns to an exponent
for very large and very small numbers.
-/

namespace Scriptlet.Number

/-- The sign is that of the number's leading bit, so negative zero has one. -/
def isNegative (x : Float) : Bool :=
  0x8000000000000000 ≤ x.toBits.toNat

def magnitude (x : Float) : Float :=
  if isNegative x then -x else x

def signed (x : Float) (text : List Char) : String :=
  String.ofList (if isNegative x then '-' :: text else text)

/-- The form that a program prints. -/
def text (x : Float) : String :=
  if x.isNaN then "NaN"
  else if x.isInf then if isNegative x then "-Infinity" else "Infinity"
  else signed x (Decimal.shortest (magnitude x)).positional

/-- Powers of ten that the compact form writes with every digit in its place. -/
def isCompact (power : Int) : Bool :=
  -4 ≤ power && power < 6

/-- The form of listings. -/
def compact (x : Float) : String :=
  if x.isNaN then "NaN"
  else if x.isInf then if isNegative x then "-Inf" else "+Inf"
  else
    let d := Decimal.shortest (magnitude x)
    signed x (if isCompact (d.pointPosition - 1) then d.positional else d.scientific)

def infinity : Float := Float.ofBits 0x7FF0000000000000

def notANumber : Float := Float.ofBits 0x7FF8000000000000

/-- An exponent: an optional sign and at least one digit. -/
def exponent? : List Char → Option Int
  | '-' :: ds => if ds ≠ [] && ds.all Char.isDigit then some (-(Nat.ofDigitChars 10 ds 0 : Int)) else none
  | '+' :: ds => if ds ≠ [] && ds.all Char.isDigit then some (Nat.ofDigitChars 10 ds 0) else none
  | ds => if ds ≠ [] && ds.all Char.isDigit then some (Nat.ofDigitChars 10 ds 0) else none

/-- A numeral without sign: digits, perhaps a point, perhaps an exponent. -/
def unsignedDecimal? (cs : List Char) : Option Decimal :=
  let whole := cs.takeWhile Char.isDigit
  let rest := cs.dropWhile Char.isDigit
  let (fraction, rest) :=
    match rest with
    | '.' :: r => (r.takeWhile Char.isDigit, r.dropWhile Char.isDigit)
    | r => ([], r)
  if whole.isEmpty && fraction.isEmpty then none
  else
    let base := Decimal.ofDigits whole fraction
    match rest with
    | [] => some base
    | 'e' :: r | 'E' :: r => (exponent? r).map fun e => ⟨base.coefficient, base.exponent + e⟩
    | _ => none

def unsigned? (cs : List Char) : Option Float :=
  let word := cs.map Char.toLower
  if word = "inf".toList || word = "infinity".toList then some infinity
  else (unsignedDecimal? cs).map Decimal.toFloat

/-- Reads a numeral with an optional sign, or the name of an infinity or of NaN in any case. -/
def parse? (text : String) : Option Float :=
  match text.toList with
  | '-' :: cs => (unsigned? cs).map (- ·)
  | '+' :: cs => unsigned? cs
  | cs => if cs.map Char.toLower = "nan".toList then some notANumber else unsigned? cs

end Scriptlet.Number
