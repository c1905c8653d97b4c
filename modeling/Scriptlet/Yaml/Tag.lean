import Scriptlet.Number

/-!
Tags say what a scalar or a collection stands for. A plain scalar without a tag gets the one that
its text suggests.
-/

namespace Scriptlet.Yaml

inductive Tag where
  | null | bool | int | float | timestamp | string | binary | merge | sequence | mapping
  | other (text : String)
  deriving DecidableEq, Repr

namespace Tag

def standard : List (String × Tag) :=
  [("null", null), ("bool", bool), ("int", int), ("float", float), ("timestamp", timestamp),
   ("str", string), ("binary", binary), ("merge", merge), ("seq", sequence), ("map", mapping)]

/-- The short form, with `!!` before the name of a standard tag. -/
def text : Tag → String
  | null => "!!null"
  | bool => "!!bool"
  | int => "!!int"
  | float => "!!float"
  | timestamp => "!!timestamp"
  | string => "!!str"
  | binary => "!!binary"
  | merge => "!!merge"
  | sequence => "!!seq"
  | mapping => "!!map"
  | other text => text

/-- What the short names of standard tags are short for. -/
def standardLead : String := "tag:yaml.org,2002:"

/-- The tag that is written in full as `full`. -/
def ofText (full : String) : Tag :=
  if full.startsWith standardLead then
    let name := (full.drop standardLead.length).toString
    (standard.lookup name).getD (other ("!!" ++ name))
  else
    match standard.find? fun (name, _) => "!!" ++ name = full with
    | some (_, tag) => tag
    | none => other full

end Tag

/-! Numerals. -/

def digitValue? (c : Char) : Option Nat :=
  if c.isDigit then some (c.toNat - 48)
  else if c.isLower then some (c.toNat - 87)
  else if c.isUpper then some (c.toNat - 55)
  else none

def natural? (base : Nat) (cs : List Char) : Option Nat :=
  if cs.isEmpty then none
  else cs.foldlM (fun n c => do
    let d ← digitValue? c
    if d < base then some (base * n + d) else none) 0

/-- A numeral without sign; its first characters may choose the base. -/
def magnitude? : List Char → Option Nat
  | '0' :: c :: rest =>
    match c.toLower with
    | 'x' => natural? 16 rest
    | 'o' => natural? 8 rest
    | 'b' => natural? 2 rest
    | _ => natural? 8 (c :: rest)
  | cs => natural? 10 cs

/-- Integers of 64 bits, with or without sign. -/
def isInteger (cs : List Char) : Bool :=
  match cs with
  | '-' :: rest => (magnitude? rest).any (· ≤ 0x8000000000000000)
  | '+' :: rest => (magnitude? rest).any (· < 0x8000000000000000)
  | _ => (magnitude? cs).any (· < 0x10000000000000000)

/-- Decimal numerals with a point or an exponent that stand for a finite number. -/
def isDecimal (cs : List Char) : Bool :=
  let unsigned := if cs.head?.any (fun c => c == '-' || c == '+') then cs.drop 1 else cs
  (Number.unsignedDecimal? unsigned).any fun d => !d.toFloat.isInf

/-! Dates and times. -/

def daysIn (year month : Nat) : Nat :=
  if month = 2 then
    if year % 4 = 0 && (year % 100 ≠ 0 || year % 400 = 0) then 29 else 28
  else if month = 4 || month = 6 || month = 9 || month = 11 then 30
  else 31

/-- One or two digits, and what follows them. -/
def shortNumber? (cs : List Char) : Option (Nat × List Char) :=
  let digits := (cs.take 2).takeWhile Char.isDigit
  if digits.isEmpty then none else some (Nat.ofDigitChars 10 digits 0, cs.drop digits.length)

/-- A year of four digits, month and day, and what follows them. -/
def date? (cs : List Char) : Option (List Char) := do
  let digits := cs.takeWhile Char.isDigit
  guard (digits.length = 4 && cs[4]? == some '-')
  let (month, rest) ← shortNumber? (cs.drop 5)
  guard (1 ≤ month && month ≤ 12 && rest.head? == some '-')
  let (day, rest) ← shortNumber? (rest.drop 1)
  guard (1 ≤ day && day ≤ daysIn (Nat.ofDigitChars 10 digits 0) month)
  return rest

/-- Drops a fraction of a second. -/
def afterFraction : List Char → List Char
  | c :: d :: rest =>
    if (c == '.' || c == ',') && d.isDigit then rest.dropWhile Char.isDigit else c :: d :: rest
  | cs => cs

/-- Hour, minute and second, and what follows them. -/
def time? (cs : List Char) : Option (List Char) := do
  let (hour, rest) ← shortNumber? cs
  guard (hour < 24 && rest.head? == some ':')
  let (minute, rest) ← shortNumber? (rest.drop 1)
  guard (minute < 60 && rest.head? == some ':')
  let (second, rest) ← shortNumber? (rest.drop 1)
  guard (second < 60)
  return afterFraction rest

def isZone : List Char → Bool
  | ['Z'] => true
  | [sign, a, b, ':', c, d] =>
    (sign == '+' || sign == '-') && [a, b, c, d].all Char.isDigit &&
      Nat.ofDigitChars 10 [a, b] 0 ≤ 24 && Nat.ofDigitChars 10 [c, d] 0 ≤ 60
  | _ => false

def isTimestamp (cs : List Char) : Bool :=
  match date? cs with
  | some [] => true
  | some (c :: rest) =>
    if c == 'T' || c == 't' then (time? rest).any isZone
    else c == ' ' && (time? (rest.dropWhile (· == ' '))).any List.isEmpty
  | none => false

/-! Tags of plain scalars. -/

def trueWords : List String := ["true", "True", "TRUE"]

def falseWords : List String := ["false", "False", "FALSE"]

def nullWords : List String := ["", "~", "null", "Null", "NULL"]

def specialNumbers : List String :=
  [".nan", ".NaN", ".NAN", ".inf", ".Inf", ".INF", "+.inf", "+.Inf", "+.INF", "-.inf", "-.Inf",
   "-.INF"]

/-- What the text of a numeral or a date suggests. Underscores between digits do not count. -/
def numeralTag (text : String) : Tag :=
  let plain := text.toList.filter (· != '_')
  if isTimestamp text.toList then .timestamp
  else if isInteger plain then .int
  else if isDecimal plain then .float
  else .string

/-- What the text of a plain scalar suggests. -/
def Tag.ofPlain (text : String) : Tag :=
  if nullWords.contains text then .null
  else if trueWords.contains text || falseWords.contains text then .bool
  else if specialNumbers.contains text then .float
  else
    match text.toList.head? with
    | some c =>
      if c == '.' then if isDecimal text.toList then .float else .string
      else if c.isDigit || c == '+' || c == '-' then numeralTag text
      else .string
    | none => .string

end Scriptlet.Yaml
