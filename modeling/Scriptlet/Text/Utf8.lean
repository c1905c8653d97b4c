/-!
UTF-8 read leniently: a byte that is not part of a well-formed sequence stands for one
replacement character, and reading goes on with the byte after it.
-/

namespace Scriptlet.Text

/-- U+FFFD, which takes the place of whatever is not a character. -/
def replacement : Char := '\ufffd'

/-- The character of a code point, if there is one. -/
def charOf? (code : Nat) : Option Char :=
  if code.isValidChar then some (Char.ofNat code) else none

/-- The character of a code point, the replacement character if there is none. -/
def charOf (code : Nat) : Char :=
  (charOf? code).getD replacement

/-- The character of a number that may be no code point at all, such as a negative one. -/
def charOfInt (code : Int) : Char :=
  if code < 0 then replacement else charOf code.toNat

def isContinuation (b : UInt8) : Bool :=
  0x80 ≤ b.toNat && b.toNat < 0xC0

def twoBytes? (a b : UInt8) : Option Char :=
  if 0xC2 ≤ a.toNat && a.toNat < 0xE0 && isContinuation b then
    charOf? ((a.toNat - 0xC0) * 64 + (b.toNat - 0x80))
  else none

def threeBytes? (a b c : UInt8) : Option Char :=
  let code := (a.toNat - 0xE0) * 4096 + (b.toNat - 0x80) * 64 + (c.toNat - 0x80)
  if 0xE0 ≤ a.toNat && a.toNat < 0xF0 && isContinuation b && isContinuation c && 0x800 ≤ code then
    charOf? code
  else none

def fourBytes? (a b c d : UInt8) : Option Char :=
  let code := (a.toNat - 0xF0) * 262144 + (b.toNat - 0x80) * 4096 + (c.toNat - 0x80) * 64 +
    (d.toNat - 0x80)
  if 0xF0 ≤ a.toNat && a.toNat < 0xF8 && isContinuation b && isContinuation c &&
      isContinuation d && 0x10000 ≤ code then
    charOf? code
  else none

/-- The character at the front and the bytes after it, `none` if the first byte starts no
well-formed sequence. -/
def leadingChar? : List UInt8 → Option (Char × List UInt8)
  | [] => none
  | a :: rest =>
    if a.toNat < 0x80 then some (Char.ofNat a.toNat, rest)
    else
      match rest with
      | [] => none
      | b :: rest =>
        match twoBytes? a b with
        | some ch => some (ch, rest)
        | none =>
          match rest with
          | [] => none
          | c :: rest =>
            match threeBytes? a b c with
            | some ch => some (ch, rest)
            | none =>
              match rest with
              | [] => none
              | d :: rest => (fourBytes? a b c d).map (·, rest)

/-- Reads at most `fuel` characters after those in `acc`. -/
def decodeFrom (acc : Array Char) : Nat → List UInt8 → Array Char
  | 0, _ => acc
  | _ + 1, [] => acc
  | fuel + 1, a :: rest =>
    match leadingChar? (a :: rest) with
    | some (c, rest) => decodeFrom (acc.push c) fuel rest
    | none => decodeFrom (acc.push replacement) fuel rest

/-- The characters of a byte sequence. Each takes at least one byte, so there are no more
characters than bytes. -/
def decode (bytes : List UInt8) : List Char :=
  (decodeFrom #[] bytes.length bytes).toList

/-- Whether the bytes are well-formed throughout. -/
def isWellFormed : Nat → List UInt8 → Bool
  | _, [] => true
  | 0, _ => false
  | fuel + 1, a :: rest =>
    match leadingChar? (a :: rest) with
    | some (_, rest) => isWellFormed fuel rest
    | none => false

def encode (text : String) : List UInt8 :=
  text.toUTF8.data.toList

end Scriptlet.Text
