import Scriptlet.Text.Utf8
import Scriptlet.Yaml.Problem

/-!
The characters of a YAML stream. The stream is UTF-8, or UTF-16 if it starts with that encoding's
byte order mark, and holds no control characters but tabs and line breaks.
-/

namespace Scriptlet.Yaml

def isAllowed (c : Char) : Bool :=
  let n := c.toNat
  n = 0x09 || n = 0x0A || n = 0x0D || (0x20 ≤ n && n ≤ 0x7E) || n = 0x85 ||
    (0xA0 ≤ n && n ≤ 0xFFFD) || 0x10000 ≤ n

def allowed (c : Char) : Except Problem Char :=
  if isAllowed c then .ok c else .error ⟨.controlCharacter, 0⟩

/-- Number of bytes in a sequence that starts with the given byte. -/
def sequenceLength? (lead : UInt8) : Option Nat :=
  let n := lead.toNat
  if n < 0x80 then some 1
  else if n < 0xC0 then none
  else if n < 0xE0 then some 2
  else if n < 0xF0 then some 3
  else if n < 0xF8 then some 4
  else none

/-- Why the bytes start with no character. -/
def octetCause : List UInt8 → Cause
  | [] => .incompleteOctets
  | lead :: rest =>
    match sequenceLength? lead with
    | none => .leadingOctet
    | some width =>
      if rest.length + 1 < width then .incompleteOctets
      else if !(rest.take (width - 1)).all Text.isContinuation then .trailingOctet
      else
        let first := ((rest.head?).map UInt8.toNat).getD 0
        if (lead.toNat < 0xC2) || (lead = 0xE0 && first < 0xA0) || (lead = 0xF0 && first < 0x90) then
          .octetLength
        else .badCharacter

def octets : Nat → List UInt8 → Except Problem (List Char)
  | 0, _ => .ok []
  | _ + 1, [] => .ok []
  | fuel + 1, a :: rest =>
    match Text.leadingChar? (a :: rest) with
    | none => .error ⟨octetCause (a :: rest), 0⟩
    | some (c, rest) => do
      let c ← allowed c
      let cs ← octets fuel rest
      pure (c :: cs)

/-- The characters of a list of UTF-16 units. -/
def unitChars : List Nat → Except Problem (List Char)
  | [] => .ok []
  | [high] =>
    if 0xD800 ≤ high && high < 0xDC00 then .error ⟨.incompletePair, 0⟩
    else if 0xDC00 ≤ high && high < 0xE000 then .error ⟨.lowSurrogateFirst, 0⟩
    else (allowed (Char.ofNat high)).map ([·])
  | high :: low :: rest =>
    if 0xDC00 ≤ high && high < 0xE000 then .error ⟨.lowSurrogateFirst, 0⟩
    else if 0xD800 ≤ high && high < 0xDC00 then
      if 0xDC00 ≤ low && low < 0xE000 then do
        let c ← allowed (Char.ofNat (0x10000 + (high - 0xD800) * 0x400 + (low - 0xDC00)))
        let cs ← unitChars rest
        pure (c :: cs)
      else .error ⟨.missingLowSurrogate, 0⟩
    else do
      let c ← allowed (Char.ofNat high)
      let cs ← unitChars (low :: rest)
      pure (c :: cs)

/-- Pairs of bytes as units, the one or the other byte counting for more. -/
def units (lowFirst : Bool) : List UInt8 → Except Problem (List Nat)
  | [] => .ok []
  | [_] => .error ⟨.incompleteUnit, 0⟩
  | a :: b :: rest => do
    let unit := if lowFirst then a.toNat + 256 * b.toNat else 256 * a.toNat + b.toNat
    let more ← units lowFirst rest
    pure (unit :: more)

/-- The characters of a stream, without its byte order mark. -/
def streamChars : List UInt8 → Except Problem (List Char)
  | 0xEF :: 0xBB :: 0xBF :: rest => octets rest.length rest
  | 0xFF :: 0xFE :: rest => units true rest >>= unitChars
  | 0xFE :: 0xFF :: rest => units false rest >>= unitChars
  | bytes => octets bytes.length bytes

end Scriptlet.Yaml
