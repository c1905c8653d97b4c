import Scriptlet.Source.Segment
import Scriptlet.Text.Utf8

/-!
Scanning: the tokens of a source text and its lexical errors, both in the order of the text and
each with its line. A segment that spans lines is placed on its last one.
-/

namespace Scriptlet

inductive LexicalFault where
  | strayCharacter
  | unterminatedString
  deriving DecidableEq, Repr

def LexicalFault.message : LexicalFault → String
  | .strayCharacter => "invalid input"
  | .unterminatedString => "Unterminated string."

structure LexicalError where
  line : Int
  fault : LexicalFault
  deriving DecidableEq, Repr

def LexicalError.describe (e : LexicalError) : String :=
  "[line " ++ toString e.line ++ "] Error: " ++ e.fault.message

/-- What scanning finds. -/
structure Scan where
  tokens : List Token
  errors : List LexicalError
  deriving DecidableEq

namespace Segment

/-- The value of a number or string token. -/
def literal (kind : TokenKind) (text : List Char) : Literal :=
  match kind with
  | .number =>
    let whole := text.takeWhile Char.isDigit
    let rest := text.dropWhile Char.isDigit
    .number (Decimal.ofDigits whole (rest.drop 1)).toFloat
  | .string => .string (String.ofList (text.tail.dropLast))
  | _ => .nil

def token? (line : Int) : Segment → Option Token
  | .token kind text => some ⟨kind, String.ofList text, literal kind text, line⟩
  | _ => none

def error? (line : Int) : Segment → Option LexicalError
  | .stray _ => some ⟨line, .strayCharacter⟩
  | .openString _ => some ⟨line, .unterminatedString⟩
  | _ => none

/-- How many lines a segment leads down. Only a newline outside of tokens and the newlines in strings
count. -/
def newlines : Segment → Nat
  | .blank c => if c = '\n' then 1 else 0
  | .token .string text | .openString text => text.count '\n'
  | .comment _ | .token _ _ | .stray _ => 0

end Segment

/-- The findings of the segments from a line on. An end token closes the list. -/
def Scan.ofSegments (line : Int) : List Segment → Scan
  | [] => ⟨[⟨.endOfFile, "", .nil, line⟩], []⟩
  | s :: rest =>
    let line := line + s.newlines
    let later := ofSegments line rest
    ⟨(s.token? line).toList ++ later.tokens, (s.error? line).toList ++ later.errors⟩

def scan (source : List Char) : Scan :=
  Scan.ofSegments 1 (segments source)

/-- Scans a source text given by code points. A number that is none stands for the replacement
character. -/
def scanCodes (codes : List Int) : Scan :=
  scan (codes.map Text.charOfInt)

end Scriptlet
