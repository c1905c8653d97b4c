import Scriptlet.Text.Capital
import Scriptlet.Text.DecimalDigit
import Scriptlet.Text.Letter
import Scriptlet.Token.Basic

/-!
Source text cut into segments. Every character belongs to exactly one segment, and each token is
as long as it can be: an operator takes the `=` that follows it, a number its fraction, a word all
letters and digits up to the next other character. A segment is found from its first character
alone, so cutting goes on behind a stray character as if nothing had happened.
-/

namespace Scriptlet

inductive Segment where
  /-- A space, tab, carriage return or newline. -/
  | blank (c : Char)
  /-- From `//` to the end of the line, the newline left out. -/
  | comment (text : List Char)
  | token (kind : TokenKind) (text : List Char)
  /-- A character that starts nothing. -/
  | stray (c : Char)
  /-- From a quote that nothing closes to the end of the source. -/
  | openString (text : List Char)
  deriving DecidableEq

namespace Segment

def text : Segment → List Char
  | .blank c | .stray c => [c]
  | .comment text | .token _ text | .openString text => text

/-- Reserved words are looked up in capitals, so capitals and small letters are alike. -/
def wordKind (word : List Char) : TokenKind :=
  (TokenKind.ofKeyword? (String.ofList (word.map Text.capital))).getD .identifier

def continuesWord (c : Char) : Bool :=
  Text.isLetter c || Text.isDecimalDigit c

/-- The kinds of the tokens of a single character. -/
def single? : Char → Option TokenKind
  | '(' => some .leftParen
  | ')' => some .rightParen
  | '{' => some .leftBrace
  | '}' => some .rightBrace
  | ',' => some .comma
  | '.' => some .dot
  | '-' => some .minus
  | '+' => some .plus
  | ';' => some .semicolon
  | '*' => some .star
  | _ => none

/-- The operators that an `=` may follow, without it and with it. -/
def comparison? : Char → Option (TokenKind × TokenKind)
  | '!' => some (.bang, .bangEqual)
  | '=' => some (.equal, .equalEqual)
  | '>' => some (.greater, .greaterEqual)
  | '<' => some (.less, .lessEqual)
  | _ => none

def isBlank (c : Char) : Bool :=
  c = ' ' || c = '\t' || c = '\r' || c = '\n'

/-- The digits after a point, if there are any. -/
def fraction : List Char → List Char
  | '.' :: d :: rest => if d.isDigit then '.' :: d :: rest.takeWhile Char.isDigit else []
  | _ => []

/-- The segment that starts with `c` when `rest` follows. -/
def starting (c : Char) (rest : List Char) : Segment :=
  if let some kind := single? c then .token kind [c]
  else if let some (alone, compound) := comparison? c then
    match rest with
    | '=' :: _ => .token compound [c, '=']
    | _ => .token alone [c]
  else if c = '/' then
    match rest with
    | '/' :: rest => .comment ('/' :: '/' :: rest.takeWhile (· ≠ '\n'))
    | _ => .token .slash [c]
  else if c = '"' then
    match rest.dropWhile (· ≠ '"') with
    | [] => .openString ('"' :: rest)
    | _ :: _ => .token .string ('"' :: rest.takeWhile (· ≠ '"') ++ ['"'])
  else if isBlank c then .blank c
  else if c.isDigit then
    let whole := c :: rest.takeWhile Char.isDigit
    .token .number (whole ++ fraction (rest.dropWhile Char.isDigit))
  else if Text.isLetter c then
    let word := c :: rest.takeWhile continuesWord
    .token (wordKind word) word
  else .stray c

theorem length_text_starting_pos (c : Char) (rest : List Char) :
    0 < (starting c rest).text.length := by
  unfold starting
  repeat' split
  all_goals simp [text]

end Segment

/-- Cuts a source text into its segments. -/
def segments : List Char → List Segment
  | [] => []
  | c :: rest =>
    let segment := Segment.starting c rest
    segment :: segments ((c :: rest).drop segment.text.length)
termination_by source => source.length
decreasing_by
  have h := Segment.length_text_starting_pos c rest
  simp only [List.length_drop, List.length_cons]
  omega

end Scriptlet
