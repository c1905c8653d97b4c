import Scriptlet.Number
import Scriptlet.Text.Quoted
import Scriptlet.Token.Kind

/-!
Tokens and the literal values they carry, with the two forms in which tokens are listed.
-/

namespace Scriptlet

/-- A literal value. A token without one carries `nil`. Source text never yields an `integer`:
it is what a tree made by hand may hold, and evaluation refuses it. -/
inductive Literal where
  | nil
  | bool (b : Bool)
  | number (x : Float)
  | string (s : String)
  | integer (n : Int)
  deriving DecidableEq

instance : Inhabited Literal := ⟨.nil⟩

namespace Literal

/-- The value as text, a string without quotes. -/
def plain : Literal → String
  | .nil => "<nil>"
  | .bool b => if b then "true" else "false"
  | .number x => Number.compact x
  | .string s => s
  | .integer n => toString n

/-- The value as a listing of tokens shows it, a string in quotes. -/
def listed : Literal → String
  | .nil => "interface \x7b\x7d(nil)"
  | .string s => Text.quoted s
  | value => value.plain

end Literal

structure Token where
  kind : TokenKind
  lexeme : String
  literal : Literal := .nil
  line : Int
  deriving DecidableEq, Inhabited

namespace Token

/-- Kind, lexeme, literal and line: `number "1" 1 (line 1)`. -/
def describe (t : Token) : String :=
  t.kind.name ++ " " ++ Text.quoted t.lexeme ++ " " ++ t.literal.plain ++
    " (line " ++ toString t.line ++ ")"

/-- The form of a token listing, which names every field. -/
def listing (t : Token) : String :=
  "tokens.Token\x7bType:" ++ toString t.kind.code.toInt ++ ", Lexeme:" ++ Text.quoted t.lexeme ++
    ", Literal:" ++ t.literal.listed ++ ", Line:" ++ toString t.line ++ "\x7d"

end Token

end Scriptlet
