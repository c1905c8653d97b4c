import Scriptlet.Yaml.Problem

/-!
The tokens of a YAML stream. Block collections have start and end tokens too, though nothing but
indentation stands for them in the text.
-/

namespace Scriptlet.Yaml

inductive ScalarStyle where
  | plain | singleQuoted | doubleQuoted | literal | folded
  deriving DecidableEq, Repr

inductive TokenKind where
  | version (major minor : Nat)
  | tagDirective (handle lead : String)
  | documentStart
  | documentEnd
  | blockSequenceStart
  | blockMappingStart
  | blockEnd
  | flowSequenceStart
  | flowSequenceEnd
  | flowMappingStart
  | flowMappingEnd
  | blockEntry
  | flowEntry
  | key
  | value
  | reference (name : String)
  | anchor (name : String)
  | tag (handle suffix : String)
  | scalar (text : String) (style : ScalarStyle)
  | streamEnd
  deriving DecidableEq, Repr

/-- A token and the line on which it starts, counted from zero. -/
structure Token where
  kind : TokenKind
  line : Nat
  deriving DecidableEq, Repr

/-- The tokens up to the end of the stream, or up to a problem. -/
structure TokenStream where
  tokens : Array Token
  problem : Option Problem := none

namespace TokenStream

/-- A token is given out once the two after it are known, so that a problem with them is found
first. Behind the last token the stream goes on ending. -/
def get (s : TokenStream) (i : Nat) : Except Problem Token :=
  match s.problem with
  | some p =>
    if i + 2 < s.tokens.size then .ok ((s.tokens[i]?).getD ⟨.streamEnd, 0⟩) else .error p
  | none => .ok ((s.tokens[i]?).getD ⟨.streamEnd, 0⟩)

end TokenStream

end Scriptlet.Yaml
