import Scriptlet.Yaml.Tag

/-!
The nodes of a YAML document.
-/

namespace Scriptlet.Yaml

/-- A node starts on a line, counted from one. The entries of a mapping are a key, its value, the
next key and so on. A reference holds the node that it stands for, unless it stands inside that
node. -/
inductive Node where
  | scalar (line : Nat) (tag : Tag) (text : String)
  | sequence (line : Nat) (tag : Tag) (items : List Node)
  | mapping (line : Nat) (tag : Tag) (entries : List Node)
  | reference (line : Nat) (name : String) (target : Node)
  | enclosing (line : Nat) (name : String)

namespace Node

def line : Node → Nat
  | scalar line _ _ | sequence line _ _ | mapping line _ _ | reference line _ _ | enclosing line _ =>
    line

/-- Two keys of a mapping with the same sign clash. -/
inductive Sign where
  | scalar (text : String)
  | sequence
  | mapping
  | reference (name : String)
  deriving DecidableEq

def sign : Node → Sign
  | scalar _ _ text => .scalar text
  | sequence _ _ _ => .sequence
  | mapping _ _ _ => .mapping
  | reference _ name _ | enclosing _ name => .reference name

def Sign.text : Sign → String
  | .scalar text => text
  | .sequence | .mapping => ""
  | .reference name => name

/-- The keys among the entries of a mapping. -/
def keys : List Node → List Node
  | key :: _ :: rest => key :: keys rest
  | _ => []

/-- Whether a key calls for the entries of other mappings. -/
def isMerge : Node → Bool
  | scalar _ tag text => tag = .merge && text = "<<"
  | _ => false

end Node

end Scriptlet.Yaml
