import Scriptlet.Number

/-!
Values that a program computes. `absent` is no value at all: it is not among the values of the
language and enters only where a host stores it in a variable.
-/

namespace Scriptlet

inductive Value where
  | nil
  | bool (b : Bool)
  | number (x : Float)
  | string (s : String)
  | absent
  deriving DecidableEq

instance : Inhabited Value := ⟨.nil⟩

inductive ValueKind where
  | nil | bool | number | string | absent
  deriving DecidableEq, Repr

/-- What messages call a kind of value. -/
def ValueKind.name : ValueKind → String
  | .nil => "nil"
  | .bool => "bool"
  | .number => "number"
  | .string => "string"
  | .absent => "<nil>"

namespace Value

def kind : Value → ValueKind
  | .nil => .nil
  | .bool _ => .bool
  | .number _ => .number
  | .string _ => .string
  | .absent => .absent

/-- Only `nil` and `false` count as false. -/
def isTruthy : Value → Bool
  | .nil => false
  | .bool b => b
  | _ => true

/-- Equality of the language. Values of different kinds differ; numbers are compared as numbers, so
that both zeros are equal and NaN differs from itself. -/
def equals : Value → Value → Bool
  | .nil, .nil => true
  | .bool a, .bool b => a == b
  | .number a, .number b => a == b
  | .string a, .string b => a == b
  | .absent, .absent => true
  | _, _ => false

/-- What printing shows; nothing can be shown of an absent value. -/
def text? : Value → Option String
  | .nil => some "nil"
  | .bool b => some (if b then "true" else "false")
  | .number x => some (Number.text x)
  | .string s => some s
  | .absent => none

end Value

end Scriptlet
