import Scriptlet.Token.Basic

/-!
A position in a sequence, which may lie before its start or behind its end. Looking at such a
position finds nothing, and moving on from it stays where it is.
-/

namespace Scriptlet

structure Cursor (α : Type) where
  items : Array α
  position : Int

namespace Cursor

variable {α : Type}

def at? (c : Cursor α) (i : Int) : Option α :=
  if i < 0 then none else c.items[i.toNat]?

def peek? (c : Cursor α) : Option α :=
  c.at? c.position

def previous? (c : Cursor α) : Option α :=
  c.at? (c.position - 1)

def isAtEnd (c : Cursor α) : Bool :=
  c.items.size ≤ c.position

def forward (c : Cursor α) : Cursor α :=
  { c with position := c.position + 1 }

/-- The element at the position, and the cursor behind it. -/
def advance (c : Cursor α) : Option α × Cursor α :=
  match c.peek? with
  | some a => (some a, c.forward)
  | none => (none, c)

/-- Moves on if the element at the position is one of those wanted. To compare anything with a
position before the start is a mistake, answered by `none`. -/
def accept? [BEq α] (c : Cursor α) (wanted : List α) : Option (Bool × Cursor α) :=
  if c.isAtEnd || wanted.isEmpty then some (false, c)
  else
    match c.peek? with
    | none => none
    | some a => some (if wanted.contains a then (true, c.forward) else (false, c))

/-- Whether a token of one of the given kinds stands at the position. -/
def atKind (c : Cursor Token) (kinds : List TokenKind) : Bool :=
  match c.peek? with
  | none => false
  | some t => kinds.contains t.kind

/-- Moves on if a token of one of the given kinds stands at the position. -/
def acceptKind (c : Cursor Token) (kinds : List TokenKind) : Bool × Cursor Token :=
  if c.atKind kinds then (true, c.forward) else (false, c)

end Cursor

end Scriptlet
