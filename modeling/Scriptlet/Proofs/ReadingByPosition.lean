import Scriptlet.Cursor
import Scriptlet.Program.Statement

/-!
The rules of the grammar over a cursor. Here a token list is read in place: rules ask what stands
at the position, move on and look back, and nothing in their form keeps the cursor inside the list
or makes reading end. A walk that looks at a token where none is has no result, nor has one whose
calls are nested deeper than it was granted. On its way the reader notes where it has been and
where each error is.
-/

namespace Scriptlet

/-- The tokens with an end token behind them, on the line of the last one, unless the last one is
an end token. -/
def withEnd (tokens : List Token) : List Token :=
  if tokens.getLast?.any (·.kind = .endOfFile) then tokens
  else tokens ++ [⟨.endOfFile, "", .nil, (tokens.getLast?.map Token.line).getD 1⟩]

/-- An error and the position of its token. -/
structure PlacedError where
  position : Int
  error : SyntaxError

structure Reader where
  cursor : Cursor Token
  /-- Every position that the cursor has been at. -/
  trail : List Int
  /-- Where each call of `declaration` started and where it left off. -/
  calls : List (Int × Int)
  errors : List PlacedError

abbrev Walk := StateT Reader Option

/-- A walk that may stop at an error. -/
abbrev Rule := ExceptT PlacedError Walk

/-- The operators of a level. -/
def Level.operators : Level → List TokenKind
  | .disjunction => [.kwOr]
  | .conjunction => [.kwAnd]
  | .equality => [.bangEqual, .equalEqual]
  | .comparison => [.greater, .greaterEqual, .less, .lessEqual]
  | .term => [.minus, .plus]
  | .factor => [.slash, .star]

namespace Walk

def stuck {α : Type} : Walk α := fun _ => none

/-- A token that has to be there. -/
def found (t : Option Token) : Walk Token := fun r => t.map (·, r)

def moveTo (cursor : Cursor Token) : Walk Unit :=
  modify fun r => { r with cursor, trail := r.trail ++ [cursor.position] }

def report (e : PlacedError) : Walk Unit :=
  modify fun r => { r with errors := r.errors ++ [e] }

/-- Notes a call that started at a position and ends here. -/
def noteCall (start : Int) : Walk Unit :=
  modify fun r => { r with calls := r.calls ++ [(start, r.cursor.position)] }

def position : Walk Int := return (← get).cursor.position

def isAtEnd : Walk Bool := return (← get).cursor.atKind [.endOfFile]

def peek : Walk Token := do found (← get).cursor.peek?

def previous : Walk Token := do found (← get).cursor.previous?

/-- Moves on if a token of one of the given kinds stands at the position. -/
def accept (kinds : List TokenKind) : Walk Bool := do
  if ← isAtEnd then return false
  match (← get).cursor.acceptKind kinds with
  | (true, cursor) =>
    moveTo cursor
    return true
  | (false, _) => return false

def check (kind : TokenKind) : Walk Bool := do
  return !(← isAtEnd) && (← get).cursor.atKind [kind]

/-- Moves on, but never past an end token. -/
def advance : Walk (Option Token) := do
  if ← isAtEnd then return (← get).cursor.peek?
  let (t, cursor) := (← get).cursor.advance
  moveTo cursor
  return t

/-- Stops at the token at the position. -/
def refuse {α : Type} (what : Expectation) : Rule α := do
  let t ← peek
  throw ⟨← position, ⟨t, .expected what⟩⟩

def consume (kind : TokenKind) (what : Expectation) : Rule (Option Token) := do
  if ← check kind then advance else refuse what

/-- Only a variable can be assigned to; the error is at the sign between target and value. -/
def assign (target : Expr) (equals : Token) (place : Int) (value : Expr) : Rule Expr := do
  match target with
  | .variable name => return .assign name value
  | other =>
    report ⟨place, ⟨equals, .invalidTarget⟩⟩
    return other

mutual

def assignment : Nat → Rule Expr
  | 0 => stuck
  | depth + 1 => do
    let target ← chain depth .disjunction
    if ← accept [.equal] then
      let equals ← previous
      let place ← position
      let value ← assignment depth
      assign target equals (place - 1) value
    else return target

def operand : Nat → Level → Rule Expr
  | 0, _ => stuck
  | depth + 1, l =>
    match l.tighter? with
    | some m => chain depth m
    | none => unary depth

def chain : Nat → Level → Rule Expr
  | 0, _ => stuck
  | depth + 1, l => do
    let first ← operand depth l
    extend depth l first

def extend : Nat → Level → Expr → Rule Expr
  | 0, _, _ => stuck
  | depth + 1, l, left => do
    if ← accept l.operators then
      let op ← previous
      let right ← operand depth l
      extend depth l (l.node left op right)
    else return left

def unary : Nat → Rule Expr
  | 0 => stuck
  | depth + 1 => do
    if ← accept [.bang, .minus] then
      let op ← previous
      let e ← unary depth
      return .unary op e
    else primary depth

def primary : Nat → Rule Expr
  | 0 => stuck
  | depth + 1 => do
    if ← accept [.kwFalse] then return .literal (.bool false)
    else if ← accept [.kwTrue] then return .literal (.bool true)
    else if ← accept [.kwNil] then return .literal .nil
    else if ← accept [.number, .string] then return .literal (← previous).literal
    else if ← accept [.identifier] then return .variable (← previous)
    else if ← accept [.leftParen] then
      let e ← assignment depth
      let _ ← consume .rightParen .parenAfterExpression
      return .grouping e
    else refuse .expression

end

def terminated (depth : Nat) (what : Expectation) : Rule Expr := do
  let e ← assignment depth
  let _ ← consume .semicolon what
  return e

def expressionStatement (depth : Nat) : Rule Stmt := do
  let e ← terminated depth .semicolonAfterExpression
  return .expression e

def initialValue (depth : Nat) : Rule Expr := do
  if ← accept [.equal] then assignment depth else return .missing

def variableDeclaration (depth : Nat) : Rule Stmt := do
  let name ← consume .identifier .variableName
  let initial ← initialValue depth
  let _ ← consume .semicolon .semicolonAfterDeclaration
  return .declare (← found name) initial

def condition (depth : Nat) (what : Expectation) : Rule Expr := do
  let _ ← consume .leftParen what
  let e ← assignment depth
  let _ ← consume .rightParen .parenAfterCondition
  return e

def forInitial (depth : Nat) : Rule Stmt := do
  if ← accept [.semicolon] then return .missing
  else if ← accept [.kwVar] then variableDeclaration depth
  else expressionStatement depth

/-- An expression, unless its place is closed at once. -/
def optional (depth : Nat) (closing : TokenKind) : Rule Expr := do
  if ← check closing then return .missing else assignment depth

def clause (depth : Nat) (closing : TokenKind) (what : Expectation) : Rule Expr := do
  let e ← optional depth closing
  let _ ← consume closing what
  return e

def forClauses (depth : Nat) : Rule ForClauses := do
  let _ ← consume .leftParen .parenAfterFor
  let initial ← forInitial depth
  let condition ← clause depth .semicolon .semicolonAfterLoopCondition
  let increment ← clause depth .rightParen .parenAfterForClauses
  return ⟨initial, condition, increment⟩

/-- The words in front of which reading goes on after an error. -/
def starters : List TokenKind :=
  [.kwClass, .kwFun, .kwVar, .kwFor, .kwIf, .kwWhile, .kwPrint, .kwReturn]

def skip : Nat → Walk Unit
  | 0 => stuck
  | depth + 1 => do
    if ← isAtEnd then return
    if (← previous).kind = .semicolon then return
    if (← get).cursor.atKind starters then return
    let _ ← advance
    skip depth

/-- Goes on to a place where a statement probably starts. -/
def synchronize (depth : Nat) : Walk Unit := do
  let _ ← advance
  skip depth

mutual

def statement : Nat → Rule Stmt
  | 0 => stuck
  | depth + 1 => do
    if ← accept [.kwFor] then
      let clauses ← forClauses depth
      let body ← statement depth
      return clauses.loop body
    else if ← accept [.kwIf] then
      let test ← condition depth .parenAfterIf
      let consequence ← statement depth
      if ← accept [.kwElse] then
        let alternative ← statement depth
        return .conditional test consequence alternative
      else return .conditional test consequence .missing
    else if ← accept [.kwPrint] then
      let e ← terminated depth .semicolonAfterValue
      return .print e
    else if ← accept [.kwWhile] then
      let test ← condition depth .parenAfterWhile
      let body ← statement depth
      return .loop test body
    else if ← accept [.leftBrace] then
      let body ← declarations depth true
      let _ ← consume .rightBrace .braceAfterBlock
      return .block body
    else expressionStatement depth

/-- A declaration that cannot be read is reported and skipped. -/
def declaration : Nat → Walk (Option Stmt)
  | 0 => stuck
  | depth + 1 => do
    let start ← position
    let declared : Rule Stmt := do
      if ← accept [.kwVar] then variableDeclaration depth else statement depth
    match ← declared.run with
    | .ok s =>
      noteCall start
      return some s
    | .error e =>
      report e
      synchronize depth
      noteCall start
      return none

/-- Reads declarations up to the end, in a block only up to its closing brace. -/
def declarations : Nat → Bool → Walk (List Stmt)
  | 0, _ => stuck
  | depth + 1, inBlock => do
    if (inBlock && (← check .rightBrace)) || (← isAtEnd) then return []
    let d ← declaration depth
    let later ← declarations depth inBlock
    return d.toList ++ later

end

/-- Reads a token list from its start, with calls nested no deeper than `depth`. -/
def program (depth : Nat) (tokens : List Token) : Option (List Stmt × Reader) :=
  (declarations depth false).run ⟨⟨(withEnd tokens).toArray, 0⟩, [0], [], []⟩

end Walk

end Scriptlet
