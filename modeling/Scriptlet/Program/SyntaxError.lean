import Scriptlet.Token.Basic

/-!
Syntax errors: the token at which reading could not go on, and what was expected there.
-/

namespace Scriptlet

/-- What a rule of the grammar was looking for. -/
inductive Expectation where
  | variableName
  | semicolonAfterDeclaration
  | semicolonAfterValue
  | semicolonAfterExpression
  | semicolonAfterLoopCondition
  | braceAfterBlock
  | parenAfterIf
  | parenAfterWhile
  | parenAfterFor
  | parenAfterCondition
  | parenAfterForClauses
  | parenAfterExpression
  | expression
  deriving DecidableEq, Repr

def Expectation.text : Expectation → String
  | .variableName => "variable name"
  | .semicolonAfterDeclaration => "';' after variable declaration"
  | .semicolonAfterValue => "';' after value"
  | .semicolonAfterExpression => "';' after expression"
  | .semicolonAfterLoopCondition => "';' after loop condition"
  | .braceAfterBlock => "'\x7d' after block"
  | .parenAfterIf => "'(' after 'if'"
  | .parenAfterWhile => "'(' after 'while'"
  | .parenAfterFor => "'(' after 'for'"
  | .parenAfterCondition => "')' after condition"
  | .parenAfterForClauses => "')' after for clauses"
  | .parenAfterExpression => "')' after expression"
  | .expression => "expression"

inductive SyntaxFault where
  | expected (what : Expectation)
  /-- The left side of an assignment is not a variable. -/
  | invalidTarget
  deriving DecidableEq, Repr

structure SyntaxError where
  token : Token
  fault : SyntaxFault
  deriving DecidableEq

namespace SyntaxError

def message (e : SyntaxError) : String :=
  match e.fault with
  | .expected what =>
    "expect " ++ what.text ++ ", got " ++
      (if e.token.kind = .endOfFile then e.token.kind.name else "'" ++ e.token.lexeme ++ "'")
  | .invalidTarget => "Invalid assignment target."

/-- Where the error is, for a message that gives its line. -/
def location (e : SyntaxError) : String :=
  if e.token.kind = .endOfFile then " at end" else " at '" ++ e.token.lexeme ++ "'"

def describe (e : SyntaxError) : String :=
  "[line " ++ toString e.token.line ++ "] Error" ++ e.location ++ ": " ++ e.message

end SyntaxError

end Scriptlet
