import Scriptlet.Token.Basic
import Scriptlet.Value

/-!
Reasons for which a run stops early. A runtime error is a fault of the program and is told with the
token that caused it. A defect is a fault of the tree, which no source text can have.
-/

namespace Scriptlet

inductive RuntimeErrorKind where
  | typeError
  | undefinedVariable
  deriving DecidableEq, Repr

namespace RuntimeErrorKind

def name : RuntimeErrorKind → String
  | .typeError => "TypeError"
  | .undefinedVariable => "UndefinedVariable"

/-- The kinds numbered from zero. -/
def ofCode? (code : UInt8) : Option RuntimeErrorKind :=
  [typeError, undefinedVariable][code.toNat]?

end RuntimeErrorKind

inductive RuntimeCause where
  | operandNotNumber (operand : ValueKind)
  | operandsNotNumbers (left right : ValueKind)
  | operandsNotAddable (left right : ValueKind)
  | undefinedVariable
  deriving DecidableEq, Repr

/-- A runtime error, at an operator or a name. -/
structure RuntimeError where
  token : Token
  cause : RuntimeCause
  deriving DecidableEq

namespace RuntimeError

def kind (e : RuntimeError) : RuntimeErrorKind :=
  match e.cause with
  | .undefinedVariable => .undefinedVariable
  | _ => .typeError

/-- The kinds of the operands, for a message about the operator between them. -/
def got (operands : List ValueKind) (op : String) : String :=
  " Got [" ++ " ".intercalate (operands.map ValueKind.name) ++ "] for '" ++ op ++ "'."

def message (e : RuntimeError) : String :=
  match e.cause with
  | .operandNotNumber operand => "Operand must be a number." ++ got [operand] e.token.lexeme
  | .operandsNotNumbers left right =>
    "Operands must be numbers." ++ got [left, right] e.token.lexeme
  | .operandsNotAddable left right =>
    "Operands must be two numbers or two strings." ++ got [left, right] e.token.lexeme
  | .undefinedVariable => "Undefined variable '" ++ e.token.lexeme ++ "'."

def describe (e : RuntimeError) : String :=
  e.message ++ "\n[line " ++ toString e.token.line ++ "]"

end RuntimeError

inductive Defect where
  | integerLiteral
  | unaryOperator (kind : TokenKind)
  | binaryOperator (kind : TokenKind)
  | statementType (typeName : String)
  | expressionType (typeName : String)
  deriving DecidableEq, Repr

def Defect.message : Defect → String
  | .integerLiteral => "BUG: unsupported literal type int"
  | .unaryOperator kind => "BUG: Unhandled unary operator in eval: " ++ kind.name
  | .binaryOperator kind => "BUG: Unimplemented binary operator: " ++ kind.name
  | .statementType typeName => "BUG: unmatched statement type during execution: " ++ typeName
  | .expressionType typeName => "BUG: unmatched AST node type during evaluation: " ++ typeName

inductive Fault where
  | error (e : RuntimeError)
  | defect (d : Defect)
  /-- A value that is absent was to be printed, or the global scope was to be dropped. -/
  | crash
  /-- A loop used up the number of rounds that it was given. -/
  | exhausted
  deriving DecidableEq

end Scriptlet
