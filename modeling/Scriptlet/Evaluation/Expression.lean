import Scriptlet.Evaluation.Fault
import Scriptlet.Program.Tree
import Scriptlet.Scope

/-!
Values of expressions. Operands are evaluated from left to right; an assignment changes the scopes,
and the change stays when a later operand fails.
-/

namespace Scriptlet

def Literal.value : Literal → Except Fault Value
  | .nil => .ok .nil
  | .bool b => .ok (.bool b)
  | .number x => .ok (.number x)
  | .string s => .ok (.string s)
  | .integer _ => .error (.defect .integerLiteral)

def typeError (op : Token) (cause : RuntimeCause) : Except Fault Value :=
  .error (.error ⟨op, cause⟩)

def applyUnary (op : Token) (v : Value) : Except Fault Value :=
  match op.kind with
  | .bang => .ok (.bool (!v.isTruthy))
  | .minus =>
    match v with
    | .number x => .ok (.number (-x))
    | other => typeError op (.operandNotNumber other.kind)
  | kind => .error (.defect (.unaryOperator kind))

/-- The operators that take two numbers and nothing else. -/
def arithmetic (kind : TokenKind) (x y : Float) : Except Fault Value :=
  match kind with
  | .minus => .ok (.number (x - y))
  | .star => .ok (.number (x * y))
  | .slash => .ok (.number (x / y))
  | .greater => .ok (.bool (decide (y < x)))
  | .greaterEqual => .ok (.bool (decide (y ≤ x)))
  | .less => .ok (.bool (decide (x < y)))
  | .lessEqual => .ok (.bool (decide (x ≤ y)))
  | other => .error (.defect (.binaryOperator other))

def applyBinary (op : Token) (left right : Value) : Except Fault Value :=
  match op.kind with
  | .equalEqual => .ok (.bool (left.equals right))
  | .bangEqual => .ok (.bool (!left.equals right))
  | .plus =>
    match left, right with
    | .number x, .number y => .ok (.number (x + y))
    | .string s, .string t => .ok (.string (s ++ t))
    | l, r => typeError op (.operandsNotAddable l.kind r.kind)
  | kind =>
    match left, right with
    | .number x, .number y => arithmetic kind x y
    | l, r => typeError op (.operandsNotNumbers l.kind r.kind)

/-- Whether the left side of a logical operator is its value. -/
def settles (op : Token) (left : Value) : Bool :=
  if op.kind = .kwOr then left.isTruthy else !left.isTruthy

def lookUp (name : Token) (σ : Scopes) : Except Fault Value :=
  match σ.get? name.lexeme with
  | some v => .ok v
  | none => .error (.error ⟨name, .undefinedVariable⟩)

def assignVariable (name : Token) (v : Value) (σ : Scopes) : Except Fault Value × Scopes :=
  match σ.assign? name.lexeme v with
  | some σ => (.ok v, σ)
  | none => (.error (.error ⟨name, .undefinedVariable⟩), σ)

def evaluate : Expr → Scopes → Except Fault Value × Scopes
  | .literal value, σ => (value.value, σ)
  | .grouping inner, σ => evaluate inner σ
  | .unary op operand, σ =>
    match evaluate operand σ with
    | (.error fault, σ) => (.error fault, σ)
    | (.ok v, σ) => (applyUnary op v, σ)
  | .binary left op right, σ =>
    match evaluate left σ with
    | (.error fault, σ) => (.error fault, σ)
    | (.ok l, σ) =>
      match evaluate right σ with
      | (.error fault, σ) => (.error fault, σ)
      | (.ok r, σ) => (applyBinary op l r, σ)
  | .logical left op right, σ =>
    match evaluate left σ with
    | (.error fault, σ) => (.error fault, σ)
    | (.ok l, σ) => if settles op l then (.ok l, σ) else evaluate right σ
  | .variable name, σ => (lookUp name σ, σ)
  | .assign name value, σ =>
    match evaluate value σ with
    | (.error fault, σ) => (.error fault, σ)
    | (.ok v, σ) => assignVariable name v σ
  | .missing, σ => (.error (.defect (.expressionType missingTypeName)), σ)
  | .foreign typeName, σ => (.error (.defect (.expressionType typeName)), σ)

end Scriptlet
