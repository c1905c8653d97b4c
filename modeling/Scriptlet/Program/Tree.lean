import Scriptlet.Token.Basic

/-!
Programs as trees. `missing` stands where an optional part is left out: the initial value of a
variable, the alternative of a conditional. A tree made by hand may have it, or a node of a type
that is not of this language, in any place.
-/

namespace Scriptlet

inductive Expr where
  | literal (value : Literal)
  | grouping (inner : Expr)
  | unary (op : Token) (operand : Expr)
  | binary (left : Expr) (op : Token) (right : Expr)
  /-- A conjunction or disjunction, whose right side is evaluated only if the left one leaves the
  answer open. -/
  | logical (left : Expr) (op : Token) (right : Expr)
  | variable (name : Token)
  | assign (name : Token) (value : Expr)
  | missing
  | foreign (typeName : String)
  deriving DecidableEq, Inhabited

inductive Stmt where
  | expression (e : Expr)
  | print (e : Expr)
  | declare (name : Token) (initial : Expr)
  | block (body : List Stmt)
  | conditional (condition : Expr) (consequence alternative : Stmt)
  | loop (condition : Expr) (body : Stmt)
  | missing
  | foreign (typeName : String)
  deriving Inhabited

def Expr.isMissing : Expr → Bool
  | .missing => true
  | _ => false

def Stmt.isMissing : Stmt → Bool
  | .missing => true
  | _ => false

/-- What messages call a node that is not there. -/
def missingTypeName : String := "<nil>"

end Scriptlet
