import Scriptlet.Program.Tree

/-!
The outline of a program: one line per node, indented by the node's depth.
-/

namespace Scriptlet

structure OutlineLine where
  depth : Nat
  label : String
  deriving DecidableEq

/-- Below the top level a bar leads each label, three columns further in per level. -/
def OutlineLine.margin (depth : Nat) : String :=
  if depth = 0 then "" else String.ofList (List.replicate (3 * depth - 1) ' ' ++ ['|', ' '])

def OutlineLine.render (line : OutlineLine) : String :=
  margin line.depth ++ line.label ++ "\n"

def Literal.outlineLabel : Literal → String
  | .nil => "Nil"
  | .string s => "Str: " ++ Text.quoted s
  | .number x => "Num: " ++ Number.compact x
  | .bool b => "Bool: " ++ (Literal.bool b).plain
  | .integer n => "Literal: " ++ toString n

def Expr.outline (depth : Nat) : Expr → List OutlineLine
  | .literal value => [⟨depth, value.outlineLabel⟩]
  | .grouping inner => ⟨depth, "Grouping"⟩ :: inner.outline (depth + 1)
  | .unary op operand => ⟨depth, "Unary: " ++ op.lexeme⟩ :: operand.outline (depth + 1)
  | .binary left op right =>
    ⟨depth, "Binary: " ++ op.lexeme⟩ :: (left.outline (depth + 1) ++ right.outline (depth + 1))
  | .logical left op right =>
    ⟨depth, "Logical: " ++ op.lexeme⟩ :: (left.outline (depth + 1) ++ right.outline (depth + 1))
  | .variable name => [⟨depth, "Variable: " ++ name.lexeme⟩]
  | .assign name value => ⟨depth, "Assign: " ++ name.lexeme⟩ :: value.outline (depth + 1)
  | .missing => [⟨depth, unknown missingTypeName⟩]
  | .foreign typeName => [⟨depth, unknown typeName⟩]
where
  unknown (typeName : String) : String :=
    "Error pretty-printing AST, unknown expression type: " ++ typeName

def Stmt.unknownLabel (typeName : String) : String :=
  "Error pretty-printing AST, unknown statement type: " ++ typeName

mutual

def Stmt.outline (depth : Nat) : Stmt → List OutlineLine
  | .expression e => ⟨depth, "ExprStmt"⟩ :: e.outline (depth + 1)
  | .print e => ⟨depth, "Print"⟩ :: e.outline (depth + 1)
  | .declare name initial =>
    if initial.isMissing then [⟨depth, "Var " ++ name.lexeme⟩]
    else ⟨depth, "Var " ++ name.lexeme ++ " ="⟩ :: initial.outline (depth + 1)
  | .block body => ⟨depth, "Block"⟩ :: outlineAll (depth + 1) body
  | .conditional condition consequence alternative =>
    ⟨depth, "If"⟩ :: (condition.outline (depth + 1) ++ consequence.outline (depth + 1) ++
      (if alternative.isMissing then []
       else ⟨depth, "Else"⟩ :: alternative.outline (depth + 1)))
  | .loop condition body =>
    ⟨depth, "While"⟩ :: (condition.outline (depth + 1) ++ body.outline (depth + 1))
  | .missing => [⟨depth, unknownLabel missingTypeName⟩]
  | .foreign typeName => [⟨depth, unknownLabel typeName⟩]

def Stmt.outlineAll (depth : Nat) : List Stmt → List OutlineLine
  | [] => []
  | s :: rest => s.outline depth ++ outlineAll depth rest

end

/-- The whole outline as text. -/
def outline (program : List Stmt) : String :=
  String.join ((Stmt.outlineAll 0 program).map OutlineLine.render)

end Scriptlet
