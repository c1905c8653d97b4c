import Scriptlet.Program.Statement

/-!
Derivations of the grammar as trees that keep every token. A derivation stands for a syntax tree,
and reading its tokens from left to right gives the word that it derives. In a derivation of the
nearest-else kind no `else` could belong to a conditional closer to it.
-/

namespace Scriptlet.Derivation

/-- A token of a given kind. -/
abbrev Leaf (k : TokenKind) := { t : Token // t.kind = k }

def isConstant : TokenKind → Bool
  | .kwTrue | .kwFalse | .kwNil | .number | .string => true
  | _ => false

/-- The value that a constant stands for: numbers and strings carry theirs. -/
def constantValue (t : Token) : Literal :=
  match t.kind with
  | .kwTrue => .bool true
  | .kwFalse => .bool false
  | .kwNil => .nil
  | _ => t.literal

mutual

inductive Assignment where
  | assign (name : Leaf .identifier) (equals : Leaf .equal) (value : Assignment)
  | operators (e : Operators (some .disjunction))

/-- A chain of a level of operators or, where no level is left, a unary expression. -/
inductive Operators : Option Level → Type where
  | chain {l : Level} (first : Operators l.tighter?) (links : Links l) : Operators (some l)
  | prefixed (op : { t : Token // t.kind = .bang ∨ t.kind = .minus }) (operand : Operators none) :
      Operators none
  | constant (t : { t : Token // isConstant t.kind = true }) : Operators none
  | name (t : Leaf .identifier) : Operators none
  | group (opening : Leaf .leftParen) (inner : Assignment) (closing : Leaf .rightParen) :
      Operators none

/-- The operators of a chain, each with its right operand. -/
inductive Links : Level → Type where
  | nil {l : Level} : Links l
  | cons {l : Level} (op : { t : Token // l.joins t.kind = true })
      (right : Operators l.tighter?) (links : Links l) : Links l

end

/-- The node of an operator between two operands. -/
def operation (left : Expr) (op : Token) (right : Expr) : Expr :=
  match op.kind with
  | .kwAnd | .kwOr => .logical left op right
  | _ => .binary left op right

mutual

def Assignment.tokens : Assignment → List Token
  | .assign name equals value => name.1 :: equals.1 :: value.tokens
  | .operators e => e.tokens

def Operators.tokens {o : Option Level} : Operators o → List Token
  | .chain first links => first.tokens ++ links.tokens
  | .prefixed op operand => op.1 :: operand.tokens
  | .constant t => [t.1]
  | .name t => [t.1]
  | .group opening inner closing => opening.1 :: (inner.tokens ++ [closing.1])

def Links.tokens {l : Level} : Links l → List Token
  | .nil => []
  | .cons op right links => op.1 :: (right.tokens ++ links.tokens)

end

mutual

def Assignment.tree : Assignment → Expr
  | .assign name _ value => .assign name.1 value.tree
  | .operators e => e.tree

def Operators.tree {o : Option Level} : Operators o → Expr
  | .chain first links => links.tree first.tree
  | .prefixed op operand => .unary op.1 operand.tree
  | .constant t => .literal (constantValue t.1)
  | .name t => .variable t.1
  | .group _ inner _ => .grouping inner.tree

/-- A chain groups to the left: `left` is what stands in front of the links. -/
def Links.tree {l : Level} : Links l → Expr → Expr
  | .nil, left => left
  | .cons op right links, left => links.tree (operation left op.1 right.tree)

end

structure VariableDeclaration where
  keyword : Leaf .kwVar
  name : Leaf .identifier
  initial : Option (Leaf .equal × Assignment)
  semicolon : Leaf .semicolon

namespace VariableDeclaration

def tokens (d : VariableDeclaration) : List Token :=
  d.keyword.1 :: d.name.1 ::
    ((d.initial.elim [] fun (equals, e) => equals.1 :: e.tokens) ++ [d.semicolon.1])

def tree (d : VariableDeclaration) : Stmt :=
  .declare d.name.1 (d.initial.elim .missing fun (_, e) => e.tree)

end VariableDeclaration

/-- A keyword and the condition in parentheses behind it. -/
structure Condition (k : TokenKind) where
  keyword : Leaf k
  opening : Leaf .leftParen
  test : Assignment
  closing : Leaf .rightParen

def Condition.tokens {k : TokenKind} (c : Condition k) : List Token :=
  c.keyword.1 :: c.opening.1 :: (c.test.tokens ++ [c.closing.1])

inductive ForInitial where
  | declaration (d : VariableDeclaration)
  | expression (e : Assignment) (semicolon : Leaf .semicolon)
  | absent (semicolon : Leaf .semicolon)

namespace ForInitial

def tokens : ForInitial → List Token
  | .declaration d => d.tokens
  | .expression e semicolon => e.tokens ++ [semicolon.1]
  | .absent semicolon => [semicolon.1]

def tree? : ForInitial → Option Stmt
  | .declaration d => some d.tree
  | .expression e _ => some (.expression e.tree)
  | .absent _ => none

end ForInitial

structure ForHead where
  keyword : Leaf .kwFor
  opening : Leaf .leftParen
  initial : ForInitial
  condition : Option Assignment
  semicolon : Leaf .semicolon
  increment : Option Assignment
  closing : Leaf .rightParen

namespace ForHead

def tokens (h : ForHead) : List Token :=
  h.keyword.1 :: h.opening.1 :: (h.initial.tokens ++ (h.condition.elim [] Assignment.tokens ++
    h.semicolon.1 :: (h.increment.elim [] Assignment.tokens ++ [h.closing.1])))

/-- What a loop with this head stands for: `{ initial while (condition) { body increment; } }`, where
a condition that is left out is true and other clauses that are left out leave nothing. -/
def loop (h : ForHead) (body : Stmt) : Stmt :=
  let round := h.increment.elim body fun e => .block [body, .expression e.tree]
  let loop := Stmt.loop (h.condition.elim (.literal (.bool true)) Assignment.tree) round
  h.initial.tree?.elim loop fun first => .block [first, loop]

end ForHead

mutual

inductive Statement where
  | expression (e : Assignment) (semicolon : Leaf .semicolon)
  | print (keyword : Leaf .kwPrint) (e : Assignment) (semicolon : Leaf .semicolon)
  | block (opening : Leaf .leftBrace) (body : Declarations) (closing : Leaf .rightBrace)
  | ifThen (head : Condition .kwIf) (consequence : Statement)
  | ifElse (head : Condition .kwIf) (consequence : Statement) (separator : Leaf .kwElse)
      (alternative : Statement)
  | whileLoop (head : Condition .kwWhile) (body : Statement)
  | forLoop (head : ForHead) (body : Statement)

inductive Declarations where
  | nil
  | declare (d : VariableDeclaration) (rest : Declarations)
  | statement (s : Statement) (rest : Declarations)

end

mutual

def Statement.tokens : Statement → List Token
  | .expression e semicolon => e.tokens ++ [semicolon.1]
  | .print keyword e semicolon => keyword.1 :: (e.tokens ++ [semicolon.1])
  | .block opening body closing => opening.1 :: (body.tokens ++ [closing.1])
  | .ifThen head consequence => head.tokens ++ consequence.tokens
  | .ifElse head consequence separator alternative =>
      head.tokens ++ (consequence.tokens ++ separator.1 :: alternative.tokens)
  | .whileLoop head body => head.tokens ++ body.tokens
  | .forLoop head body => head.tokens ++ body.tokens

def Declarations.tokens : Declarations → List Token
  | .nil => []
  | .declare d rest => d.tokens ++ rest.tokens
  | .statement s rest => s.tokens ++ rest.tokens

end

mutual

def Statement.tree : Statement → Stmt
  | .expression e _ => .expression e.tree
  | .print _ e _ => .print e.tree
  | .block _ body _ => .block body.program
  | .ifThen head consequence => .conditional head.test.tree consequence.tree .missing
  | .ifElse head consequence _ alternative =>
      .conditional head.test.tree consequence.tree alternative.tree
  | .whileLoop head body => .loop head.test.tree body.tree
  | .forLoop head body => head.loop body.tree

def Declarations.program : Declarations → List Stmt
  | .nil => []
  | .declare d rest => d.tree :: rest.program
  | .statement s rest => s.tree :: rest.program

end

/-- Whether a statement ends with a conditional that could still take an `else`. -/
def Statement.endsOpen : Statement → Bool
  | .expression .. | .print .. | .block .. => false
  | .ifThen .. => true
  | .ifElse _ _ _ s | .whileLoop _ s | .forLoop _ s => s.endsOpen

mutual

/-- Every `else` belongs to the nearest conditional that can still take one: none stands behind a
statement that could have taken it. -/
def Statement.NearestElse : Statement → Prop
  | .expression .. | .print .. => True
  | .block _ body _ => body.NearestElse
  | .ifThen _ s | .whileLoop _ s | .forLoop _ s => s.NearestElse
  | .ifElse _ consequence _ alternative =>
      consequence.endsOpen = false ∧ consequence.NearestElse ∧ alternative.NearestElse

def Declarations.NearestElse : Declarations → Prop
  | .nil => True
  | .declare _ rest => rest.NearestElse
  | .statement s rest => s.NearestElse ∧ rest.NearestElse

end

end Scriptlet.Derivation
