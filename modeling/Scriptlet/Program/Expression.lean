import Scriptlet.Program.Parsed

/-!
Reading expressions. Assignment binds loosest and to the right. Below it are six levels of
operators that chain to the left, then the unary operators, then literals, names and
parentheses.
-/

namespace Scriptlet

/-- The levels of left-associative operators, from the loosest to the tightest. -/
inductive Level where
  | disjunction | conjunction | equality | comparison | term | factor
  deriving DecidableEq, Repr

namespace Level

def tighter? : Level → Option Level
  | .disjunction => some .conjunction
  | .conjunction => some .equality
  | .equality => some .comparison
  | .comparison => some .term
  | .term => some .factor
  | .factor => none

/-- Whether an operator joins operands of this level. -/
def joins : Level → TokenKind → Bool
  | .disjunction, .kwOr => true
  | .conjunction, .kwAnd => true
  | .equality, .bangEqual | .equality, .equalEqual => true
  | .comparison, .greater | .comparison, .greaterEqual
  | .comparison, .less | .comparison, .lessEqual => true
  | .term, .minus | .term, .plus => true
  | .factor, .slash | .factor, .star => true
  | _, _ => false

def node : Level → Expr → Token → Expr → Expr
  | .disjunction, left, op, right | .conjunction, left, op, right => .logical left op right
  | _, left, op, right => .binary left op right

/-- Levels that bind looser have a greater rank. -/
def rank : Level → Nat
  | .disjunction => 6
  | .conjunction => 5
  | .equality => 4
  | .comparison => 3
  | .term => 2
  | .factor => 1

theorem rank_tighter {l m : Level} (h : l.tighter? = some m) : m.rank < l.rank := by
  cases l <;> simp only [tighter?, Option.some.injEq, reduceCtorEq] at h <;> subst h <;> decide

end Level

/-- What an assignment to `target` reads as, with the report that it may call for. -/
def assignTo (target : Expr) (equals : Token) (value : Expr) : Expr × List SyntaxError :=
  match target with
  | .variable name => (.assign name value, [])
  | other => (other, [⟨equals, .invalidTarget⟩])

mutual

def assignment (s : List Token) : Parsed Expr s.length :=
  match chain .disjunction s with
  | .failed what rest reports h => .failed what rest reports h
  | .done target [] reports h => .done target [] reports h
  | .done target (t :: rest) reports h =>
    if t.kind = .equal then
      match assignment rest with
      | .failed what r more h' =>
        .failed what r (reports ++ more) (Tokens.le_of_cons_lt h h')
      | .done value r more h' =>
        .done (assignTo target t value).1 r (reports ++ more ++ (assignTo target t value).2)
          (Tokens.lt_of_cons_lt h h')
    else .done target (t :: rest) reports h
termination_by (s.length, 2 * Level.disjunction.rank + 2)
decreasing_by
  · exact Prod.Lex.right _ (by omega)
  · exact Prod.Lex.left _ _ (by simp only [List.length_cons] at h; omega)

/-- An operand of a level: a chain of the next level or, at the tightest, a unary expression. -/
def operand (l : Level) (s : List Token) : Parsed Expr s.length :=
  match _next : l.tighter? with
  | some m => chain m s
  | none => unary s
termination_by (s.length, 2 * l.rank)
decreasing_by
  · have := Level.rank_tighter _next
    apply Prod.Lex.right
    omega
  · apply Prod.Lex.right
    cases l <;> decide

/-- Operands of a level joined by its operators. -/
def chain (l : Level) (s : List Token) : Parsed Expr s.length :=
  match operand l s with
  | .failed what rest reports h => .failed what rest reports h
  | .done first rest reports h => (extend l first rest).after reports h
termination_by (s.length, 2 * l.rank + 1)

/-- Goes on with a chain whose operands so far make up `left`. -/
def extend (l : Level) (left : Expr) (s : List Token) : Parsed Expr (s.length + 1) :=
  match s with
  | [] => .done left [] [] Tokens.nil_lt_succ
  | op :: rest =>
    if l.joins op.kind then
      match operand l rest with
      | .failed what r reports h => .failed what r reports (Tokens.le_cons_succ op h)
      | .done right r reports h =>
        (extend l (l.node left op right) r).after reports (Tokens.succ_le_cons_succ op h)
    else .done left (op :: rest) [] (Tokens.cons_lt_succ op rest)
termination_by (s.length, 0)

def unary (s : List Token) : Parsed Expr s.length :=
  match s with
  | [] => .failed .expression [] [] Tokens.nil_le_nil
  | op :: rest =>
    if op.kind = .bang || op.kind = .minus then
      match unary rest with
      | .failed what r reports h => .failed what r reports (Tokens.le_cons_of_le op h)
      | .done e r reports h => .done (.unary op e) r reports (Tokens.lt_cons_of_lt op h)
    else primary op rest
termination_by (s.length, 1)

def primary (t : Token) (rest : List Token) : Parsed Expr (rest.length + 1) :=
  match t.kind with
  | .kwFalse => .done (.literal (.bool false)) rest [] (Tokens.lt_cons t rest)
  | .kwTrue => .done (.literal (.bool true)) rest [] (Tokens.lt_cons t rest)
  | .kwNil => .done (.literal .nil) rest [] (Tokens.lt_cons t rest)
  | .number | .string => .done (.literal t.literal) rest [] (Tokens.lt_cons t rest)
  | .identifier => .done (.variable t) rest [] (Tokens.lt_cons t rest)
  | .leftParen =>
    match assignment rest with
    | .failed what r reports h => .failed what r reports (Tokens.le_cons_of_le t h)
    | .done e r reports h =>
      ((expect .rightParen .parenAfterExpression r).map fun _ => Expr.grouping e).after reports
        (Tokens.le_cons_of_lt t h)
  | _ => .failed .expression (t :: rest) [] (Tokens.cons_le_cons t rest)
termination_by (rest.length + 1, 0)

end

/-- Reads an expression. -/
def expression (s : List Token) : Parsed Expr s.length :=
  assignment s

end Scriptlet
