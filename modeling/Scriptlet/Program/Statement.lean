import Scriptlet.Program.Expression

/-!
Reading statements. A declaration that cannot be read is reported and left out, and reading goes
on behind the next semicolon or in front of the next word that starts a statement. The end of the
token list is the first end token; nothing behind it is looked at.
-/

namespace Scriptlet

/-- The error of a rule that stopped in front of `rest`, where `stop` ends the list. -/
def errorAt (stop : Token) (what : Expectation) (rest : List Token) : SyntaxError :=
  ⟨rest.head?.getD stop, .expected what⟩

def startsStatement : TokenKind → Bool
  | .kwClass | .kwFun | .kwVar | .kwFor | .kwIf | .kwWhile | .kwPrint | .kwReturn => true
  | _ => false

/-- Skips on behind `previous` up to a place where a statement probably starts. -/
def skipTo (previous : Token) : List Token → List Token
  | [] => []
  | t :: rest =>
    if previous.kind = .semicolon || startsStatement t.kind then t :: rest
    else skipTo t rest

/-- Where reading goes on after it failed in front of the given tokens. -/
def recover : List Token → List Token
  | [] => []
  | t :: rest => skipTo t rest

theorem length_skipTo_le (previous : Token) (s : List Token) :
    (skipTo previous s).length ≤ s.length := by
  induction s generalizing previous with
  | nil => simp [skipTo]
  | cons t rest ih =>
    simp only [skipTo]
    split
    · exact Nat.le_refl _
    · exact Nat.le_succ_of_le (ih t)

/-- Recovery skips at least one token, so reading goes on with fewer than it started with. -/
theorem length_recover_lt {t : Token} {rest s : List Token} (h : s.length ≤ (t :: rest).length) :
    (recover s).length < (t :: rest).length := by
  cases s with
  | nil => exact Nat.succ_pos _
  | cons u r =>
    have := length_skipTo_le u r
    simp only [recover, List.length_cons] at h ⊢
    omega

/-- An expression and the semicolon behind it. -/
def terminated (what : Expectation) (s : List Token) : Parsed Expr s.length :=
  (expression s).andThen fun e rest => (expect .semicolon what rest).map fun _ => e

def expressionStatement (s : List Token) : Parsed Stmt s.length :=
  (terminated .semicolonAfterExpression s).map .expression

/-- The rest of a declaration, behind `var`. -/
def variableDeclaration (s : List Token) : Parsed Stmt s.length :=
  (expect .identifier .variableName s).andThen fun name rest =>
    match rest with
    | t :: rest =>
      if t.kind = .equal then
        ((terminated .semicolonAfterDeclaration rest).map (Stmt.declare name)).after []
          (Tokens.le_cons t rest)
      else
        (expect .semicolon .semicolonAfterDeclaration (t :: rest)).map fun _ =>
          .declare name .missing
    | [] => .failed .semicolonAfterDeclaration [] [] Tokens.nil_le_nil

/-- A condition in parentheses. -/
def condition (what : Expectation) (s : List Token) : Parsed Expr s.length :=
  (expect .leftParen what s).andThen fun _ rest =>
    (expression rest).andThen fun e rest =>
      (expect .rightParen .parenAfterCondition rest).map fun _ => e

/-- The clauses of a `for` statement; each may be left out. -/
structure ForClauses where
  initial : Stmt
  condition : Expr
  increment : Expr

/-- A `for` statement is a loop in a block: the increment is run after the body, and what the first
clause declares is gone behind the loop. A condition that is left out holds. -/
def ForClauses.loop (clauses : ForClauses) (body : Stmt) : Stmt :=
  let body :=
    if clauses.increment.isMissing then body else .block [body, .expression clauses.increment]
  let condition :=
    if clauses.condition.isMissing then .literal (.bool true) else clauses.condition
  let loop := .loop condition body
  if clauses.initial.isMissing then loop else .block [clauses.initial, loop]

def forInitial (s : List Token) : Parsed Stmt s.length :=
  match s with
  | [] => expressionStatement []
  | t :: rest =>
    match t.kind with
    | .semicolon => .done .missing rest [] (Tokens.lt_cons t rest)
    | .kwVar => (variableDeclaration rest).after [] (Tokens.le_cons t rest)
    | _ => expressionStatement (t :: rest)

/-- An expression that may be left out, and the token that closes its place. -/
def clause (closing : TokenKind) (what : Expectation) (s : List Token) : Parsed Expr s.length :=
  match s with
  | [] => expression []
  | t :: rest =>
    if t.kind = closing then .done .missing rest [] (Tokens.lt_cons t rest)
    else
      (expression (t :: rest)).andThen fun e rest => (expect closing what rest).map fun _ => e

def forClauses (s : List Token) : Parsed ForClauses s.length :=
  (expect .leftParen .parenAfterFor s).andThen fun _ rest =>
    (forInitial rest).andThen fun initial rest =>
      (clause .semicolon .semicolonAfterLoopCondition rest).andThen fun condition rest =>
        (clause .rightParen .parenAfterForClauses rest).map fun increment =>
          ⟨initial, condition, increment⟩

/-- Declarations read one after another. -/
structure Declarations (bound : Nat) where
  program : List Stmt
  rest : List Token
  reports : List SyntaxError
  within : rest.length ≤ bound

namespace Declarations

theorem within_cons {s : List Token} (d : Declarations s.length) (t : Token) :
    d.rest.length ≤ (t :: s).length :=
  Nat.le_succ_of_le d.within

/-- The same declarations behind those in front of them. -/
def after {bound wider : Nat} (front : List Stmt) (reports : List SyntaxError)
    (d : Declarations bound) (h : bound < wider) : Declarations wider :=
  ⟨front ++ d.program, d.rest, reports ++ d.reports, Nat.le_trans d.within (Nat.le_of_lt h)⟩

end Declarations

mutual

def statement (stop : Token) (s : List Token) : Parsed Stmt s.length :=
  match s with
  | [] => expressionStatement []
  | t :: rest =>
    match t.kind with
    | .kwFor =>
      match forClauses rest with
      | .failed what r reports h => .failed what r reports (Tokens.le_cons_of_le t h)
      | .done clauses r reports h =>
        ((statement stop r).map clauses.loop).after reports (Tokens.le_cons_of_lt t h)
    | .kwIf =>
      match condition .parenAfterIf rest with
      | .failed what r reports h => .failed what r reports (Tokens.le_cons_of_le t h)
      | .done test r reports h =>
        match statement stop r with
        | .failed what r' more h' =>
          .failed what r' (reports ++ more) (Tokens.le_cons_of_lt_of_le t h h')
        | .done consequence [] more _ =>
          .done (.conditional test consequence .missing) [] (reports ++ more)
            (Tokens.nil_lt_cons t rest)
        | .done consequence (u :: r') more h' =>
          if u.kind = .kwElse then
            ((statement stop r').map fun alternative =>
                .conditional test consequence alternative).after (reports ++ more)
              (Tokens.le_cons_of_lt_of_cons_lt t h h')
          else
            .done (.conditional test consequence .missing) (u :: r') (reports ++ more)
              (Tokens.cons_lt_cons_of_lt t h h')
    | .kwPrint =>
      ((terminated .semicolonAfterValue rest).map Stmt.print).after [] (Tokens.le_cons t rest)
    | .kwWhile =>
      match condition .parenAfterWhile rest with
      | .failed what r reports h => .failed what r reports (Tokens.le_cons_of_le t h)
      | .done test r reports h =>
        ((statement stop r).map fun body => .loop test body).after reports
          (Tokens.le_cons_of_lt t h)
    | .leftBrace =>
      let inner := declarations stop true rest
      ((expect .rightBrace .braceAfterBlock inner.rest).map fun _ =>
          .block inner.program).after inner.reports (inner.within_cons t)
    | _ => expressionStatement (t :: rest)
termination_by (s.length, 0)
decreasing_by
  · exact Prod.Lex.left _ _ (by simp only [List.length_cons]; omega)
  · exact Prod.Lex.left _ _ (by simp only [List.length_cons]; omega)
  · exact Prod.Lex.left _ _ (by simp only [List.length_cons] at h' ⊢; omega)
  · exact Prod.Lex.left _ _ (by simp only [List.length_cons]; omega)
  · exact Prod.Lex.left _ _ (by simp only [List.length_cons]; omega)

def declaration (stop : Token) (s : List Token) : Parsed Stmt s.length :=
  match s with
  | [] => statement stop []
  | t :: rest =>
    if t.kind = .kwVar then (variableDeclaration rest).after [] (Tokens.le_cons t rest)
    else statement stop (t :: rest)
termination_by (s.length, 1)

/-- Reads declarations up to the end, in a block only up to its closing brace. -/
def declarations (stop : Token) (inBlock : Bool) (s : List Token) : Declarations s.length :=
  match s with
  | [] => ⟨[], [], [], Tokens.nil_le_nil⟩
  | t :: rest =>
    if inBlock && t.kind = .rightBrace then ⟨[], t :: rest, [], Tokens.cons_le_cons t rest⟩
    else
      match declaration stop (t :: rest) with
      | .done d r reports h => (declarations stop inBlock r).after [d] reports h
      | .failed what r reports h =>
        (declarations stop inBlock (recover r)).after [] (reports ++ [errorAt stop what r])
          (length_recover_lt h)
termination_by (s.length, 2)
decreasing_by
  · exact Prod.Lex.right _ (by omega)
  · exact Prod.Lex.left _ _ h
  · exact Prod.Lex.left _ _ (length_recover_lt h)

end

/-- What reading a token list gives. A program with errors is not meant to be run. -/
structure Reading where
  program : List Stmt
  errors : List SyntaxError

/-- The token that ends a list: its first end token or, if it has none, one on the line of its last
token. -/
def endToken (tokens : List Token) : Token :=
  (tokens.find? (·.kind = .endOfFile)).getD
    ⟨.endOfFile, "", .nil, (tokens.getLast?.map Token.line).getD 1⟩

def parse (tokens : List Token) : Reading :=
  let read :=
    declarations (endToken tokens) false (tokens.takeWhile (·.kind ≠ .endOfFile))
  ⟨read.program, read.reports⟩

end Scriptlet
