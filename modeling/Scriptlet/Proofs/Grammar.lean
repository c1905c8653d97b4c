import Scriptlet.Token.Kind

/-!
The grammar of the language as a table of rules, and the words of token kinds that it derives. The
grammar is ambiguous: an `else` behind two conditionals may belong to either.
-/

namespace Scriptlet.Grammar

inductive Rule where
  | program | declaration | variableDeclaration
  | statement | expressionStatement | printStatement | block | ifStatement | whileStatement
  | forStatement
  | expression | assignment | disjunction | conjunction | equality | comparison | term | factor
  | unary | primary
  deriving DecidableEq, Repr

/-- The right side of a rule. -/
inductive Pattern where
  | token (k : TokenKind)
  | rule (r : Rule)
  | seq (a b : Pattern)
  | alt (a b : Pattern)
  | many (a : Pattern)
  | optional (a : Pattern)

namespace Pattern

instance : Append Pattern := ⟨seq⟩

instance : OrOp Pattern := ⟨alt⟩

instance : Coe TokenKind Pattern := ⟨token⟩

instance : Coe Rule Pattern := ⟨rule⟩

end Pattern

open TokenKind in
/-- The rules. The end token is not part of a program. -/
def Rule.pattern : Rule → Pattern
  | program => .many declaration
  | declaration => variableDeclaration ||| statement
  | variableDeclaration =>
      kwVar ++ identifier ++ .optional (equal ++ expression) ++ semicolon
  | statement =>
      expressionStatement ||| printStatement ||| block ||| ifStatement ||| whileStatement |||
        forStatement
  | expressionStatement => expression ++ semicolon
  | printStatement => kwPrint ++ expression ++ semicolon
  | block => leftBrace ++ .many declaration ++ rightBrace
  | ifStatement =>
      kwIf ++ leftParen ++ expression ++ rightParen ++ statement ++
        .optional (kwElse ++ statement)
  | whileStatement => kwWhile ++ leftParen ++ expression ++ rightParen ++ statement
  | forStatement =>
      kwFor ++ leftParen ++ (variableDeclaration ||| expressionStatement ||| semicolon) ++
        .optional expression ++ semicolon ++ .optional expression ++ rightParen ++ statement
  | expression => assignment
  | assignment => identifier ++ equal ++ assignment ||| disjunction
  | disjunction => conjunction ++ .many (kwOr ++ conjunction)
  | conjunction => equality ++ .many (kwAnd ++ equality)
  | equality => comparison ++ .many ((bangEqual ||| equalEqual) ++ comparison)
  | comparison => term ++ .many ((greater ||| greaterEqual ||| less ||| lessEqual) ++ term)
  | term => factor ++ .many ((minus ||| plus) ++ factor)
  | factor => unary ++ .many ((slash ||| star) ++ unary)
  | unary => (bang ||| minus) ++ unary ||| primary
  | primary =>
      kwTrue ||| kwFalse ||| kwNil ||| number ||| string ||| identifier |||
        leftParen ++ expression ++ rightParen

/-- The words that a pattern derives. -/
inductive Derives : Pattern → List TokenKind → Prop where
  | token (k : TokenKind) : Derives (.token k) [k]
  | rule {r : Rule} {w : List TokenKind} (h : Derives r.pattern w) : Derives (.rule r) w
  | seq {a b : Pattern} {v w : List TokenKind} (h : Derives a v) (h' : Derives b w) :
      Derives (.seq a b) (v ++ w)
  | left {a b : Pattern} {w : List TokenKind} (h : Derives a w) : Derives (.alt a b) w
  | right {a b : Pattern} {w : List TokenKind} (h : Derives b w) : Derives (.alt a b) w
  | manyNil {a : Pattern} : Derives (.many a) []
  | manyCons {a : Pattern} {v w : List TokenKind} (h : Derives a v) (h' : Derives (.many a) w) :
      Derives (.many a) (v ++ w)
  | absent {a : Pattern} : Derives (.optional a) []
  | present {a : Pattern} {w : List TokenKind} (h : Derives a w) : Derives (.optional a) w

theorem Derives.of_eq {a : Pattern} {v w : List TokenKind} (h : Derives a v) (e : v = w) :
    Derives a w :=
  e ▸ h

end Scriptlet.Grammar
