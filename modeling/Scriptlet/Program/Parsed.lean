import Scriptlet.Program.SyntaxError
import Scriptlet.Program.Tree

/-!
Results of the grammar's rules. A rule that succeeds leaves fewer tokens than the bound, one that
fails stops in front of a token that it cannot use. Either may have reported errors that did not
stop it.
-/

namespace Scriptlet

/-! Lengths of token lists, as the rules compare them. -/

namespace Tokens

variable {r rest s : List Token}

theorem nil_le_nil : ([] : List Token).length ≤ ([] : List Token).length := Nat.le_refl _

theorem nil_lt_succ : ([] : List Token).length < ([] : List Token).length + 1 := Nat.lt_succ_self _

theorem nil_lt_cons (t : Token) (s : List Token) : ([] : List Token).length < (t :: s).length :=
  Nat.succ_pos _

theorem lt_cons (t : Token) (s : List Token) : s.length < (t :: s).length := Nat.lt_succ_self _

theorem le_cons (t : Token) (s : List Token) : s.length ≤ (t :: s).length := Nat.le_succ _

theorem cons_le_cons (t : Token) (s : List Token) : (t :: s).length ≤ (t :: s).length := Nat.le_refl _

theorem cons_lt_succ (t : Token) (s : List Token) : (t :: s).length < (t :: s).length + 1 :=
  Nat.lt_succ_self _

theorem le_cons_of_le (t : Token) (h : r.length ≤ s.length) : r.length ≤ (t :: s).length :=
  Nat.le_succ_of_le h

theorem lt_cons_of_lt (t : Token) (h : r.length < s.length) : r.length < (t :: s).length :=
  Nat.lt_succ_of_lt h

theorem le_cons_of_lt (t : Token) (h : r.length < s.length) : r.length ≤ (t :: s).length :=
  Nat.le_succ_of_le (Nat.le_of_lt h)

theorem le_cons_succ (t : Token) (h : r.length ≤ s.length) : r.length ≤ (t :: s).length + 1 :=
  Nat.le_succ_of_le (Nat.le_succ_of_le h)

theorem succ_le_cons_succ (t : Token) (h : r.length < s.length) :
    r.length + 1 ≤ (t :: s).length + 1 :=
  Nat.succ_le_succ (le_cons_of_lt t h)

theorem le_of_cons_lt {t : Token} (h : (t :: rest).length < s.length) (h' : r.length ≤ rest.length) :
    r.length ≤ s.length :=
  Nat.le_trans h' (Nat.le_of_lt (Nat.lt_of_succ_lt h))

theorem lt_of_cons_lt {t : Token} (h : (t :: rest).length < s.length) (h' : r.length < rest.length) :
    r.length < s.length :=
  Nat.lt_trans h' (Nat.lt_of_succ_lt h)

theorem le_cons_of_lt_of_le (t : Token) (h : rest.length < s.length) (h' : r.length ≤ rest.length) :
    r.length ≤ (t :: s).length :=
  Nat.le_trans h' (le_cons_of_lt t h)

theorem cons_lt_cons_of_lt (t : Token) {u : Token} (h : rest.length < s.length)
    (h' : (u :: r).length < rest.length) : (u :: r).length < (t :: s).length :=
  Nat.lt_trans h' (lt_cons_of_lt t h)

theorem le_cons_of_lt_of_cons_lt (t : Token) {u : Token} (h : rest.length < s.length)
    (h' : (u :: r).length < rest.length) : r.length ≤ (t :: s).length :=
  Nat.le_of_lt (Nat.lt_of_succ_lt (cons_lt_cons_of_lt t h h'))

end Tokens

inductive Parsed (α : Type) (bound : Nat) where
  | done (value : α) (rest : List Token) (reports : List SyntaxError)
      (shorter : rest.length < bound)
  | failed (what : Expectation) (rest : List Token) (reports : List SyntaxError)
      (within : rest.length ≤ bound)

namespace Parsed

variable {α β : Type} {bound wider : Nat}

/-- The same result under a wider bound, after earlier reports. -/
def after (reports : List SyntaxError) (p : Parsed α bound) (h : bound ≤ wider) :
    Parsed α wider :=
  match p with
  | .done value rest more shorter =>
    .done value rest (reports ++ more) (Nat.lt_of_lt_of_le shorter h)
  | .failed what rest more within =>
    .failed what rest (reports ++ more) (Nat.le_trans within h)

def map (f : α → β) : Parsed α bound → Parsed β bound
  | .done value rest reports shorter => .done (f value) rest reports shorter
  | .failed what rest reports within => .failed what rest reports within

/-- Goes on behind what a rule has read. -/
def andThen (p : Parsed α bound) (next : α → (rest : List Token) → Parsed β rest.length) :
    Parsed β bound :=
  match p with
  | .done value rest reports shorter => (next value rest).after reports (Nat.le_of_lt shorter)
  | .failed what rest reports within => .failed what rest reports within

end Parsed

/-- Reads one token of the given kind. -/
def expect (kind : TokenKind) (what : Expectation) : (s : List Token) → Parsed Token s.length
  | [] => .failed what [] [] Tokens.nil_le_nil
  | t :: rest =>
    if t.kind = kind then .done t rest [] (Tokens.lt_cons t rest)
    else .failed what (t :: rest) [] (Tokens.cons_le_cons t rest)

end Scriptlet
