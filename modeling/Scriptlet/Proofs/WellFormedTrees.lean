import Scriptlet.Proofs.ErrorFreeReading

/-!
Every tree that the parser returns is well-formed, with errors or without: nothing is missing but
the initial value of a variable and the alternative of a conditional, a branch or a loop body is
never a bare declaration, and all operators, names and literals come from the tokens read.
-/

namespace Scriptlet

def isBinaryOperator : TokenKind → Bool
  | .equalEqual | .bangEqual | .greater | .greaterEqual | .less | .lessEqual
  | .minus | .plus | .slash | .star => true
  | _ => false

/-- The literals that tokens may stand for. -/
inductive Literal.ComesFrom (T : Token → Prop) : Literal → Prop where
  | nil : ComesFrom T .nil
  | bool (b : Bool) : ComesFrom T (.bool b)
  | token {t : Token} (h : T t) (hk : t.kind = .number ∨ t.kind = .string) : ComesFrom T t.literal

def Expr.WellFormed (T : Token → Prop) : Expr → Prop
  | .literal v => v.ComesFrom T
  | .grouping e => e.WellFormed T
  | .unary op e => (op.kind = .bang ∨ op.kind = .minus) ∧ T op ∧ e.WellFormed T
  | .binary left op right =>
      isBinaryOperator op.kind = true ∧ T op ∧ left.WellFormed T ∧ right.WellFormed T
  | .logical left op right =>
      (op.kind = .kwAnd ∨ op.kind = .kwOr) ∧ T op ∧ left.WellFormed T ∧ right.WellFormed T
  | .variable name => name.kind = .identifier ∧ T name
  | .assign name e => name.kind = .identifier ∧ T name ∧ e.WellFormed T
  | .missing | .foreign _ => False

def Stmt.isDeclaration : Stmt → Bool
  | .declare .. => true
  | _ => false

mutual

def Stmt.WellFormed (T : Token → Prop) : Stmt → Prop
  | .expression e | .print e => e.WellFormed T
  | .declare name e => name.kind = .identifier ∧ T name ∧ (e = .missing ∨ e.WellFormed T)
  | .block body => WellFormedProgram T body
  | .conditional e s s' =>
      e.WellFormed T ∧ (s.isDeclaration = false ∧ s.WellFormed T) ∧
        (s' = .missing ∨ s'.isDeclaration = false ∧ s'.WellFormed T)
  | .loop e s => e.WellFormed T ∧ s.isDeclaration = false ∧ s.WellFormed T
  | .missing | .foreign _ => False

def WellFormedProgram (T : Token → Prop) : List Stmt → Prop
  | [] => True
  | s :: rest => s.WellFormed T ∧ WellFormedProgram T rest

end

/-- A statement that may stand as a branch or a loop body. -/
def Stmt.IsBranch (T : Token → Prop) (s : Stmt) : Prop :=
  s.isDeclaration = false ∧ s.WellFormed T

theorem WellFormedProgram.forall_mem {T : Token → Prop} {program : List Stmt}
    (h : WellFormedProgram T program) : ∀ s ∈ program, s.WellFormed T := by
  induction program with
  | nil => exact List.forall_mem_nil _
  | cons s rest ih => exact List.forall_mem_cons.mpr ⟨h.1, ih h.2⟩

theorem wellFormedProgram_append {T : Token → Prop} {front back : List Stmt}
    (h : WellFormedProgram T front) (h' : WellFormedProgram T back) :
    WellFormedProgram T (front ++ back) := by
  induction front with
  | nil => exact h'
  | cons s front ih => exact ⟨h.1, ih h.2⟩

/-- All tokens of a list satisfy `T`. -/
abbrev AllTokens (T : Token → Prop) (s : List Token) : Prop := ∀ t ∈ s, T t

/-- All errors are located at tokens that satisfy `T`. -/
abbrev Located (T : Token → Prop) (reports : List SyntaxError) : Prop := ∀ e ∈ reports, T e.token

theorem located_nil {T : Token → Prop} : Located T [] :=
  fun _ he => by cases he

namespace Parsed

variable {α β : Type} {bound wider : Nat} {T : Token → Prop} {P : α → Prop} {Q : β → Prop}

/-- The value satisfies `P`, and all tokens that are left or reported satisfy `T`. -/
def Within (T : Token → Prop) (P : α → Prop) : Parsed α bound → Prop
  | .done value rest reports _ => P value ∧ AllTokens T rest ∧ Located T reports
  | .failed _ rest reports _ => AllTokens T rest ∧ Located T reports

theorem Within.after {p : Parsed α bound} (h : p.Within T P) {reports : List SyntaxError}
    (hr : Located T reports) (hb : bound ≤ wider) : (p.after reports hb).Within T P := by
  cases p with
  | done v r more shorter =>
      exact ⟨h.1, h.2.1, List.forall_mem_append.mpr ⟨hr, h.2.2⟩⟩
  | failed what r more within => exact ⟨h.1, List.forall_mem_append.mpr ⟨hr, h.2⟩⟩

theorem Within.map {p : Parsed α bound} (h : p.Within T P) {f : α → β}
    (hf : ∀ v, P v → Q (f v)) : (p.map f).Within T Q := by
  cases p with
  | done v r more shorter => exact ⟨hf v h.1, h.2⟩
  | failed what r more within => exact h

theorem Within.imp {p : Parsed α bound} {P' : α → Prop} (h : p.Within T P)
    (hp : ∀ v, P v → P' v) : p.Within T P' := by
  cases p with
  | done v r more shorter => exact ⟨hp v h.1, h.2⟩
  | failed what r more within => exact h

theorem Within.andThen {p : Parsed α bound} (h : p.Within T P)
    {next : α → (rest : List Token) → Parsed β rest.length}
    (hn : ∀ v rest, P v → AllTokens T rest → (next v rest).Within T Q) :
    (p.andThen next).Within T Q := by
  cases p with
  | done v r more shorter => exact (hn v r h.1 h.2.1).after h.2.2 (Nat.le_of_lt shorter)
  | failed what r more within => exact h

end Parsed

theorem expect_within {T : Token → Prop} {k : TokenKind} {what : Expectation} {s : List Token}
    (h : AllTokens T s) :
    (expect k what s).Within T fun t => t.kind = k ∧ T t := by
  cases s with
  | nil => exact ⟨h, located_nil⟩
  | cons t r =>
      obtain ⟨ht, hr⟩ := List.forall_mem_cons.mp h
      simp only [expect]
      split
      · next hk => exact ⟨⟨hk, ht⟩, hr, located_nil⟩
      · exact ⟨h, located_nil⟩

theorem node_wellFormed {T : Token → Prop} {l : Level} {left right : Expr} {op : Token}
    (hop : l.joins op.kind = true) (ht : T op) (hl : left.WellFormed T)
    (hr : right.WellFormed T) : (l.node left op right).WellFormed T := by
  cases l <;> cases hk : op.kind <;> simp only [hk, Level.joins, reduceCtorEq] at hop <;>
    simp [Level.node, Expr.WellFormed, isBinaryOperator, hk, ht, hl, hr]

theorem assignTo_within {T : Token → Prop} {target value : Expr} {t : Token} (ht : T t)
    (h : target.WellFormed T) (hv : value.WellFormed T) :
    (assignTo target t value).1.WellFormed T ∧ Located T (assignTo target t value).2 := by
  unfold assignTo
  split
  · exact ⟨⟨h.1, h.2, hv⟩, located_nil⟩
  · exact ⟨h, List.forall_mem_singleton.mpr ht⟩

section Expressions

variable {T : Token → Prop}

mutual

theorem assignment_within (s : List Token) (h : AllTokens T s) :
    (assignment s).Within T (Expr.WellFormed T) := by
  have hlevel := level_within (some .disjunction) s h
  rw [level] at hlevel
  rw [assignment]
  cases hc : chain .disjunction s with
  | failed what r reports hb =>
      rw [hc] at hlevel
      exact hlevel
  | done target r reports hb =>
      rw [hc] at hlevel
      obtain ⟨htarget, hrest, hreports⟩ := hlevel
      cases r with
      | nil => exact ⟨htarget, hrest, hreports⟩
      | cons t r =>
          simp only
          split
          · have hr : r.length < s.length := Nat.lt_of_succ_lt hb
            obtain ⟨ht, hrest⟩ := List.forall_mem_cons.mp hrest
            have hvalue := assignment_within r hrest
            cases ha : assignment r with
            | failed what r' more hb' =>
                rw [ha] at hvalue
                exact ⟨hvalue.1, List.forall_mem_append.mpr ⟨hreports, hvalue.2⟩⟩
            | done value r' more hb' =>
                rw [ha] at hvalue
                obtain ⟨hv, hr', hmore⟩ := hvalue
                obtain ⟨htree, hlast⟩ := assignTo_within ht htarget hv
                exact ⟨htree, hr', List.forall_mem_append.mpr
                  ⟨List.forall_mem_append.mpr ⟨hreports, hmore⟩, hlast⟩⟩
          · exact ⟨htarget, hrest, hreports⟩
termination_by (s.length, 8)
decreasing_by
  · exact Prod.Lex.right _ (by decide)
  · exact Prod.Lex.left _ _ hr

theorem level_within (o : Option Level) (s : List Token) (h : AllTokens T s) :
    (level o s).Within T (Expr.WellFormed T) := by
  match o, s with
  | some l, s =>
      have hfirst := level_within l.tighter? s h
      rw [level, chain, operand_eq_level]
      cases hl : level l.tighter? s with
      | failed what r reports hb =>
          rw [hl] at hfirst
          exact hfirst
      | done first r reports hb =>
          rw [hl] at hfirst
          exact (extend_within l first r hfirst.1 hfirst.2.1).after hfirst.2.2 _
  | none, [] =>
      rw [level, unary]
      exact ⟨h, located_nil⟩
  | none, t :: s =>
      obtain ⟨ht, hs⟩ := List.forall_mem_cons.mp h
      rw [level, unary]
      split
      · next hop =>
        have hop : t.kind = .bang ∨ t.kind = .minus := by simpa using hop
        have hinner := level_within none s hs
        rw [level] at hinner
        cases hu : unary s with
        | failed what r reports hb =>
            rw [hu] at hinner
            exact hinner
        | done e r reports hb =>
            rw [hu] at hinner
            exact ⟨⟨hop, ht, hinner.1⟩, hinner.2⟩
      · exact primary_within t s ht hs
termination_by (s.length, o.elim 0 Level.rank + 1)
decreasing_by
  · exact Prod.Lex.right _ (Nat.succ_lt_succ (rank_tighter_lt l))
  · exact Prod.Lex.left _ _ hb
  · exact Prod.Lex.right _ Nat.zero_lt_one
  · exact Prod.Lex.left _ _ (Nat.lt_succ_self _)

theorem extend_within (l : Level) (left : Expr) (s : List Token) (hl : left.WellFormed T)
    (h : AllTokens T s) : (extend l left s).Within T (Expr.WellFormed T) := by
  match s with
  | [] =>
      rw [extend]
      exact ⟨hl, h, located_nil⟩
  | op :: s =>
      obtain ⟨hop, hs⟩ := List.forall_mem_cons.mp h
      rw [extend, operand_eq_level]
      split
      · next hjoins =>
        have hright := level_within l.tighter? s hs
        cases hv : level l.tighter? s with
        | failed what r reports hb =>
            rw [hv] at hright
            exact hright
        | done right r reports hb =>
            rw [hv] at hright
            obtain ⟨hr, hrest, hreports⟩ := hright
            have hnode := node_wellFormed hjoins hop hl hr
            exact (extend_within l _ r hnode hrest).after hreports _
      · exact ⟨hl, h, located_nil⟩
termination_by (s.length, 0)
decreasing_by
  · exact Prod.Lex.left _ _ (Nat.lt_succ_self _)
  · exact Prod.Lex.left _ _ (Nat.lt_succ_of_lt hb)

theorem primary_within (t : Token) (s : List Token) (ht : T t) (h : AllTokens T s) :
    (primary t s).Within T (Expr.WellFormed T) := by
  rw [primary]
  split
  case h_7 =>
    have hinner := assignment_within s h
    cases ha : assignment s with
    | failed what r reports hb =>
        rw [ha] at hinner
        exact hinner
    | done e r reports hb =>
        rw [ha] at hinner
        obtain ⟨he, hrest, hreports⟩ := hinner
        have hgroup : ∀ t, t.kind = .rightParen ∧ T t → (Expr.grouping e).WellFormed T :=
          fun _ _ => he
        exact ((expect_within hrest).map hgroup).after hreports _
  case h_8 => exact ⟨List.forall_mem_cons.mpr ⟨ht, h⟩, located_nil⟩
  case h_1 => exact ⟨.bool false, h, located_nil⟩
  case h_2 => exact ⟨.bool true, h, located_nil⟩
  case h_3 => exact ⟨.nil, h, located_nil⟩
  case h_4 hk => exact ⟨.token ht (.inl hk), h, located_nil⟩
  case h_5 hk => exact ⟨.token ht (.inr hk), h, located_nil⟩
  case h_6 hk => exact ⟨⟨hk, ht⟩, h, located_nil⟩
termination_by (s.length + 1, 0)
decreasing_by
  exact Prod.Lex.left _ _ (Nat.lt_succ_self _)

end

theorem terminated_within {what : Expectation} {s : List Token} (h : AllTokens T s) :
    (terminated what s).Within T (Expr.WellFormed T) := by
  refine (assignment_within s h).andThen fun e rest he hrest => ?_
  exact (expect_within hrest).map fun _ _ => he

theorem expressionStatement_within {s : List Token} (h : AllTokens T s) :
    (expressionStatement s).Within T (Stmt.IsBranch T) :=
  (terminated_within h).map fun _ he => ⟨rfl, he⟩

theorem variableDeclaration_within {s : List Token} (h : AllTokens T s) :
    (variableDeclaration s).Within T (Stmt.WellFormed T) := by
  refine (expect_within h).andThen fun name rest hname hrest => ?_
  cases rest with
  | nil => exact ⟨hrest, located_nil⟩
  | cons t rest =>
      simp only
      split
      · have hvalue : (terminated .semicolonAfterDeclaration rest).Within T (Expr.WellFormed T) :=
          terminated_within (List.forall_mem_cons.mp hrest).2
        refine (hvalue.map fun e he => ?_).after located_nil _
        exact ⟨hname.1, hname.2, .inr he⟩
      · exact (expect_within hrest).map fun _ _ => ⟨hname.1, hname.2, .inl rfl⟩

theorem condition_within {what : Expectation} {s : List Token} (h : AllTokens T s) :
    (condition what s).Within T (Expr.WellFormed T) := by
  refine (expect_within h).andThen fun _ rest _ hrest => ?_
  refine (assignment_within rest hrest).andThen fun e rest he hrest => ?_
  exact (expect_within hrest).map fun _ _ => he

theorem clause_within {k : TokenKind} {what : Expectation} {s : List Token}
    (h : AllTokens T s) :
    (clause k what s).Within T fun e => e = .missing ∨ e.WellFormed T := by
  cases s with
  | nil => exact (assignment_within [] h).imp fun _ he => .inr he
  | cons t s =>
      simp only [clause]
      split
      · exact ⟨.inl rfl, (List.forall_mem_cons.mp h).2, located_nil⟩
      · refine (assignment_within _ h).andThen fun e rest he hrest => ?_
        exact (expect_within hrest).map fun _ _ => .inr he

theorem forInitial_within {s : List Token} (h : AllTokens T s) :
    (forInitial s).Within T fun st => st = .missing ∨ st.WellFormed T := by
  cases s with
  | nil => exact (expressionStatement_within h).imp fun _ hst => .inr hst.2
  | cons t s =>
      have hs := (List.forall_mem_cons.mp h).2
      simp only [forInitial]
      split
      · exact ⟨.inl rfl, hs, located_nil⟩
      · refine ((variableDeclaration_within hs).imp fun _ hst => ?_).after located_nil _
        exact .inr hst
      · exact (expressionStatement_within h).imp fun _ hst => .inr hst.2

/-- Clauses that are left out or well-formed. -/
structure ForClauses.WellFormed (T : Token → Prop) (clauses : ForClauses) : Prop where
  initial : clauses.initial = .missing ∨ clauses.initial.WellFormed T
  condition : clauses.condition = .missing ∨ clauses.condition.WellFormed T
  increment : clauses.increment = .missing ∨ clauses.increment.WellFormed T

theorem forClauses_within {s : List Token} (h : AllTokens T s) :
    (forClauses s).Within T (ForClauses.WellFormed T) := by
  refine (expect_within h).andThen fun _ rest _ hrest => ?_
  refine (forInitial_within hrest).andThen fun initial rest hi hrest => ?_
  refine (clause_within hrest).andThen fun condition rest hc hrest => ?_
  exact (clause_within hrest).map fun increment hn => ⟨hi, hc, hn⟩

theorem Expr.WellFormed.isMissing {e : Expr} (h : e.WellFormed T) : e.isMissing = false := by
  unfold Expr.isMissing
  split
  · exact h.elim
  · rfl

theorem Stmt.WellFormed.isMissing {s : Stmt} (h : s.WellFormed T) : s.isMissing = false := by
  unfold Stmt.isMissing
  split
  · exact h.elim
  · rfl

theorem ForClauses.WellFormed.isBranch_loop {clauses : ForClauses} {body : Stmt}
    (h : clauses.WellFormed T) (hb : body.IsBranch T) : (clauses.loop body).IsBranch T := by
  obtain ⟨initial, condition, increment⟩ := clauses
  obtain ⟨hi, hc, hn⟩ := h
  have hround : (if increment.isMissing then body
      else .block [body, .expression increment]).IsBranch T := by
    obtain rfl | hn := hn
    · exact hb
    · rw [hn.isMissing]
      exact ⟨rfl, hb.2, hn, trivial⟩
  have hcondition : (if condition.isMissing then .literal (.bool true)
      else condition).WellFormed T := by
    obtain rfl | hc := hc
    · exact .bool true
    · rw [hc.isMissing]
      exact hc
  obtain rfl | hi := hi
  · exact ⟨rfl, hcondition, hround⟩
  · simp only [loop, hi.isMissing]
    exact ⟨rfl, hi, ⟨hcondition, hround⟩, trivial⟩

section Statements

variable {stop : Token}

/-- Declarations whose parts all come from tokens that satisfy `T`. -/
structure Declarations.Within {bound : Nat} (T : Token → Prop) (d : Declarations bound) :
    Prop where
  program : WellFormedProgram T d.program
  rest : AllTokens T d.rest
  reports : Located T d.reports

theorem Declarations.Within.after {bound wider : Nat} {d : Declarations bound}
    (h : d.Within T) (front : List Stmt) {reports : List SyntaxError}
    (hf : WellFormedProgram T front) (hr : Located T reports) (hb : bound < wider) :
    (d.after front reports hb).Within T where
  program := wellFormedProgram_append hf h.program
  rest := h.rest
  reports := List.forall_mem_append.mpr ⟨hr, h.reports⟩

theorem errorAt_token (hstop : T stop) {what : Expectation} {rest : List Token}
    (h : AllTokens T rest) : T (errorAt stop what rest).token := by
  cases rest with
  | nil => exact hstop
  | cons t r => exact h t List.mem_cons_self

theorem allTokens_skipTo {previous : Token} {s : List Token} (h : AllTokens T s) :
    AllTokens T (skipTo previous s) := by
  induction s generalizing previous with
  | nil => exact h
  | cons t s ih =>
      simp only [skipTo]
      split
      · exact h
      · exact ih (List.forall_mem_cons.mp h).2

theorem allTokens_recover {s : List Token} (h : AllTokens T s) : AllTokens T (recover s) := by
  cases s with
  | nil => exact h
  | cons t s => exact allTokens_skipTo (List.forall_mem_cons.mp h).2

mutual

theorem statement_within (hstop : T stop) (s : List Token) (h : AllTokens T s) :
    (statement stop s).Within T (Stmt.IsBranch T) := by
  match s with
  | [] =>
      rw [statement]
      exact expressionStatement_within h
  | t :: s =>
      have hs := (List.forall_mem_cons.mp h).2
      by_cases hif : t.kind = .kwIf
      · exact conditional_within hstop t s hif hs
      rw [statement]
      split
      case h_1 =>
        have hclauses := forClauses_within hs
        cases hc : forClauses s with
        | failed what r reports hb =>
            rw [hc] at hclauses
            exact hclauses
        | done clauses r reports hb =>
            rw [hc] at hclauses
            obtain ⟨hwf, hrest, hreports⟩ := hclauses
            have hbody := statement_within hstop r hrest
            exact (hbody.map fun _ => hwf.isBranch_loop).after hreports _
      case h_2 hk => exact absurd hk hif
      case h_3 =>
        have hprint : ∀ e, e.WellFormed T → (Stmt.print e).IsBranch T := fun _ he => ⟨rfl, he⟩
        exact ((terminated_within hs).map hprint).after located_nil _
      case h_4 =>
        have htest : (condition .parenAfterWhile s).Within T (Expr.WellFormed T) :=
          condition_within hs
        cases hc : condition .parenAfterWhile s with
        | failed what r reports hb =>
            rw [hc] at htest
            exact htest
        | done test r reports hb =>
            rw [hc] at htest
            obtain ⟨he, hrest, hreports⟩ := htest
            have hloop : ∀ body, body.IsBranch T → (Stmt.loop test body).IsBranch T :=
              fun _ hbody => ⟨rfl, he, hbody⟩
            exact ((statement_within hstop r hrest).map hloop).after hreports _
      case h_5 =>
        have hinner := declarations_within hstop true s hs
        have hblock : ∀ t, t.kind = .rightBrace ∧ T t →
            (Stmt.block (declarations stop true s).program).IsBranch T :=
          fun _ _ => ⟨rfl, hinner.program⟩
        exact ((expect_within hinner.rest).map hblock).after hinner.reports _
      case h_6 => exact expressionStatement_within h
termination_by (s.length, 1)
decreasing_by
  · exact Prod.Lex.right _ Nat.zero_lt_one
  · exact Prod.Lex.left _ _ (Nat.lt_succ_of_lt hb)
  · exact Prod.Lex.left _ _ (Nat.lt_succ_of_lt hb)
  · exact Prod.Lex.left _ _ (Nat.lt_succ_self _)

theorem conditional_within (hstop : T stop) (t : Token) (s : List Token)
    (ht : t.kind = .kwIf) (h : AllTokens T s) :
    (statement stop (t :: s)).Within T (Stmt.IsBranch T) := by
  have htest : (condition .parenAfterIf s).Within T (Expr.WellFormed T) := condition_within h
  rw [statement]
  simp only [ht]
  cases hc : condition .parenAfterIf s with
  | failed what r reports hb =>
      rw [hc] at htest
      exact htest
  | done test r reports hb =>
      rw [hc] at htest
      obtain ⟨he, hrest, hreports⟩ := htest
      have hthen := statement_within hstop r hrest
      cases hst : statement stop r with
      | failed what r' more hb' =>
          rw [hst] at hthen
          simp only [hst]
          exact ⟨hthen.1, List.forall_mem_append.mpr ⟨hreports, hthen.2⟩⟩
      | done consequence r' more hb' =>
          rw [hst] at hthen
          obtain ⟨hconsequence, hrest', hmore⟩ := hthen
          have hall : Located T (reports ++ more) := List.forall_mem_append.mpr ⟨hreports, hmore⟩
          cases r' with
          | nil =>
              simp only [hst]
              exact ⟨⟨rfl, he, hconsequence, .inl rfl⟩, hrest', hall⟩
          | cons u r' =>
              simp only [hst]
              split
              · have helse := statement_within hstop r' (List.forall_mem_cons.mp hrest').2
                have hboth : ∀ s', s'.IsBranch T → (Stmt.conditional test consequence s').IsBranch T :=
                  fun _ hs' => ⟨rfl, he, hconsequence, .inr hs'⟩
                exact (helse.map hboth).after hall _
              · exact ⟨⟨rfl, he, hconsequence, .inl rfl⟩, hrest', hall⟩
termination_by (s.length + 1, 0)
decreasing_by
  · exact Prod.Lex.left _ _ (Nat.lt_succ_of_lt hb)
  · exact Prod.Lex.left _ _ (by simp only [List.length_cons] at hb'; omega)

theorem declarations_within (hstop : T stop) (inBlock : Bool) (s : List Token)
    (h : AllTokens T s) : (declarations stop inBlock s).Within T := by
  match s with
  | [] =>
      rw [declarations]
      exact ⟨trivial, h, located_nil⟩
  | t :: s =>
      have hd := declaration_within hstop t s h
      rw [declarations]
      split
      · exact ⟨trivial, h, located_nil⟩
      · cases hc : declaration stop (t :: s) with
        | failed what r reports hb =>
            rw [hc] at hd
            obtain ⟨hrest, hreports⟩ := hd
            have hlater := declarations_within hstop inBlock (recover r) (allTokens_recover hrest)
            have hall : Located T (reports ++ [errorAt stop what r]) :=
              List.forall_mem_append.mpr
                ⟨hreports, List.forall_mem_singleton.mpr (errorAt_token hstop hrest)⟩
            exact hlater.after [] trivial hall _
        | done d r reports hb =>
            rw [hc] at hd
            obtain ⟨hwf, hrest, hreports⟩ := hd
            have hlater := declarations_within hstop inBlock r hrest
            exact hlater.after [d] ⟨hwf, trivial⟩ hreports _
termination_by (s.length, 3)
decreasing_by
  · exact Prod.Lex.right _ (by decide)
  · exact Prod.Lex.left _ _ hb
  · exact Prod.Lex.left _ _ (length_recover_lt hb)

theorem declaration_within (hstop : T stop) (t : Token) (s : List Token)
    (h : AllTokens T (t :: s)) :
    (declaration stop (t :: s)).Within T (Stmt.WellFormed T) := by
  rw [declaration]
  split
  · exact (variableDeclaration_within (List.forall_mem_cons.mp h).2).after located_nil _
  · exact (statement_within hstop (t :: s) h).imp fun _ hst => hst.2
termination_by (s.length + 1, 2)
decreasing_by
  exact Prod.Lex.right _ (by decide)

end

end Statements

end Expressions

/-- Every tree that parsing returns is well-formed, and every error is located at a token of the
list or at the token that ends it. -/
theorem parse_within {T : Token → Prop} {tokens : List Token} (hstop : T (endToken tokens))
    (h : AllTokens T tokens) :
    WellFormedProgram T (parse tokens).program ∧ Located T (parse tokens).errors := by
  have hread : AllTokens T (tokens.takeWhile (·.kind ≠ .endOfFile)) :=
    fun t ht => h t ((List.takeWhile_sublist _).subset ht)
  have hwithin := declarations_within hstop false _ hread
  exact ⟨hwithin.program, hwithin.reports⟩

/-! No end token has a place in a well-formed tree. -/

section WithoutEnd

variable {T T' : Token → Prop}

theorem Literal.ComesFrom.mono (hT : ∀ t, T t → t.kind ≠ .endOfFile → T' t) {l : Literal}
    (h : l.ComesFrom T) : l.ComesFrom T' := by
  cases h with
  | nil => exact .nil
  | bool b => exact .bool b
  | token ht hk =>
      refine .token (hT _ ht ?_) hk
      intro hend
      rw [hend] at hk
      cases hk <;> contradiction

theorem ne_endOfFile_of_isBinaryOperator {k : TokenKind} (h : isBinaryOperator k = true) :
    k ≠ .endOfFile := by
  intro hk
  rw [hk] at h
  cases h

theorem Expr.WellFormed.mono (hT : ∀ t, T t → t.kind ≠ .endOfFile → T' t) {e : Expr}
    (h : e.WellFormed T) : e.WellFormed T' := by
  have hkind : ∀ {t : Token} {k : TokenKind}, T t → t.kind = k → k ≠ .endOfFile → T' t := by
    intro t k ht hk hne
    exact hT t ht (hk ▸ hne)
  induction e with
  | literal v => exact Literal.ComesFrom.mono hT h
  | grouping e ih => exact ih h
  | unary op e ih =>
      obtain ⟨hop, ht, he⟩ := h
      refine ⟨hop, ?_, ih he⟩
      cases hop with
      | inl hk | inr hk => exact hkind ht hk TokenKind.noConfusion
  | binary left op right ihl ihr =>
      obtain ⟨hop, ht, hl, hr⟩ := h
      exact ⟨hop, hT op ht (ne_endOfFile_of_isBinaryOperator hop), ihl hl, ihr hr⟩
  | logical left op right ihl ihr =>
      obtain ⟨hop, ht, hl, hr⟩ := h
      refine ⟨hop, ?_, ihl hl, ihr hr⟩
      cases hop with
      | inl hk | inr hk => exact hkind ht hk TokenKind.noConfusion
  | «variable» name => exact ⟨h.1, hkind h.2 h.1 TokenKind.noConfusion⟩
  | assign name e ih =>
      exact ⟨h.1, hkind h.2.1 h.1 TokenKind.noConfusion, ih h.2.2⟩
  | missing | foreign typeName => exact h

mutual

theorem Stmt.WellFormed.mono (hT : ∀ t, T t → t.kind ≠ .endOfFile → T' t) (s : Stmt)
    (h : s.WellFormed T) : s.WellFormed T' := by
  match s with
  | .expression e => exact Expr.WellFormed.mono hT h
  | .print e => exact Expr.WellFormed.mono hT h
  | .declare name e =>
      obtain ⟨hk, ht, he⟩ := h
      refine ⟨hk, hT name ht (hk ▸ TokenKind.noConfusion), ?_⟩
      exact he.imp id (Expr.WellFormed.mono hT)
  | .block body => exact wellFormedProgram_mono hT body h
  | .conditional e s s' =>
      obtain ⟨he, ⟨hd, hs⟩, hs'⟩ := h
      refine ⟨he.mono hT, ⟨hd, Stmt.WellFormed.mono hT s hs⟩, ?_⟩
      cases hs' with
      | inl hmissing => exact .inl hmissing
      | inr hs' => exact .inr ⟨hs'.1, Stmt.WellFormed.mono hT s' hs'.2⟩
  | .loop e s =>
      obtain ⟨he, hd, hs⟩ := h
      exact ⟨he.mono hT, hd, Stmt.WellFormed.mono hT s hs⟩
  | .missing => exact h
  | .foreign typeName => exact h

theorem wellFormedProgram_mono (hT : ∀ t, T t → t.kind ≠ .endOfFile → T' t)
    (program : List Stmt) (h : WellFormedProgram T program) : WellFormedProgram T' program := by
  match program with
  | [] => trivial
  | s :: rest => exact ⟨Stmt.WellFormed.mono hT s h.1, wellFormedProgram_mono hT rest h.2⟩

end

end WithoutEnd

/-- The end token of a list is its own, or the one that is added to a list without any. -/
theorem endToken_cases (tokens : List Token) :
    endToken tokens ∈ tokens ∨
      (∀ t ∈ tokens, t.kind ≠ .endOfFile) ∧
        endToken tokens =
          ⟨.endOfFile, "", .nil, (tokens.getLast?.map Token.line).getD 1⟩ := by
  unfold endToken
  cases hfind : tokens.find? (·.kind = .endOfFile) with
  | some t => exact .inl (List.mem_of_find?_eq_some hfind)
  | none =>
      refine .inr ⟨?_, rfl⟩
      intro t ht hk
      exact List.find?_eq_none.mp hfind t ht (decide_eq_true hk)

theorem kind_endToken (tokens : List Token) : (endToken tokens).kind = .endOfFile := by
  unfold endToken
  cases hfind : tokens.find? (·.kind = .endOfFile) with
  | some t =>
      have hk := List.find?_some hfind
      exact of_decide_eq_true hk
  | none => rfl

/-- Whatever the tokens, the trees that parsing returns are well-formed and made of these tokens
only, and its errors are at these tokens or at the end that it adds to a list without one. -/
theorem parse_builds_from_tokens (tokens : List Token) :
    WellFormedProgram (· ∈ tokens) (parse tokens).program ∧
      ∀ e ∈ (parse tokens).errors, e.token ∈ tokens ∨
        (∀ t ∈ tokens, t.kind ≠ .endOfFile) ∧
          e.token = ⟨.endOfFile, "", .nil, (tokens.getLast?.map Token.line).getD 1⟩ := by
  have hwithin : WellFormedProgram (fun t => t ∈ tokens ∨ t = endToken tokens)
        (parse tokens).program ∧
      Located (fun t => t ∈ tokens ∨ t = endToken tokens) (parse tokens).errors :=
    parse_within (.inr rfl) fun t ht => .inl ht
  constructor
  · refine wellFormedProgram_mono ?_ _ hwithin.1
    intro t ht hne
    cases ht with
    | inl hmem => exact hmem
    | inr hstop => exact absurd (hstop ▸ kind_endToken tokens) hne
  · intro e he
    cases hwithin.2 e he with
    | inl hmem => exact .inl hmem
    | inr hstop =>
        rw [hstop]
        exact endToken_cases tokens

end Scriptlet
