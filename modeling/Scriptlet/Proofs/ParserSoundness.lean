import Scriptlet.Proofs.ParserCompleteness

/-!
What the parser reads without an error is derivable. Each rule gives back a derivation of the tokens
that it has read, one in which every `else` belongs to the nearest conditional, and the derivation
stands for the tree that the rule returns.
-/

namespace Scriptlet

open Scriptlet.Derivation

namespace Derivation

theorem operation_ne_variable (left right : Expr) (op name : Token) :
    operation left op right ≠ .variable name := by
  unfold operation
  split <;> simp

theorem Links.tree_eq_variable {l : Level} {name : Token} :
    (links : Links l) → (left : Expr) → links.tree left = .variable name →
      links.tokens = [] ∧ left = .variable name
  | .nil, _, h => ⟨rfl, h⟩
  | .cons _ _ links, _, h =>
      absurd (links.tree_eq_variable _ h).2 (operation_ne_variable _ _ _ _)

/-- An operator expression that is a variable is written as its name alone. -/
theorem Operators.tree_eq_variable {name : Token} {o : Option Level} :
    (e : Operators o) → e.tree = .variable name → e.tokens = [name] ∧ name.kind = .identifier
  | .chain first links, h => by
      obtain ⟨hlinks, hfirst⟩ := links.tree_eq_variable first.tree h
      obtain ⟨htokens, hname⟩ := first.tree_eq_variable hfirst
      exact ⟨by rw [Operators.tokens, htokens, hlinks]; rfl, hname⟩
  | .name t, h => by
      cases h
      exact ⟨rfl, t.2⟩
  | .prefixed .., h | .constant .., h | .group .., h => by cases h

end Derivation

mutual

theorem assignment_sound (s : List Token) {e : Expr} {rest : List Token}
    (h : (assignment s).Reads e rest) :
    ∃ d : Assignment, d.tree = e ∧ s = d.tokens ++ rest := by
  obtain ⟨hlevel, -⟩ | ⟨name, t, r, value, hlevel, ht, hvalue, he⟩ := assignment_reads.mp h
  · obtain ⟨d, hd, hs⟩ := level_sound (some .disjunction) s hlevel
    exact ⟨.operators d, hd, hs⟩
  · obtain ⟨target, htarget, hs⟩ := level_sound (some .disjunction) s hlevel
    obtain ⟨htokens, hname⟩ := target.tree_eq_variable htarget
    have hr : r.length < s.length := Nat.lt_of_succ_lt hlevel.length_lt
    obtain ⟨d, hd, hrest⟩ := assignment_sound r hvalue
    refine ⟨.assign ⟨name, hname⟩ ⟨t, ht⟩ d, ?_, ?_⟩
    · rw [he, ← hd]
      rfl
    · rw [hs, htokens, hrest]
      rfl
termination_by (s.length, 8)
decreasing_by
  · exact Prod.Lex.right _ (by decide)
  · exact Prod.Lex.right _ (by decide)
  · exact Prod.Lex.left _ _ hr

theorem level_sound (o : Option Level) (s : List Token) {e : Expr} {rest : List Token}
    (h : (level o s).Reads e rest) :
    ∃ d : Operators o, d.tree = e ∧ s = d.tokens ++ rest := by
  match o, s, h with
  | some l, s, h =>
      obtain ⟨first, r, hfirst, hlinks⟩ := chain_reads.mp h
      have hr := hfirst.length_lt
      obtain ⟨d, hd, hs⟩ := level_sound l.tighter? s hfirst
      obtain ⟨links, htree, hrest⟩ := extend_sound l r first hlinks
      refine ⟨.chain d links, ?_, ?_⟩
      · rw [Operators.tree, hd, htree]
      · rw [hs, hrest, Operators.tokens, List.append_assoc]
  | none, [], h => exact absurd h not_level_reads_nil
  | none, t :: s, h =>
      obtain ⟨hop, inner, hinner, rfl⟩ | hprimary := unary_reads_cons.mp h
      · obtain ⟨d, rfl, rfl⟩ := level_sound none s hinner
        exact ⟨.prefixed ⟨t, hop⟩ d, rfl, rfl⟩
      · obtain ⟨hk, rfl, rfl⟩ | ⟨hk, rfl, rfl⟩ | ⟨hk, inner, u, hinner, hu, rfl⟩ :=
          primary_reads.mp hprimary
        · exact ⟨.constant ⟨t, hk⟩, rfl, rfl⟩
        · exact ⟨.name ⟨t, hk⟩, rfl, rfl⟩
        · obtain ⟨d, rfl, rfl⟩ := assignment_sound s hinner
          refine ⟨.group ⟨t, hk⟩ d ⟨u, hu⟩, rfl, ?_⟩
          simp [Operators.tokens]
termination_by (s.length, o.elim 0 Level.rank + 1)
decreasing_by
  · exact Prod.Lex.right _ (Nat.succ_lt_succ (rank_tighter_lt l))
  · exact Prod.Lex.left _ _ hr
  · exact Prod.Lex.left _ _ (Nat.lt_succ_self _)
  · exact Prod.Lex.left _ _ (Nat.lt_succ_self _)

theorem extend_sound (l : Level) (s : List Token) (left : Expr) {e : Expr} {rest : List Token}
    (h : (extend l left s).Reads e rest) :
    ∃ links : Links l, links.tree left = e ∧ s = links.tokens ++ rest := by
  match s, h with
  | [], h =>
      obtain ⟨rfl, rfl⟩ := extend_reads_nil.mp h
      exact ⟨.nil, rfl, rfl⟩
  | op :: s, h =>
      obtain ⟨-, rfl, rfl⟩ | ⟨hop, right, r, hright, hlinks⟩ := extend_reads_cons.mp h
      · exact ⟨.nil, rfl, rfl⟩
      · have hr := hright.length_lt
        obtain ⟨d, hd, hs⟩ := level_sound l.tighter? s hright
        obtain ⟨links, htree, hrest⟩ := extend_sound l r _ hlinks
        refine ⟨.cons ⟨op, hop⟩ d links, ?_, ?_⟩
        · rw [Links.tree, operation_eq_node hop, hd, htree]
        · rw [hs, hrest, Links.tokens, List.cons_append, List.append_assoc]
termination_by (s.length, 0)
decreasing_by
  · exact Prod.Lex.left _ _ (Nat.lt_succ_self _)
  · exact Prod.Lex.left _ _ (Nat.lt_succ_of_lt hr)

end

theorem expressionStatement_sound {s rest : List Token} {st : Stmt}
    (h : (expressionStatement s).Reads st rest) :
    ∃ (e : Assignment) (semicolon : Leaf .semicolon), .expression e.tree = st ∧
      s = e.tokens ++ semicolon.1 :: rest := by
  obtain ⟨_, t, he, ht, rfl⟩ := expressionStatement_reads.mp h
  obtain ⟨e, rfl, rfl⟩ := assignment_sound s he
  exact ⟨e, ⟨t, ht⟩, rfl, rfl⟩

theorem variableDeclaration_sound {s rest : List Token} {st : Stmt} (keyword : Leaf .kwVar)
    (h : (variableDeclaration s).Reads st rest) :
    ∃ d : VariableDeclaration, d.tree = st ∧ keyword.1 :: s = d.tokens ++ rest := by
  obtain ⟨name, t, r, rfl, hname, hcase⟩ := variableDeclaration_reads.mp h
  obtain ⟨ht, rfl, rfl⟩ | ⟨ht, _, u, he, hu, rfl⟩ := hcase
  · exact ⟨⟨keyword, ⟨name, hname⟩, none, ⟨t, ht⟩⟩, rfl, rfl⟩
  · obtain ⟨e, rfl, rfl⟩ := assignment_sound r he
    refine ⟨⟨keyword, ⟨name, hname⟩, some (⟨t, ht⟩, e), ⟨u, hu⟩⟩, rfl, ?_⟩
    simp [VariableDeclaration.tokens]

theorem condition_sound {k : TokenKind} {what : Expectation} {s rest : List Token} {e : Expr}
    (keyword : Leaf k) (h : (condition what s).Reads e rest) :
    ∃ c : Condition k, c.test.tree = e ∧ keyword.1 :: s = c.tokens ++ rest := by
  obtain ⟨t, r, u, rfl, ht, he, hu⟩ := condition_reads.mp h
  obtain ⟨e, rfl, rfl⟩ := assignment_sound r he
  exact ⟨⟨keyword, ⟨t, ht⟩, e, ⟨u, hu⟩⟩, rfl, by simp [Condition.tokens]⟩

theorem clause_sound {k : TokenKind} {what : Expectation} {s rest : List Token} {e : Expr}
    (h : (clause k what s).Reads e rest) :
    ∃ (d : Option Assignment) (t : Leaf k), d.elim .missing Assignment.tree = e ∧
      s = d.elim [] Assignment.tokens ++ t.1 :: rest := by
  cases s with
  | nil => exact absurd h.length_lt (Nat.not_lt_zero _)
  | cons t s =>
      obtain ⟨ht, rfl, rfl⟩ | ⟨-, u, he, hu⟩ := clause_reads_cons.mp h
      · exact ⟨none, ⟨t, ht⟩, rfl, rfl⟩
      · obtain ⟨d, rfl, hs⟩ := assignment_sound _ he
        exact ⟨some d, ⟨u, hu⟩, rfl, hs⟩

theorem forInitial_sound {s rest : List Token} {st : Stmt} (h : (forInitial s).Reads st rest) :
    ∃ i : ForInitial, i.tree?.getD .missing = st ∧ s = i.tokens ++ rest := by
  cases s with
  | nil => exact absurd h.length_lt (Nat.not_lt_zero _)
  | cons t s =>
      obtain ⟨ht, rfl, rfl⟩ | ⟨ht, hd⟩ | ⟨-, -, he⟩ := forInitial_reads_cons.mp h
      · exact ⟨.absent ⟨t, ht⟩, rfl, rfl⟩
      · obtain ⟨d, hd, hs⟩ := variableDeclaration_sound ⟨t, ht⟩ hd
        exact ⟨.declaration d, hd, hs⟩
      · obtain ⟨e, semicolon, he, hs⟩ := expressionStatement_sound he
        refine ⟨.expression e semicolon, he, ?_⟩
        rw [hs, ForInitial.tokens, List.append_assoc]
        rfl

theorem forClauses_sound {s rest : List Token} {clauses : ForClauses} (keyword : Leaf .kwFor)
    (h : (forClauses s).Reads clauses rest) :
    ∃ head : ForHead, head.clauses = clauses ∧ keyword.1 :: s = head.tokens ++ rest := by
  obtain ⟨t, r, r₁, r₂, rfl, ht, hinitial, hcondition, hincrement⟩ := forClauses_reads.mp h
  obtain ⟨initial, hi, rfl⟩ := forInitial_sound hinitial
  obtain ⟨condition, semicolon, hc, rfl⟩ := clause_sound hcondition
  obtain ⟨increment, closing, hn, rfl⟩ := clause_sound hincrement
  refine ⟨⟨keyword, ⟨t, ht⟩, initial, condition, semicolon, increment, closing⟩, ?_, ?_⟩
  · rw [ForHead.clauses, hi, hc, hn]
  · simp [ForHead.tokens]

/-- A derivation of what a statement rule has read in front of `rest`. No `else` stands behind it
that it could have taken. -/
def DerivesStatement (s : List Token) (st : Stmt) (rest : List Token) : Prop :=
  ∃ d : Derivation.Statement, d.tree = st ∧ s = d.tokens ++ rest ∧ d.NearestElse ∧
    (d.endsOpen = true → NoElse rest)

namespace DerivesStatement

variable {s r rest : List Token}

theorem expression {st : Stmt} (h : (expressionStatement s).Reads st rest) :
    DerivesStatement s st rest := by
  obtain ⟨e, semicolon, rfl, rfl⟩ := expressionStatement_sound h
  refine ⟨.expression e semicolon, rfl, ?_, trivial, fun h => by cases h⟩
  simp [Statement.tokens]

theorem print {e : Expr} (keyword : Leaf .kwPrint) (semicolon : Leaf .semicolon)
    (h : (assignment s).Reads e (semicolon.1 :: rest)) :
    DerivesStatement (keyword.1 :: s) (.print e) rest := by
  obtain ⟨e, rfl, rfl⟩ := assignment_sound s h
  refine ⟨.print keyword e semicolon, rfl, ?_, trivial, fun h => by cases h⟩
  simp [Statement.tokens]

theorem ifThen {test : Expr} {consequence : Stmt} (keyword : Leaf .kwIf)
    (h : (condition .parenAfterIf s).Reads test r) (h' : DerivesStatement r consequence rest)
    (hrest : NoElse rest) :
    DerivesStatement (keyword.1 :: s) (.conditional test consequence .missing) rest := by
  obtain ⟨head, rfl, hs⟩ := condition_sound keyword h
  obtain ⟨d, rfl, rfl, nearest, -⟩ := h'
  refine ⟨.ifThen head d, rfl, ?_, nearest, fun _ => hrest⟩
  rw [hs, Statement.tokens, List.append_assoc]

theorem ifElse {test : Expr} {consequence alternative : Stmt} {r' : List Token}
    (keyword : Leaf .kwIf) (separator : Leaf .kwElse)
    (h : (condition .parenAfterIf s).Reads test r)
    (h' : DerivesStatement r consequence (separator.1 :: r'))
    (h'' : DerivesStatement r' alternative rest) :
    DerivesStatement (keyword.1 :: s) (.conditional test consequence alternative) rest := by
  obtain ⟨head, rfl, hs⟩ := condition_sound keyword h
  obtain ⟨d, rfl, rfl, nearest, hopen⟩ := h'
  obtain ⟨d', rfl, rfl, nearest', hopen'⟩ := h''
  have closed : d.endsOpen = false := by
    cases hd : d.endsOpen with
    | false => rfl
    | true => exact absurd separator.2 (hopen hd separator.1 rfl)
  refine ⟨.ifElse head d separator d', rfl, ?_, ⟨closed, nearest, nearest'⟩, hopen'⟩
  rw [hs, Statement.tokens, List.append_assoc, List.append_assoc]
  rfl

theorem whileLoop {test : Expr} {body : Stmt} (keyword : Leaf .kwWhile)
    (h : (condition .parenAfterWhile s).Reads test r) (h' : DerivesStatement r body rest) :
    DerivesStatement (keyword.1 :: s) (.loop test body) rest := by
  obtain ⟨head, rfl, hs⟩ := condition_sound keyword h
  obtain ⟨d, rfl, rfl, nearest, hopen⟩ := h'
  refine ⟨.whileLoop head d, rfl, ?_, nearest, hopen⟩
  rw [hs, Statement.tokens, List.append_assoc]

theorem forLoop {clauses : ForClauses} {body : Stmt} (keyword : Leaf .kwFor)
    (h : (forClauses s).Reads clauses r) (h' : DerivesStatement r body rest) :
    DerivesStatement (keyword.1 :: s) (clauses.loop body) rest := by
  obtain ⟨head, rfl, hs⟩ := forClauses_sound keyword h
  obtain ⟨d, rfl, rfl, nearest, hopen⟩ := h'
  refine ⟨.forLoop head d, (head.loop_clauses d.tree).symm, ?_, nearest, hopen⟩
  rw [hs, Statement.tokens, List.append_assoc]

end DerivesStatement

/-- A derivation of the declarations read in front of `rest`. -/
def DerivesDeclarations (s : List Token) (program : List Stmt) (rest : List Token) : Prop :=
  ∃ ds : Derivation.Declarations, ds.program = program ∧ s = ds.tokens ++ rest ∧ ds.NearestElse

namespace DerivesDeclarations

variable {s r rest : List Token} {program : List Stmt}

theorem nil : DerivesDeclarations rest [] rest :=
  ⟨.nil, rfl, rfl, trivial⟩

theorem declare {d : Stmt} (keyword : Leaf .kwVar) (h : (variableDeclaration s).Reads d r)
    (h' : DerivesDeclarations r program rest) :
    DerivesDeclarations (keyword.1 :: s) (d :: program) rest := by
  obtain ⟨d, rfl, hs⟩ := variableDeclaration_sound keyword h
  obtain ⟨ds, rfl, rfl, nearest⟩ := h'
  refine ⟨.declare d ds, rfl, ?_, nearest⟩
  rw [hs, Declarations.tokens, List.append_assoc]

theorem statement {d : Stmt} (h : DerivesStatement s d r)
    (h' : DerivesDeclarations r program rest) : DerivesDeclarations s (d :: program) rest := by
  obtain ⟨d, rfl, rfl, nearest, -⟩ := h
  obtain ⟨ds, rfl, rfl, nearest'⟩ := h'
  refine ⟨.statement d ds, rfl, ?_, nearest, nearest'⟩
  rw [Declarations.tokens, List.append_assoc]

end DerivesDeclarations

theorem DerivesStatement.block {s rest : List Token} {program : List Stmt}
    (opening : Leaf .leftBrace) (closing : Leaf .rightBrace)
    (h : DerivesDeclarations s program (closing.1 :: rest)) :
    DerivesStatement (opening.1 :: s) (.block program) rest := by
  obtain ⟨body, rfl, rfl, nearest⟩ := h
  refine ⟨.block opening body closing, rfl, ?_, nearest, fun h => by cases h⟩
  simp [Statement.tokens]

mutual

theorem statement_sound (stop : Token) (s : List Token) {st : Stmt} {rest : List Token}
    (h : (statement stop s).Reads st rest) : DerivesStatement s st rest := by
  match s, h with
  | [], h => exact absurd h.length_lt (Nat.not_lt_zero _)
  | t :: s, h =>
      by_cases hfor : t.kind = .kwFor
      · obtain ⟨clauses, r, body, hclauses, hbody, rfl⟩ := (statement_reads_for hfor).mp h
        have hr := hclauses.length_lt
        exact .forLoop ⟨t, hfor⟩ hclauses (statement_sound stop r hbody)
      by_cases hif : t.kind = .kwIf
      · obtain ⟨test, r, consequence, r', htest, hthen, hcase⟩ := (statement_reads_if hif).mp h
        have hr := htest.length_lt
        have hr' := hthen.length_lt
        obtain ⟨hne, rfl, rfl⟩ | ⟨u, r'', alternative, rfl, hu, helse, rfl⟩ := hcase
        · exact .ifThen ⟨t, hif⟩ htest (statement_sound stop r hthen) hne
        · exact .ifElse ⟨t, hif⟩ ⟨u, hu⟩ htest (statement_sound stop r hthen)
            (statement_sound stop r'' helse)
      by_cases hprint : t.kind = .kwPrint
      · obtain ⟨_, u, he, hu, rfl⟩ := (statement_reads_print hprint).mp h
        exact .print ⟨t, hprint⟩ ⟨u, hu⟩ he
      by_cases hwhile : t.kind = .kwWhile
      · obtain ⟨test, r, body, htest, hbody, rfl⟩ := (statement_reads_while hwhile).mp h
        have hr := htest.length_lt
        exact .whileLoop ⟨t, hwhile⟩ htest (statement_sound stop r hbody)
      by_cases hbrace : t.kind = .leftBrace
      · obtain ⟨_, u, hbody, hu, rfl⟩ := (statement_reads_block hbrace).mp h
        exact .block ⟨t, hbrace⟩ ⟨u, hu⟩ (declarations_sound stop true s hbody)
      have hk : startsCompound t.kind = false := by
        cases hk : t.kind <;> simp_all [startsCompound]
      exact .expression ((statement_reads_expression hk).mp h)
termination_by (s.length, 0)
decreasing_by
  all_goals apply Prod.Lex.left; simp only [List.length_cons] at *; omega

theorem declarations_sound (stop : Token) (inBlock : Bool) (s : List Token)
    {program : List Stmt} {rest : List Token}
    (h : (declarations stop inBlock s).Reads program rest) :
    DerivesDeclarations s program rest := by
  match s, h with
  | [], h =>
      obtain ⟨rfl, rfl⟩ := declarations_reads_nil.mp h
      exact .nil
  | t :: s, h =>
      cases hclose : inBlock && decide (t.kind = .rightBrace) with
      | true =>
          obtain ⟨rfl, hk⟩ : inBlock = true ∧ t.kind = .rightBrace := by simpa using hclose
          obtain ⟨rfl, rfl⟩ := (declarations_reads_close hk).mp h
          exact .nil
      | false =>
          obtain ⟨d, r, later, hd, hlater, rfl⟩ := (declarations_reads_cons hclose).mp h
          have hr := hd.length_lt
          have hds := declarations_sound stop inBlock r hlater
          obtain ⟨hk, hd⟩ | ⟨-, hd⟩ := declaration_reads_cons.mp hd
          · exact .declare ⟨t, hk⟩ hd hds
          · exact .statement (statement_sound stop (t :: s) hd) hds
termination_by (s.length, 1)
decreasing_by
  · exact Prod.Lex.left _ _ hr
  · exact Prod.Lex.right _ Nat.zero_lt_one

end

/-- At the top level nothing is left to read, with errors or without. -/
theorem rest_declarations (stop : Token) (s : List Token) :
    (declarations stop false s).rest = [] := by
  rw [declarations.eq_def]
  cases s with
  | nil => rfl
  | cons t s =>
      simp only [Bool.false_and, Bool.false_eq_true, ite_false]
      cases declaration stop (t :: s) with
      | done d r reports h => exact rest_declarations stop r
      | failed what r reports h => exact rest_declarations stop (recover r)
termination_by s.length
decreasing_by
  · exact h
  · exact length_recover_lt h

end Scriptlet
