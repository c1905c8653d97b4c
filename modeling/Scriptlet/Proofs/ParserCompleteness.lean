import Scriptlet.Proofs.ErrorFreeReading

/-!
The parser reads every derivation of the nearest-else kind without an error and gives the tree that
it stands for, whatever tokens follow that cannot go on with it.
-/

namespace Scriptlet

/-- No operator of a level up to the given one stands next. -/
def StopsAt (o : Option Level) (s : List Token) : Prop :=
  ∀ t ∈ s.head?, ∀ m : Level, m.rank ≤ o.elim 0 Level.rank → m.joins t.kind = false

/-- Nothing that could go on with an expression stands next. -/
def EndsExpression (s : List Token) : Prop :=
  StopsAt (some .disjunction) s ∧ ∀ t ∈ s.head?, t.kind ≠ .equal

theorem Level.eq_of_joins {l m : Level} {k : TokenKind} (h : l.joins k = true)
    (h' : m.joins k = true) : l = m := by
  cases l <;> cases k <;> simp only [Level.joins, reduceCtorEq] at h <;>
    cases m <;> simp only [Level.joins, reduceCtorEq] at h' <;> rfl

theorem StopsAt.tighter {l : Level} {s : List Token} (h : StopsAt (some l) s) :
    StopsAt l.tighter? s :=
  fun t ht m hm => h t ht m (Nat.le_of_lt (Nat.lt_of_le_of_lt hm (rank_tighter_lt l)))

theorem StopsAt.joins {l : Level} {t : Token} {s : List Token} (h : StopsAt (some l) (t :: s)) :
    l.joins t.kind = false :=
  h t rfl l (Nat.le_refl _)

/-- An operator of a level ends its left operand. -/
theorem stopsAt_operator {l : Level} {op : Token} (s : List Token)
    (h : l.joins op.kind = true) : StopsAt l.tighter? (op :: s) := by
  rintro t ⟨⟩ m hm
  cases hj : m.joins op.kind with
  | false => rfl
  | true =>
      have hlt := Nat.lt_of_le_of_lt hm (rank_tighter_lt l)
      rw [Level.eq_of_joins hj h] at hlt
      exact absurd hlt (Nat.lt_irrefl _)

theorem endsExpression_of_kind {t : Token} (s : List Token) {k : TokenKind} (ht : t.kind = k)
    (hk : k = .semicolon ∨ k = .rightParen) : EndsExpression (t :: s) := by
  refine ⟨?_, ?_⟩
  · rintro t ⟨⟩ m -
    rw [ht]
    rcases hk with rfl | rfl <;> cases m <;> rfl
  · rintro t ⟨⟩
    rw [ht]
    rcases hk with rfl | rfl <;> decide

/-- An operand that no operator follows is a chain of every level. -/
theorem level_reads_of_tighter {l : Level} {s rest : List Token} {e : Expr}
    (h : (level l.tighter? s).Reads e rest) (hs : StopsAt (some l) rest) :
    (level (some l) s).Reads e rest := by
  refine chain_reads.mpr ⟨e, rest, h, ?_⟩
  cases rest with
  | nil => exact extend_reads_nil.mpr ⟨rfl, rfl⟩
  | cons t r => exact extend_reads_cons.mpr (.inl ⟨hs.joins, rfl, rfl⟩)

theorem level_reads_of_unary {s rest : List Token} {e : Expr} (h : (unary s).Reads e rest) :
    (o : Option Level) → StopsAt o rest → (level o s).Reads e rest
  | none, _ => h
  | some l, hs => level_reads_of_tighter (level_reads_of_unary h l.tighter? hs.tighter) hs
termination_by o => o.elim 0 Level.rank
decreasing_by exact rank_tighter_lt l

def startsExpression (k : TokenKind) : Bool :=
  Derivation.isConstant k || k == .bang || k == .minus || k == .identifier || k == .leftParen

theorem ne_of_startsExpression {k k' : TokenKind} (h : startsExpression k = true)
    (h' : startsExpression k' = false) : k ≠ k' := by
  rintro rfl
  rw [h] at h'
  cases h'

theorem startsCompound_of_startsExpression {k : TokenKind} (h : startsExpression k = true) :
    startsCompound k = false := by
  cases k <;> simp only [startsCompound] <;> simp [startsExpression, Derivation.isConstant] at h

namespace Derivation

theorem operation_eq_node {l : Level} {left right : Expr} {op : Token}
    (h : l.joins op.kind = true) : operation left op right = l.node left op right := by
  unfold operation
  cases l <;> cases hk : op.kind <;> simp only [hk, Level.joins, reduceCtorEq] at h <;> rfl

theorem Links.stopsAt {l : Level} (links : Links l) {rest : List Token}
    (h : StopsAt (some l) rest) : StopsAt l.tighter? (links.tokens ++ rest) := by
  cases links with
  | nil => exact h.tighter
  | cons op right links => exact stopsAt_operator _ op.2

mutual

theorem Assignment.reads : (e : Assignment) → ∀ rest, EndsExpression rest →
    (assignment (e.tokens ++ rest)).Reads e.tree rest
  | .assign name equals value, rest, h => by
      have hname : (unary (name.1 :: equals.1 :: (value.tokens ++ rest))).Reads
          (.variable name.1) (equals.1 :: (value.tokens ++ rest)) :=
        unary_reads_cons.mpr (.inr (primary_reads.mpr (.inr (.inl ⟨name.2, rfl, rfl⟩))))
      have hequals : StopsAt (some .disjunction) (equals.1 :: (value.tokens ++ rest)) := by
        rintro t ⟨⟩ m -
        rw [equals.2]
        cases m <;> rfl
      exact assignment_reads.mpr (.inr ⟨name.1, equals.1, value.tokens ++ rest, value.tree,
        level_reads_of_unary hname _ hequals, equals.2, value.reads rest h, rfl⟩)
  | .operators e, rest, h => assignment_reads.mpr (.inl ⟨e.reads rest h.1, h.2⟩)

theorem Operators.reads {o : Option Level} : (e : Operators o) → ∀ rest, StopsAt o rest →
    (level o (e.tokens ++ rest)).Reads e.tree rest
  | .chain (l := l) first links, rest, h => by
      rw [Operators.tokens, List.append_assoc]
      exact chain_reads.mpr
        ⟨first.tree, links.tokens ++ rest, first.reads _ (links.stopsAt h), links.reads _ rest h⟩
  | .prefixed op operand, rest, h =>
      unary_reads_cons.mpr (.inl ⟨op.2, operand.tree, operand.reads rest h, rfl⟩)
  | .constant t, rest, _ =>
      unary_reads_cons.mpr (.inr (primary_reads.mpr (.inl ⟨t.2, rfl, rfl⟩)))
  | .name t, rest, _ =>
      unary_reads_cons.mpr (.inr (primary_reads.mpr (.inr (.inl ⟨t.2, rfl, rfl⟩))))
  | .group opening inner closing, rest, _ => by
      have hinner := inner.reads (closing.1 :: rest)
        (endsExpression_of_kind rest closing.2 (.inr rfl))
      rw [Operators.tokens, List.cons_append, List.append_assoc]
      exact unary_reads_cons.mpr (.inr (primary_reads.mpr (.inr (.inr
        ⟨opening.2, inner.tree, closing.1, hinner, closing.2, rfl⟩))))

theorem Links.reads {l : Level} : (links : Links l) → ∀ left rest, StopsAt (some l) rest →
    (extend l left (links.tokens ++ rest)).Reads (links.tree left) rest
  | .nil, left, rest, h => by
      cases rest with
      | nil => exact extend_reads_nil.mpr ⟨rfl, rfl⟩
      | cons t r => exact extend_reads_cons.mpr (.inl ⟨h.joins, rfl, rfl⟩)
  | .cons op right links, left, rest, h => by
      have hright := right.reads _ (links.stopsAt h)
      have hlinks := links.reads (operation left op.1 right.tree) rest h
      rw [operation_eq_node op.2] at hlinks
      rw [Links.tokens, List.cons_append, List.append_assoc, Links.tree, operation_eq_node op.2]
      exact extend_reads_cons.mpr
        (.inr ⟨op.2, right.tree, links.tokens ++ rest, hright, hlinks⟩)

end

theorem Assignment.reads_before {k : TokenKind} (e : Assignment) (t : Leaf k)
    (rest : List Token) (hk : k = .semicolon ∨ k = .rightParen) :
    (assignment (e.tokens ++ t.1 :: rest)).Reads e.tree (t.1 :: rest) :=
  e.reads _ (endsExpression_of_kind rest t.2 hk)

mutual

theorem Assignment.tokens_eq_cons :
    (e : Assignment) → ∃ t r, e.tokens = t :: r ∧ startsExpression t.kind = true
  | .assign name equals value => ⟨name.1, _, rfl, by rw [name.2]; rfl⟩
  | .operators e => e.tokens_eq_cons

theorem Operators.tokens_eq_cons {o : Option Level} :
    (e : Operators o) → ∃ t r, e.tokens = t :: r ∧ startsExpression t.kind = true
  | .chain first links => by
      obtain ⟨t, r, hr, ht⟩ := first.tokens_eq_cons
      exact ⟨t, r ++ links.tokens, by rw [Operators.tokens, hr]; rfl, ht⟩
  | .prefixed op operand => by
      refine ⟨op.1, operand.tokens, rfl, ?_⟩
      rcases op.2 with h | h <;> rw [h] <;> rfl
  | .constant t => ⟨t.1, [], rfl, by simp [startsExpression, t.2]⟩
  | .name t => ⟨t.1, [], rfl, by rw [t.2]; rfl⟩
  | .group opening inner closing => ⟨opening.1, _, rfl, by rw [opening.2]; rfl⟩

end

/-- Expressions do not start with what may stand in their place. -/
theorem Assignment.exists_head (e : Assignment) (rest : List Token) :
    ∃ t r, e.tokens ++ rest = t :: r ∧ startsExpression t.kind = true := by
  obtain ⟨t, r, hr, ht⟩ := e.tokens_eq_cons
  exact ⟨t, r ++ rest, by rw [hr]; rfl, ht⟩

theorem Assignment.expressionStatement_reads (e : Assignment) (semicolon : Leaf .semicolon)
    (rest : List Token) :
    (expressionStatement (e.tokens ++ semicolon.1 :: rest)).Reads (.expression e.tree) rest :=
  Scriptlet.expressionStatement_reads.mpr
    ⟨e.tree, semicolon.1, e.reads_before semicolon rest (.inl rfl), semicolon.2, rfl⟩

theorem Assignment.statement_reads (stop : Token) (e : Assignment) (semicolon : Leaf .semicolon)
    (rest : List Token) :
    (statement stop (e.tokens ++ semicolon.1 :: rest)).Reads (.expression e.tree) rest := by
  have hread := e.expressionStatement_reads semicolon rest
  obtain ⟨t, r, hr, ht⟩ := e.exists_head (semicolon.1 :: rest)
  rw [hr] at hread ⊢
  exact (statement_reads_expression (startsCompound_of_startsExpression ht)).mpr hread

theorem VariableDeclaration.reads (d : VariableDeclaration) (rest : List Token) :
    ∃ r, d.tokens ++ rest = d.keyword.1 :: r ∧ (variableDeclaration r).Reads d.tree rest := by
  obtain ⟨keyword, name, initial, semicolon⟩ := d
  cases initial with
  | none =>
      refine ⟨name.1 :: semicolon.1 :: rest, rfl, ?_⟩
      exact variableDeclaration_reads.mpr
        ⟨name.1, semicolon.1, rest, rfl, name.2, .inl ⟨semicolon.2, rfl, rfl⟩⟩
  | some initial =>
      obtain ⟨equals, e⟩ := initial
      refine ⟨name.1 :: equals.1 :: (e.tokens ++ semicolon.1 :: rest), by simp [tokens], ?_⟩
      exact variableDeclaration_reads.mpr ⟨name.1, equals.1, _, rfl, name.2, .inr ⟨equals.2,
        e.tree, semicolon.1, e.reads_before semicolon rest (.inl rfl), semicolon.2, rfl⟩⟩

theorem Condition.reads {k : TokenKind} (c : Condition k) (what : Expectation)
    (rest : List Token) :
    ∃ r, c.tokens ++ rest = c.keyword.1 :: r ∧ (condition what r).Reads c.test.tree rest := by
  refine ⟨c.opening.1 :: (c.test.tokens ++ c.closing.1 :: rest), by simp [tokens], ?_⟩
  exact condition_reads.mpr ⟨c.opening.1, _, c.closing.1, rfl, c.opening.2,
    c.test.reads_before c.closing rest (.inr rfl), c.closing.2⟩

/-- A clause that is left out reads as a missing expression. -/
theorem clause_reads (e : Option Assignment) {k : TokenKind} (t : Leaf k) (what : Expectation)
    (rest : List Token) (hk : k = .semicolon ∨ k = .rightParen) :
    (clause k what (e.elim [] Assignment.tokens ++ t.1 :: rest)).Reads
      (e.elim .missing Assignment.tree) rest := by
  cases e with
  | none => exact clause_reads_cons.mpr (.inl ⟨t.2, rfl, rfl⟩)
  | some e =>
      have hread := e.reads_before t rest hk
      obtain ⟨u, r, hr, hu⟩ := e.exists_head (t.1 :: rest)
      simp only [Option.elim_some]
      rw [hr] at hread ⊢
      refine clause_reads_cons.mpr (.inr ⟨ne_of_startsExpression hu ?_, t.1, hread, t.2⟩)
      rcases hk with rfl | rfl <;> rfl

theorem ForInitial.reads (i : ForInitial) (rest : List Token) :
    (forInitial (i.tokens ++ rest)).Reads (i.tree?.getD .missing) rest := by
  cases i with
  | declaration d =>
      obtain ⟨r, hr, hread⟩ := d.reads rest
      rw [tokens, hr]
      exact forInitial_reads_cons.mpr (.inr (.inl ⟨d.keyword.2, hread⟩))
  | expression e semicolon =>
      have hread := e.expressionStatement_reads semicolon rest
      obtain ⟨t, r, hr, ht⟩ := e.exists_head (semicolon.1 :: rest)
      rw [tokens, List.append_assoc, List.singleton_append]
      rw [hr] at hread ⊢
      exact forInitial_reads_cons.mpr
        (.inr (.inr ⟨ne_of_startsExpression ht rfl, ne_of_startsExpression ht rfl, hread⟩))
  | absent semicolon => exact forInitial_reads_cons.mpr (.inl ⟨semicolon.2, rfl, rfl⟩)

/-- The clauses of a head, as the parser keeps them. -/
def ForHead.clauses (h : ForHead) : ForClauses where
  initial := h.initial.tree?.getD .missing
  condition := h.condition.elim .missing Assignment.tree
  increment := h.increment.elim .missing Assignment.tree

theorem ForHead.reads (h : ForHead) (rest : List Token) :
    ∃ r, h.tokens ++ rest = h.keyword.1 :: r ∧ (forClauses r).Reads h.clauses rest := by
  refine ⟨h.opening.1 :: (h.initial.tokens ++ (h.condition.elim [] Assignment.tokens ++
    h.semicolon.1 :: (h.increment.elim [] Assignment.tokens ++ h.closing.1 :: rest))),
    by simp [tokens], ?_⟩
  exact forClauses_reads.mpr ⟨h.opening.1, _, _, _, rfl, h.opening.2, h.initial.reads _,
    clause_reads h.condition h.semicolon _ _ (.inl rfl),
    clause_reads h.increment h.closing _ _ (.inr rfl)⟩

mutual

theorem Assignment.isMissing_tree : (e : Assignment) → e.tree.isMissing = false
  | .assign .. => rfl
  | .operators e => e.isMissing_tree

theorem Operators.isMissing_tree {o : Option Level} :
    (e : Operators o) → e.tree.isMissing = false
  | .chain first links => links.isMissing_tree first.isMissing_tree
  | .prefixed .. | .constant .. | .name .. | .group .. => rfl

theorem Links.isMissing_tree {l : Level} :
    (links : Links l) → {left : Expr} → left.isMissing = false →
      (links.tree left).isMissing = false
  | .nil, _, h => h
  | .cons op right links, left, _ => by
      refine links.isMissing_tree ?_
      unfold operation
      split <;> rfl

end

theorem isMissing_elim_tree (e : Option Assignment) :
    (e.elim .missing Assignment.tree).isMissing = e.isNone := by
  cases e with
  | none => rfl
  | some e => exact e.isMissing_tree

theorem ForInitial.isMissing_getD_tree? (i : ForInitial) :
    (i.tree?.getD .missing).isMissing = i.tree?.isNone := by
  cases i <;> rfl

/-- The loop that the parser makes of the clauses is the one that the head stands for. -/
theorem ForHead.loop_clauses (h : ForHead) (body : Stmt) : h.clauses.loop body = h.loop body := by
  simp only [ForClauses.loop, ForHead.loop, ForHead.clauses, isMissing_elim_tree,
    ForInitial.isMissing_getD_tree?]
  cases h.initial.tree? <;> cases h.condition <;> cases h.increment <;> rfl

/-- No `else` stands next. -/
def NoElse (s : List Token) : Prop :=
  ∀ t ∈ s.head?, t.kind ≠ .kwElse

theorem noElse_cons {t : Token} (s : List Token) (h : t.kind ≠ .kwElse) : NoElse (t :: s) := by
  rintro t ⟨⟩
  exact h

theorem Statement.tokens_eq_cons (s : Statement) :
    ∃ t r, s.tokens = t :: r ∧ (startsExpression t.kind || startsCompound t.kind) = true := by
  cases s with
  | expression e semicolon =>
      obtain ⟨t, r, hr, ht⟩ := e.exists_head [semicolon.1]
      exact ⟨t, r, hr, by rw [ht]; rfl⟩
  | print keyword e semicolon => exact ⟨keyword.1, _, rfl, by rw [keyword.2]; rfl⟩
  | block opening body closing => exact ⟨opening.1, _, rfl, by rw [opening.2]; rfl⟩
  | ifThen head s | ifElse head s _ _ | whileLoop head s | forLoop head s =>
      exact ⟨head.keyword.1, _, rfl, by rw [head.keyword.2]; rfl⟩

/-- What a statement starts with neither closes a block nor declares a variable nor is `else`. -/
theorem Statement.exists_head (s : Statement) (rest : List Token) :
    ∃ t r, s.tokens ++ rest = t :: r ∧ t.kind ≠ .rightBrace ∧ t.kind ≠ .kwVar ∧
      t.kind ≠ .kwElse := by
  obtain ⟨t, r, hr, ht⟩ := s.tokens_eq_cons
  refine ⟨t, r ++ rest, by rw [hr]; rfl, ?_⟩
  refine ⟨?_, ?_, ?_⟩ <;> intro hk <;> rw [hk] at ht <;> cases ht

theorem Declarations.noElse (ds : Declarations) {rest : List Token} (h : NoElse rest) :
    NoElse (ds.tokens ++ rest) := by
  cases ds with
  | nil => exact h
  | declare d ds =>
      refine noElse_cons _ ?_
      rw [d.keyword.2]
      decide
  | statement s ds =>
      obtain ⟨t, r, hr, -, -, ht⟩ := s.exists_head (ds.tokens ++ rest)
      rw [Declarations.tokens, List.append_assoc, hr]
      exact noElse_cons r ht

theorem ifThen_reads {stop : Token} {head : Condition .kwIf} {consequence : Stmt}
    {s rest : List Token} (h : (statement stop s).Reads consequence rest) (hrest : NoElse rest) :
    (statement stop (head.tokens ++ s)).Reads
      (.conditional head.test.tree consequence .missing) rest := by
  obtain ⟨r, hr, hread⟩ := head.reads .parenAfterIf s
  rw [hr]
  exact (statement_reads_if head.keyword.2).mpr
    ⟨head.test.tree, s, consequence, rest, hread, h, .inl ⟨hrest, rfl, rfl⟩⟩

theorem ifElse_reads {stop : Token} {head : Condition .kwIf} {separator : Leaf .kwElse}
    {consequence alternative : Stmt} {s r rest : List Token}
    (h : (statement stop s).Reads consequence (separator.1 :: r))
    (h' : (statement stop r).Reads alternative rest) :
    (statement stop (head.tokens ++ s)).Reads
      (.conditional head.test.tree consequence alternative) rest := by
  obtain ⟨r', hr, hread⟩ := head.reads .parenAfterIf s
  rw [hr]
  exact (statement_reads_if head.keyword.2).mpr ⟨head.test.tree, s, consequence, _, hread, h,
    .inr ⟨separator.1, r, alternative, rfl, separator.2, h', rfl⟩⟩

mutual

theorem Statement.reads (stop : Token) : (s : Statement) → s.NearestElse → ∀ rest,
    (s.endsOpen = true → NoElse rest) → (statement stop (s.tokens ++ rest)).Reads s.tree rest
  | .expression e semicolon, _, rest, _ => by
      rw [Statement.tokens, List.append_assoc]
      exact e.statement_reads stop semicolon rest
  | .print keyword e semicolon, _, rest, _ => by
      rw [Statement.tokens, List.cons_append, List.append_assoc]
      exact (statement_reads_print keyword.2).mpr
        ⟨e.tree, semicolon.1, e.reads_before semicolon rest (.inl rfl), semicolon.2, rfl⟩
  | .block opening body closing, nearest, rest, _ => by
      have hclosing : NoElse (closing.1 :: rest) :=
        noElse_cons rest (by rw [closing.2]; decide)
      have hbody := (body.extends stop true nearest hclosing).reads
        ((declarations_reads_close closing.2).mpr ⟨rfl, rfl⟩)
      rw [List.append_nil] at hbody
      rw [Statement.tokens, List.cons_append, List.append_assoc]
      exact (statement_reads_block opening.2).mpr ⟨body.program, closing.1, hbody, closing.2, rfl⟩
  | .ifThen head s, nearest, rest, h => by
      rw [Statement.tokens, List.append_assoc]
      exact ifThen_reads (s.reads stop nearest rest fun _ => h rfl) (h rfl)
  | .ifElse head consequence separator alternative, ⟨closed, nearest, nearest'⟩, rest, h => by
      rw [Statement.tokens, List.append_assoc, List.append_assoc]
      refine ifElse_reads (consequence.reads stop nearest _ fun opened => ?_)
        (alternative.reads stop nearest' rest h)
      rw [closed] at opened
      cases opened
  | .whileLoop head s, nearest, rest, h => by
      obtain ⟨r, hr, hread⟩ := head.reads .parenAfterWhile (s.tokens ++ rest)
      rw [Statement.tokens, List.append_assoc, hr]
      exact (statement_reads_while head.keyword.2).mpr
        ⟨head.test.tree, _, s.tree, hread, s.reads stop nearest rest h, rfl⟩
  | .forLoop head s, nearest, rest, h => by
      obtain ⟨r, hr, hread⟩ := head.reads (s.tokens ++ rest)
      rw [Statement.tokens, List.append_assoc, hr]
      exact (statement_reads_for head.keyword.2).mpr
        ⟨head.clauses, _, s.tree, hread, s.reads stop nearest rest h, head.loop_clauses s.tree⟩

/-- Declarations in front of others are read without touching them. -/
theorem Declarations.extends (stop : Token) (inBlock : Bool) : (ds : Declarations) →
    ds.NearestElse → {rest : List Token} → NoElse rest →
      (declarations stop inBlock (ds.tokens ++ rest)).Extends ds.program
        (declarations stop inBlock rest)
  | .nil, _, _, _ => ⟨rfl, rfl, rfl⟩
  | .declare d ds, nearest, rest, h => by
      obtain ⟨r, hr, hread⟩ := d.reads (ds.tokens ++ rest)
      have hkeyword : (inBlock && decide (d.keyword.1.kind = .rightBrace)) = false := by
        rw [d.keyword.2]
        simp
      have hd : (declaration stop (d.keyword.1 :: r)).Reads d.tree (ds.tokens ++ rest) :=
        declaration_reads_cons.mpr (.inl ⟨d.keyword.2, hread⟩)
      rw [Declarations.tokens, List.append_assoc, hr]
      exact (declarations_extends hkeyword hd).trans (ds.extends stop inBlock nearest h)
  | .statement s ds, nearest, rest, h => by
      have hread := s.reads stop nearest.1 (ds.tokens ++ rest) fun _ => ds.noElse h
      obtain ⟨t, r, hr, hbrace, hvar, -⟩ := s.exists_head (ds.tokens ++ rest)
      rw [hr] at hread
      have hd : (declaration stop (t :: r)).Reads s.tree (ds.tokens ++ rest) :=
        declaration_reads_cons.mpr (.inr ⟨hvar, hread⟩)
      rw [Declarations.tokens, List.append_assoc, hr]
      exact (declarations_extends (by simp [hbrace]) hd).trans (ds.extends stop inBlock nearest.2 h)

end

end Derivation

end Scriptlet
