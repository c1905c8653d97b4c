import Scriptlet.Proofs.Derivation
import Scriptlet.Proofs.Grammar

/-!
Derivation trees and derivable words. The tokens of a tree have a word of kinds that the grammar
derives, and tokens whose kinds the grammar derives are those of a tree.
-/

namespace Scriptlet.Derivation

open Grammar

/-- The rule that derives the expressions of a level. -/
def levelRule : Option Level → Rule
  | none => .unary
  | some .disjunction => .disjunction
  | some .conjunction => .conjunction
  | some .equality => .equality
  | some .comparison => .comparison
  | some .term => .term
  | some .factor => .factor

/-- The operators of a level, as its rule lists them. -/
def operatorPattern : Level → Pattern
  | .disjunction => .token .kwOr
  | .conjunction => .token .kwAnd
  | .equality => .alt (.token .bangEqual) (.token .equalEqual)
  | .comparison =>
      .alt (.alt (.alt (.token .greater) (.token .greaterEqual)) (.token .less))
        (.token .lessEqual)
  | .term => .alt (.token .minus) (.token .plus)
  | .factor => .alt (.token .slash) (.token .star)

theorem pattern_levelRule (l : Level) :
    (levelRule (some l)).pattern =
      .seq (.rule (levelRule l.tighter?))
        (.many (.seq (operatorPattern l) (.rule (levelRule l.tighter?)))) := by
  cases l <;> rfl

theorem derives_operatorPattern {l : Level} {k : TokenKind} (h : l.joins k = true) :
    Derives (operatorPattern l) [k] := by
  cases l <;> cases k <;> simp only [Level.joins, reduceCtorEq] at h
  · exact .token _
  · exact .token _
  · exact .left (.token _)
  · exact .right (.token _)
  · exact .left (.left (.left (.token _)))
  · exact .left (.left (.right (.token _)))
  · exact .left (.right (.token _))
  · exact .right (.token _)
  · exact .left (.token _)
  · exact .right (.token _)
  · exact .left (.token _)
  · exact .right (.token _)

theorem derives_leaf {k : TokenKind} (t : Leaf k) : Derives (.token k) [t.1.kind] := by
  obtain ⟨t, rfl⟩ := t
  exact .token _

theorem derives_constant {k : TokenKind} (h : isConstant k = true) :
    Derives (.rule .primary) [k] := by
  cases k <;> simp only [isConstant, reduceCtorEq] at h
  · exact .rule (.left (.left (.right (.token _))))
  · exact .rule (.left (.left (.left (.right (.token _)))))
  · exact .rule (.left (.left (.left (.left (.left (.right (.token _)))))))
  · exact .rule (.left (.left (.left (.left (.right (.token _))))))
  · exact .rule (.left (.left (.left (.left (.left (.left (.token _)))))))

mutual

theorem Assignment.derives : (e : Assignment) → Derives (.rule .assignment) (e.tokens.map Token.kind)
  | .assign name equals value => by
      have h := Derives.seq (.seq (derives_leaf name) (derives_leaf equals)) value.derives
      exact .rule (.left h)
  | .operators e => .rule (.right e.derives)

theorem Operators.derives {o : Option Level} :
    (e : Operators o) → Derives (.rule (levelRule o)) (e.tokens.map Token.kind)
  | .chain (l := l) first links => by
      refine .rule ?_
      rw [pattern_levelRule, Operators.tokens, List.map_append]
      exact .seq first.derives links.derives
  | .prefixed ⟨op, h⟩ operand => by
      refine .rule (.left (.seq (v := [op.kind]) ?_ operand.derives))
      rcases h with h | h
      · exact h ▸ .left (.token _)
      · exact h ▸ .right (.token _)
  | .constant ⟨_, h⟩ => .rule (.right (derives_constant h))
  | .name t => .rule (.right (.rule (.left (.right (derives_leaf t)))))
  | .group opening inner closing => by
      refine .rule (.right (.rule (.right (Derives.of_eq (.seq (.seq (derives_leaf opening)
        (.rule (r := .expression) inner.derives)) (derives_leaf closing)) ?_))))
      simp [Operators.tokens]

theorem Links.derives {l : Level} :
    (links : Links l) →
      Derives (.many (.seq (operatorPattern l) (.rule (levelRule l.tighter?))))
        (links.tokens.map Token.kind)
  | .nil => .manyNil
  | .cons op right links => by
      refine Derives.of_eq
        (.manyCons (.seq (derives_operatorPattern op.2) right.derives) links.derives) ?_
      simp [Links.tokens]

end

theorem Assignment.derives_expression (e : Assignment) :
    Derives (.rule .expression) (e.tokens.map Token.kind) :=
  .rule e.derives

theorem derives_optional_expression (e : Option Assignment) :
    Derives (.optional (.rule .expression)) ((e.elim [] Assignment.tokens).map Token.kind) := by
  cases e with
  | none => exact .absent
  | some e => exact .present e.derives_expression

theorem derives_expressionStatement (e : Assignment) (semicolon : Leaf .semicolon) :
    Derives (.rule .expressionStatement) ((e.tokens ++ [semicolon.1]).map Token.kind) := by
  rw [List.map_append]
  exact .rule (.seq e.derives_expression (derives_leaf semicolon))

theorem VariableDeclaration.derives (d : VariableDeclaration) :
    Derives (.rule .variableDeclaration) (d.tokens.map Token.kind) := by
  obtain ⟨keyword, name, initial, semicolon⟩ := d
  have front := Derives.seq (derives_leaf keyword) (derives_leaf name)
  cases initial with
  | none =>
      refine .rule (Derives.of_eq (.seq (.seq front .absent) (derives_leaf semicolon)) ?_)
      simp [tokens]
  | some initial =>
      obtain ⟨equals, e⟩ := initial
      have value := Derives.seq (derives_leaf equals) e.derives_expression
      refine .rule (Derives.of_eq (.seq (.seq front (.present value)) (derives_leaf semicolon)) ?_)
      simp [tokens]

theorem Condition.derives {k : TokenKind} (c : Condition k) :
    Derives (.seq (.seq (.seq (.token k) (.token .leftParen)) (.rule .expression))
      (.token .rightParen)) (c.tokens.map Token.kind) := by
  refine Derives.of_eq (.seq (.seq (.seq (derives_leaf c.keyword) (derives_leaf c.opening))
    c.test.derives_expression) (derives_leaf c.closing)) ?_
  simp [tokens]

theorem ForInitial.derives (i : ForInitial) :
    Derives (.alt (.alt (.rule .variableDeclaration) (.rule .expressionStatement))
      (.token .semicolon)) (i.tokens.map Token.kind) := by
  cases i with
  | declaration d => exact .left (.left d.derives)
  | expression e semicolon => exact .left (.right (derives_expressionStatement e semicolon))
  | absent semicolon => exact .right (derives_leaf semicolon)

theorem ForHead.derives_followed (h : ForHead) {w : List TokenKind}
    (body : Derives (.rule .statement) w) :
    Derives (.rule .forStatement) (h.tokens.map Token.kind ++ w) := by
  have clauses := Derives.seq (.seq (.seq (.seq (.seq (.seq
    (derives_leaf h.keyword) (derives_leaf h.opening)) h.initial.derives)
    (derives_optional_expression h.condition)) (derives_leaf h.semicolon))
    (derives_optional_expression h.increment)) (derives_leaf h.closing)
  refine .rule (Derives.of_eq (.seq clauses body) ?_)
  simp [tokens]

mutual

theorem Statement.derives :
    (s : Statement) → Derives (.rule .statement) (s.tokens.map Token.kind)
  | .expression e semicolon =>
      .rule (.left (.left (.left (.left (.left (derives_expressionStatement e semicolon))))))
  | .print keyword e semicolon => by
      refine .rule (.left (.left (.left (.left (.right (.rule (Derives.of_eq
        (.seq (.seq (derives_leaf keyword) e.derives_expression) (derives_leaf semicolon)) ?_)))))))
      simp [Statement.tokens]
  | .block opening body closing => by
      refine .rule (.left (.left (.left (.right (.rule (Derives.of_eq
        (.seq (.seq (derives_leaf opening) body.derives) (derives_leaf closing)) ?_))))))
      simp [Statement.tokens]
  | .ifThen head consequence => by
      refine .rule (.left (.left (.right (.rule (Derives.of_eq
        (.seq (.seq head.derives consequence.derives) .absent) ?_)))))
      simp [Statement.tokens]
  | .ifElse head consequence separator alternative => by
      have otherwise := Derives.seq (derives_leaf separator) alternative.derives
      refine .rule (.left (.left (.right (.rule (Derives.of_eq
        (.seq (.seq head.derives consequence.derives) (.present otherwise)) ?_)))))
      simp [Statement.tokens]
  | .whileLoop head body => by
      refine .rule (.left (.right (.rule (Derives.of_eq (.seq head.derives body.derives) ?_))))
      simp [Statement.tokens]
  | .forLoop head body => by
      refine .rule (.right (Derives.of_eq (head.derives_followed body.derives) ?_))
      simp [Statement.tokens]

theorem Declarations.derives :
    (ds : Declarations) → Derives (.many (.rule .declaration)) (ds.tokens.map Token.kind)
  | .nil => .manyNil
  | .declare d rest => by
      refine Derives.of_eq (.manyCons (.rule (.left d.derives)) rest.derives) ?_
      simp [Declarations.tokens]
  | .statement s rest => by
      refine Derives.of_eq (.manyCons (.rule (.right s.derives)) rest.derives) ?_
      simp [Declarations.tokens]

end

/-- Tokens that a tree of a rule may have. -/
def Spells : Rule → List Token → Prop
  | .program, p => ∃ ds : Declarations, ds.tokens = p
  | .declaration, p =>
      (∃ d : VariableDeclaration, d.tokens = p) ∨ ∃ s : Statement, s.tokens = p
  | .variableDeclaration, p => ∃ d : VariableDeclaration, d.tokens = p
  | .expressionStatement, p =>
      ∃ (e : Assignment) (semicolon : Leaf .semicolon), e.tokens ++ [semicolon.1] = p
  | .statement, p | .printStatement, p | .block, p | .ifStatement, p | .whileStatement, p
  | .forStatement, p => ∃ s : Statement, s.tokens = p
  | .expression, p | .assignment, p => ∃ e : Assignment, e.tokens = p
  | .disjunction, p => ∃ e : Operators (some .disjunction), e.tokens = p
  | .conjunction, p => ∃ e : Operators (some .conjunction), e.tokens = p
  | .equality, p => ∃ e : Operators (some .equality), e.tokens = p
  | .comparison, p => ∃ e : Operators (some .comparison), e.tokens = p
  | .term, p => ∃ e : Operators (some .term), e.tokens = p
  | .factor, p => ∃ e : Operators (some .factor), e.tokens = p
  | .unary, p | .primary, p => ∃ e : Operators none, e.tokens = p

/-- Tokens that match a pattern whose rules are matched by trees. -/
def Matches : Pattern → List Token → Prop
  | .token k, p => ∃ t : Leaf k, p = [t.1]
  | .rule r, p => Spells r p
  | .seq a b, p => ∃ u v, p = u ++ v ∧ Matches a u ∧ Matches b v
  | .alt a b, p => Matches a p ∨ Matches b p
  | .many a, p => ∃ ps : List (List Token), p = ps.flatten ∧ ∀ q ∈ ps, Matches a q
  | .optional a, p => p = [] ∨ Matches a p

theorem spells_levelRule {o : Option Level} {p : List Token} :
    Spells (levelRule o) p ↔ ∃ e : Operators o, e.tokens = p := by
  cases o with
  | none => rfl
  | some l => cases l <;> rfl

theorem joins_of_matches {l : Level} {p : List Token} (h : Matches (operatorPattern l) p) :
    ∃ op : { t : Token // l.joins t.kind = true }, p = [op.1] := by
  cases l
  case disjunction | conjunction =>
    obtain ⟨⟨t, ht⟩, rfl⟩ := h
    exact ⟨⟨t, by rw [ht]; rfl⟩, rfl⟩
  case equality | term | factor =>
    obtain ⟨⟨t, ht⟩, rfl⟩ | ⟨⟨t, ht⟩, rfl⟩ := h <;> exact ⟨⟨t, by rw [ht]; rfl⟩, rfl⟩
  case comparison =>
    obtain ((⟨⟨t, ht⟩, rfl⟩ | ⟨⟨t, ht⟩, rfl⟩) | ⟨⟨t, ht⟩, rfl⟩) | ⟨⟨t, ht⟩, rfl⟩ := h <;>
      exact ⟨⟨t, by rw [ht]; rfl⟩, rfl⟩

theorem exists_links (l : Level) (ps : List (List Token))
    (h : ∀ q ∈ ps, Matches (.seq (operatorPattern l) (.rule (levelRule l.tighter?))) q) :
    ∃ links : Links l, links.tokens = ps.flatten := by
  induction ps with
  | nil => exact ⟨.nil, rfl⟩
  | cons q ps ih =>
      obtain ⟨links, hlinks⟩ := ih fun q' hq' => h q' (List.mem_cons_of_mem _ hq')
      obtain ⟨u, v, rfl, hop, hright⟩ := h q List.mem_cons_self
      obtain ⟨op, rfl⟩ := joins_of_matches hop
      obtain ⟨right, rfl⟩ := spells_levelRule.mp hright
      exact ⟨.cons op right links, by simp [Links.tokens, hlinks]⟩

theorem spells_chain (l : Level) (p : List Token)
    (h : Matches (levelRule (some l)).pattern p) : ∃ e : Operators (some l), e.tokens = p := by
  rw [pattern_levelRule] at h
  obtain ⟨u, v, rfl, hfirst, ps, rfl, hps⟩ := h
  obtain ⟨first, rfl⟩ := spells_levelRule.mp hfirst
  obtain ⟨links, hlinks⟩ := exists_links l ps hps
  exact ⟨.chain first links, by simp [Operators.tokens, hlinks]⟩

theorem exists_declarations (ps : List (List Token))
    (h : ∀ q ∈ ps, Matches (.rule .declaration) q) :
    ∃ ds : Declarations, ds.tokens = ps.flatten := by
  induction ps with
  | nil => exact ⟨.nil, rfl⟩
  | cons q ps ih =>
      obtain ⟨ds, hds⟩ := ih fun q' hq' => h q' (List.mem_cons_of_mem _ hq')
      obtain ⟨d, rfl⟩ | ⟨s, rfl⟩ := h q List.mem_cons_self
      · exact ⟨.declare d ds, by simp [Declarations.tokens, hds]⟩
      · exact ⟨.statement s ds, by simp [Declarations.tokens, hds]⟩

theorem exists_condition {k : TokenKind} {p : List Token}
    (h : Matches (.seq (.seq (.seq (.token k) (.token .leftParen)) (.rule .expression))
      (.token .rightParen)) p) : ∃ c : Condition k, c.tokens = p := by
  obtain ⟨_, _, rfl, ⟨_, _, rfl, ⟨_, _, rfl, ⟨keyword, rfl⟩, opening, rfl⟩, test, rfl⟩, closing,
    rfl⟩ := h
  exact ⟨⟨keyword, opening, test, closing⟩, by simp [Condition.tokens]⟩

theorem exists_optional_expression {p : List Token}
    (h : Matches (.optional (.rule .expression)) p) :
    ∃ e : Option Assignment, e.elim [] Assignment.tokens = p := by
  obtain rfl | ⟨e, rfl⟩ := h
  · exact ⟨none, rfl⟩
  · exact ⟨some e, rfl⟩

theorem exists_forInitial {p : List Token}
    (h : Matches (.alt (.alt (.rule .variableDeclaration) (.rule .expressionStatement))
      (.token .semicolon)) p) : ∃ i : ForInitial, i.tokens = p := by
  obtain (⟨d, rfl⟩ | ⟨e, semicolon, rfl⟩) | ⟨semicolon, rfl⟩ := h
  · exact ⟨.declaration d, rfl⟩
  · exact ⟨.expression e semicolon, rfl⟩
  · exact ⟨.absent semicolon, rfl⟩

theorem spells_variableDeclaration {p : List Token}
    (h : Matches (Rule.pattern .variableDeclaration) p) :
    ∃ d : VariableDeclaration, d.tokens = p := by
  obtain ⟨_, _, rfl, ⟨_, _, rfl, ⟨_, _, rfl, ⟨keyword, rfl⟩, name, rfl⟩, initial⟩, semicolon,
    rfl⟩ := h
  obtain rfl | ⟨_, _, rfl, ⟨equals, rfl⟩, e, rfl⟩ := initial
  · exact ⟨⟨keyword, name, none, semicolon⟩, by simp [VariableDeclaration.tokens]⟩
  · exact ⟨⟨keyword, name, some (equals, e), semicolon⟩, by simp [VariableDeclaration.tokens]⟩

theorem spells_ifStatement {p : List Token} (h : Matches (Rule.pattern .ifStatement) p) :
    ∃ s : Statement, s.tokens = p := by
  obtain ⟨_, _, rfl, ⟨_, _, rfl, hhead, consequence, rfl⟩, otherwise⟩ := h
  obtain ⟨head, rfl⟩ := exists_condition hhead
  obtain rfl | ⟨_, _, rfl, ⟨separator, rfl⟩, alternative, rfl⟩ := otherwise
  · exact ⟨.ifThen head consequence, by simp [Statement.tokens]⟩
  · exact ⟨.ifElse head consequence separator alternative, by simp [Statement.tokens]⟩

theorem spells_forStatement {p : List Token} (h : Matches (Rule.pattern .forStatement) p) :
    ∃ s : Statement, s.tokens = p := by
  obtain ⟨_, _, rfl, ⟨_, _, rfl, ⟨_, _, rfl, ⟨_, _, rfl, ⟨_, _, rfl, ⟨_, _, rfl, ⟨_, _, rfl,
    ⟨keyword, rfl⟩, opening, rfl⟩, hinitial⟩, hcondition⟩, semicolon, rfl⟩, hincrement⟩, closing,
    rfl⟩, body, rfl⟩ := h
  obtain ⟨initial, rfl⟩ := exists_forInitial hinitial
  obtain ⟨condition, rfl⟩ := exists_optional_expression hcondition
  obtain ⟨increment, rfl⟩ := exists_optional_expression hincrement
  refine ⟨.forLoop ⟨keyword, opening, initial, condition, semicolon, increment, closing⟩ body, ?_⟩
  simp [Statement.tokens, ForHead.tokens]

theorem spells_primary {p : List Token} (h : Matches (Rule.pattern .primary) p) :
    ∃ e : Operators none, e.tokens = p := by
  obtain ((((((⟨⟨t, ht⟩, rfl⟩ | ⟨⟨t, ht⟩, rfl⟩) | ⟨⟨t, ht⟩, rfl⟩) | ⟨⟨t, ht⟩, rfl⟩) |
    ⟨⟨t, ht⟩, rfl⟩) | ⟨name, rfl⟩) | ⟨_, _, rfl, ⟨_, _, rfl, ⟨opening, rfl⟩, inner, rfl⟩, closing,
    rfl⟩) := h
  case inr => exact ⟨.group opening inner closing, by simp [Operators.tokens]⟩
  case inl.inr => exact ⟨.name name, rfl⟩
  all_goals exact ⟨.constant ⟨t, by rw [ht]; rfl⟩, rfl⟩

/-- What matches the right side of a rule is spelled by a tree of the rule. -/
theorem spells_of_matches (r : Rule) (p : List Token) (h : Matches r.pattern p) :
    Spells r p := by
  cases r with
  | program =>
      obtain ⟨ps, rfl, hps⟩ := h
      exact exists_declarations ps hps
  | declaration | expression => exact h
  | variableDeclaration => exact spells_variableDeclaration h
  | statement =>
      obtain ((((⟨e, semicolon, rfl⟩ | s) | s) | s) | s) | s := h
      case inl.inl.inl.inl.inl => exact ⟨.expression e semicolon, rfl⟩
      all_goals exact s
  | expressionStatement =>
      obtain ⟨_, _, rfl, ⟨e, rfl⟩, semicolon, rfl⟩ := h
      exact ⟨e, semicolon, rfl⟩
  | printStatement =>
      obtain ⟨_, _, rfl, ⟨_, _, rfl, ⟨keyword, rfl⟩, e, rfl⟩, semicolon, rfl⟩ := h
      exact ⟨.print keyword e semicolon, by simp [Statement.tokens]⟩
  | block =>
      obtain ⟨_, _, rfl, ⟨_, _, rfl, ⟨opening, rfl⟩, ps, rfl, hps⟩, closing, rfl⟩ := h
      obtain ⟨body, hbody⟩ := exists_declarations ps hps
      exact ⟨.block opening body closing, by simp [Statement.tokens, hbody]⟩
  | ifStatement => exact spells_ifStatement h
  | whileStatement =>
      obtain ⟨_, _, rfl, hhead, body, rfl⟩ := h
      obtain ⟨head, rfl⟩ := exists_condition hhead
      exact ⟨.whileLoop head body, rfl⟩
  | forStatement => exact spells_forStatement h
  | assignment =>
      obtain ⟨_, _, rfl, ⟨_, _, rfl, ⟨name, rfl⟩, equals, rfl⟩, value, rfl⟩ | ⟨e, rfl⟩ := h
      · exact ⟨.assign name equals value, rfl⟩
      · exact ⟨.operators e, rfl⟩
  | disjunction => exact spells_chain .disjunction p h
  | conjunction => exact spells_chain .conjunction p h
  | equality => exact spells_chain .equality p h
  | comparison => exact spells_chain .comparison p h
  | term => exact spells_chain .term p h
  | factor => exact spells_chain .factor p h
  | unary =>
      obtain ⟨_, _, rfl, ⟨op, rfl⟩ | ⟨op, rfl⟩, operand, rfl⟩ | e := h
      · exact ⟨.prefixed ⟨op.1, .inl op.2⟩ operand, rfl⟩
      · exact ⟨.prefixed ⟨op.1, .inr op.2⟩ operand, rfl⟩
      · exact e
  | primary => exact spells_primary h

theorem matches_of_derives {a : Pattern} {w : List TokenKind} (h : Derives a w) :
    ∀ p : List Token, p.map Token.kind = w → Matches a p := by
  induction h with
  | token k =>
      intro p hp
      obtain ⟨t, rfl, ht⟩ := List.map_eq_singleton_iff.mp hp
      exact ⟨⟨t, ht⟩, rfl⟩
  | rule _ ih =>
      intro p hp
      exact spells_of_matches _ p (ih p hp)
  | seq _ _ ih ih' =>
      intro p hp
      obtain ⟨u, v, rfl, hu, hv⟩ := List.map_eq_append_iff.mp hp
      exact ⟨u, v, rfl, ih u hu, ih' v hv⟩
  | left _ ih => exact fun p hp => .inl (ih p hp)
  | right _ ih => exact fun p hp => .inr (ih p hp)
  | manyNil => exact fun p hp => ⟨[], List.map_eq_nil_iff.mp hp, by simp⟩
  | manyCons _ _ ih ih' =>
      intro p hp
      obtain ⟨u, v, rfl, hu, hv⟩ := List.map_eq_append_iff.mp hp
      obtain ⟨ps, rfl, hps⟩ := ih' v hv
      exact ⟨u :: ps, rfl, List.forall_mem_cons.mpr ⟨ih u hu, hps⟩⟩
  | absent => exact fun p hp => .inl (List.map_eq_nil_iff.mp hp)
  | present _ ih => exact fun p hp => .inr (ih p hp)

/-- The grammar derives a program from the kinds of tokens exactly if a tree has these tokens. -/
theorem derives_program_iff (p : List Token) :
    Derives (.rule .program) (p.map Token.kind) ↔ ∃ ds : Declarations, ds.tokens = p := by
  constructor
  · exact fun h => matches_of_derives h p rfl
  · rintro ⟨ds, rfl⟩
    exact .rule ds.derives

end Scriptlet.Derivation
