import Scriptlet.Proofs.TransparentGroupings
import Scriptlet.Proofs.UnfinishedStatements

/-!
Every expression tree can be written down. Parentheses are put around the operands that bind looser
than their place allows, and nowhere else; the tokens of the result, read from left to right, are
then read as exactly this tree.
-/

namespace Scriptlet

/-- How loosely an operator between two operands binds: the greater the rank, the looser. -/
def operatorRank : TokenKind → Nat
  | .kwOr => 6
  | .kwAnd => 5
  | .bangEqual | .equalEqual => 4
  | .greater | .greaterEqual | .less | .lessEqual => 3
  | .minus | .plus => 2
  | .slash | .star => 1
  | _ => 0

namespace Expr

/-- Trees of operators, assignments, names and literals of the language, without groupings. -/
def IsBare : Expr → Prop
  | .literal value => ∀ n, value ≠ .integer n
  | .variable name => name.kind = .identifier
  | .assign name value => name.kind = .identifier ∧ value.IsBare
  | .unary op operand => (op.kind = .bang ∨ op.kind = .minus) ∧ operand.IsBare
  | .binary left op right => isBinaryOperator op.kind = true ∧ left.IsBare ∧ right.IsBare
  | .logical left op right =>
      (op.kind = .kwAnd ∨ op.kind = .kwOr) ∧ left.IsBare ∧ right.IsBare
  | .grouping _ | .missing | .foreign _ => False

/-- The rank of the rule that an expression is written by. Assignments bind loosest; unary
expressions, names, literals and groupings stand anywhere. -/
def rank : Expr → Nat
  | .assign .. => 7
  | .binary _ op _ | .logical _ op _ => operatorRank op.kind
  | _ => 0

/-- The expression in a place that takes rules up to a rank, in parentheses if it binds looser. -/
def inPlace (limit : Nat) (e : Expr) : Expr :=
  if e.rank ≤ limit then e else .grouping e

/-- The expression with parentheses around the operands that need them. Chains go to the left, so a
right operand has to bind tighter than its operator, a left one only as tight. Anything may be
assigned. -/
def parenthesized : Expr → Expr
  | .unary op operand => .unary op (operand.parenthesized.inPlace 0)
  | .binary left op right =>
      .binary (left.parenthesized.inPlace (operatorRank op.kind)) op
        (right.parenthesized.inPlace (operatorRank op.kind - 1))
  | .logical left op right =>
      .logical (left.parenthesized.inPlace (operatorRank op.kind)) op
        (right.parenthesized.inPlace (operatorRank op.kind - 1))
  | .assign name value => .assign name value.parenthesized
  | .grouping inner => .grouping inner.parenthesized
  | .literal value => .literal value
  | .variable name => .variable name
  | .missing => .missing
  | .foreign typeName => .foreign typeName

end Expr

/-- The tokens of a literal: a reserved word, or a number or string that carries the value. -/
def Literal.WrittenAs (t : Token) : Literal → Prop
  | .nil => t.kind = .kwNil
  | .bool true => t.kind = .kwTrue
  | .bool false => t.kind = .kwFalse
  | .number x => t.kind = .number ∧ t.literal = .number x
  | .string s => t.kind = .string ∧ t.literal = .string s
  | .integer _ => False

/-- The tokens of an expression in order. Names and operators are those of the tree; literals, the
sign of an assignment and parentheses may be any tokens of their kinds. -/
inductive Expr.WrittenAs : Expr → List Token → Prop where
  | literal {value : Literal} {t : Token} (h : value.WrittenAs t) : WrittenAs (.literal value) [t]
  | variable (name : Token) : WrittenAs (.variable name) [name]
  | assign (name : Token) {equals : Token} {value : Expr} {tokens : List Token}
      (heq : equals.kind = .equal) (h : WrittenAs value tokens) :
      WrittenAs (.assign name value) (name :: equals :: tokens)
  | unary (op : Token) {operand : Expr} {tokens : List Token} (h : WrittenAs operand tokens) :
      WrittenAs (.unary op operand) (op :: tokens)
  | binary (op : Token) {left right : Expr} {before behind : List Token}
      (hl : WrittenAs left before) (hr : WrittenAs right behind) :
      WrittenAs (.binary left op right) (before ++ op :: behind)
  | logical (op : Token) {left right : Expr} {before behind : List Token}
      (hl : WrittenAs left before) (hr : WrittenAs right behind) :
      WrittenAs (.logical left op right) (before ++ op :: behind)
  | grouping {opening closing : Token} {inner : Expr} {tokens : List Token}
      (ho : opening.kind = .leftParen) (hc : closing.kind = .rightParen)
      (h : WrittenAs inner tokens) :
      WrittenAs (.grouping inner) (opening :: (tokens ++ [closing]))

/-! Derivations of written expressions. -/

namespace Derivation

def Links.snoc {l : Level} : Links l → { t : Token // l.joins t.kind = true } →
    Operators l.tighter? → Links l
  | .nil, op, right => .cons op right .nil
  | .cons first operand links, op, right => .cons first operand (links.snoc op right)

theorem Links.tokens_snoc {l : Level} : (links : Links l) →
    (op : { t : Token // l.joins t.kind = true }) → (right : Operators l.tighter?) →
      (links.snoc op right).tokens = links.tokens ++ op.1 :: right.tokens
  | .nil, op, right => by simp [snoc, Links.tokens]
  | .cons first operand links, op, right => by simp [snoc, Links.tokens, links.tokens_snoc op right]

theorem Links.tree_snoc {l : Level} (op : { t : Token // l.joins t.kind = true })
    (right : Operators l.tighter?) :
    (links : Links l) → (left : Expr) →
      (links.snoc op right).tree left = operation (links.tree left) op.1 right.tree
  | .nil, _ => rfl
  | .cons _ _ links, _ => links.tree_snoc op right _

/-- The tokens derive the expression at a level. -/
def DerivesAt (o : Option Level) (e : Expr) (tokens : List Token) : Prop :=
  ∃ d : Operators o, d.tree = e ∧ d.tokens = tokens

/-- The tokens derive the expression by the loosest rule. -/
def DerivesExpression (e : Expr) (tokens : List Token) : Prop :=
  ∃ d : Assignment, d.tree = e ∧ d.tokens = tokens

section Rules

variable {e left right : Expr} {tokens before behind : List Token}

theorem rank_tighter_eq (l : Level) : l.tighter?.elim 0 Level.rank = l.rank - 1 := by
  cases l <;> rfl

theorem eq_of_rank_eq {o o' : Option Level} (h : o.elim 0 Level.rank = o'.elim 0 Level.rank) :
    o = o' := by
  cases o with
  | none =>
      cases o' with
      | none => rfl
      | some m => cases m <;> cases h
  | some l => cases o' with
      | none => cases l <;> cases h
      | some m => cases l <;> cases m <;> simp [Level.rank] at h ⊢

/-- What is derived at a level is derived at every looser one. -/
theorem DerivesAt.loosen {o : Option Level} (h : DerivesAt o e tokens) (o' : Option Level)
    (hle : o.elim 0 Level.rank ≤ o'.elim 0 Level.rank) : DerivesAt o' e tokens := by
  by_cases heq : o.elim 0 Level.rank = o'.elim 0 Level.rank
  · exact eq_of_rank_eq heq ▸ h
  · match o' with
    | none => exact absurd (Nat.le_zero.mp hle) heq
    | some l =>
        have htighter : o.elim 0 Level.rank ≤ l.tighter?.elim 0 Level.rank := by
          rw [rank_tighter_eq]
          exact Nat.le_sub_one_of_lt (Nat.lt_of_le_of_ne hle heq)
        obtain ⟨d, htree, htokens⟩ := h.loosen l.tighter? htighter
        refine ⟨.chain d .nil, htree, ?_⟩
        rw [Operators.tokens, htokens, Links.tokens, List.append_nil]
termination_by o'.elim 0 Level.rank
decreasing_by exact rank_tighter_lt l

theorem rank_le_disjunction (o : Option Level) :
    o.elim 0 Level.rank ≤ Level.disjunction.rank := by
  cases o with
  | none => exact Nat.zero_le _
  | some l => cases l <;> decide

theorem DerivesAt.expression {o : Option Level} (h : DerivesAt o e tokens) :
    DerivesExpression e tokens := by
  obtain ⟨d, htree, htokens⟩ := h.loosen (some .disjunction) (rank_le_disjunction o)
  exact ⟨.operators d, htree, htokens⟩

theorem DerivesExpression.group {opening closing : Token} (h : DerivesExpression e tokens)
    (ho : opening.kind = .leftParen) (hc : closing.kind = .rightParen) :
    DerivesAt none (.grouping e) (opening :: (tokens ++ [closing])) := by
  obtain ⟨d, rfl, rfl⟩ := h
  exact ⟨.group ⟨opening, ho⟩ d ⟨closing, hc⟩, rfl, rfl⟩

theorem DerivesExpression.assign {name equals : Token} (h : DerivesExpression e tokens)
    (hname : name.kind = .identifier) (heq : equals.kind = .equal) :
    DerivesExpression (.assign name e) (name :: equals :: tokens) := by
  obtain ⟨d, rfl, rfl⟩ := h
  exact ⟨.assign ⟨name, hname⟩ ⟨equals, heq⟩ d, rfl, rfl⟩

theorem DerivesAt.unary {op : Token} (h : DerivesAt none e tokens)
    (hop : op.kind = .bang ∨ op.kind = .minus) : DerivesAt none (.unary op e) (op :: tokens) := by
  obtain ⟨d, rfl, rfl⟩ := h
  exact ⟨.prefixed ⟨op, hop⟩ d, rfl, rfl⟩

/-- A chain goes on with one more operand. -/
theorem DerivesAt.operation {l : Level} {op : Token} (hl : DerivesAt (some l) left before)
    (hop : l.joins op.kind = true) (hr : DerivesAt l.tighter? right behind) :
    DerivesAt (some l) (operation left op right) (before ++ op :: behind) := by
  obtain ⟨⟨first, links⟩, rfl, rfl⟩ := hl
  obtain ⟨d, rfl, rfl⟩ := hr
  refine ⟨.chain first (links.snoc ⟨op, hop⟩ d), links.tree_snoc _ d _, ?_⟩
  rw [Operators.tokens, links.tokens_snoc, Operators.tokens, List.append_assoc]

theorem constant_of_writtenAs {value : Literal} {t : Token} (h : value.WrittenAs t) :
    isConstant t.kind = true ∧ constantValue t = value := by
  cases value with
  | nil =>
      rw [constantValue, show t.kind = .kwNil from h]
      exact ⟨rfl, rfl⟩
  | bool b =>
      cases b with
      | true =>
          rw [constantValue, show t.kind = .kwTrue from h]
          exact ⟨rfl, rfl⟩
      | false =>
          rw [constantValue, show t.kind = .kwFalse from h]
          exact ⟨rfl, rfl⟩
  | number x | string s =>
      rw [constantValue, h.1]
      exact ⟨rfl, h.2⟩
  | integer n => exact h.elim

theorem derivesAt_literal {value : Literal} {t : Token} (h : value.WrittenAs t) :
    DerivesAt none (.literal value) [t] := by
  obtain ⟨hconstant, rfl⟩ := constant_of_writtenAs h
  exact ⟨.constant ⟨t, hconstant⟩, rfl, rfl⟩

end Rules

theorem exists_level {k : TokenKind} (h : isBinaryOperator k = true ∨ k = .kwAnd ∨ k = .kwOr) :
    ∃ l : Level, l.joins k = true ∧ l.rank = operatorRank k := by
  cases k with
  | kwOr => exact ⟨.disjunction, rfl, rfl⟩
  | kwAnd => exact ⟨.conjunction, rfl, rfl⟩
  | bangEqual | equalEqual => exact ⟨.equality, rfl, rfl⟩
  | greater | greaterEqual | less | lessEqual => exact ⟨.comparison, rfl, rfl⟩
  | minus | plus => exact ⟨.term, rfl, rfl⟩
  | slash | star => exact ⟨.factor, rfl, rfl⟩
  | _ => simp [isBinaryOperator] at h

/-- The tokens of an expression derive it at every level that takes its rank, and by the loosest
rule in any case. -/
structure DerivesByRank (e : Expr) : Prop where
  level : ∀ {tokens}, e.WrittenAs tokens → ∀ o : Option Level, e.rank ≤ o.elim 0 Level.rank →
    DerivesAt o e tokens
  expression : ∀ {tokens}, e.WrittenAs tokens → DerivesExpression e tokens

namespace DerivesByRank

variable {e left right : Expr}

theorem of_level {o : Option Level} (hrank : o.elim 0 Level.rank = e.rank)
    (h : ∀ tokens, e.WrittenAs tokens → DerivesAt o e tokens) : DerivesByRank e where
  level hw o' hle := (h _ hw).loosen o' (hrank ▸ hle)
  expression hw := (h _ hw).expression

/-- With parentheses where they are needed, an expression can stand at any level. -/
theorem inPlace (h : DerivesByRank e) (o : Option Level) {tokens : List Token}
    (hw : (e.inPlace (o.elim 0 Level.rank)).WrittenAs tokens) :
    DerivesAt o (e.inPlace (o.elim 0 Level.rank)) tokens := by
  unfold Expr.inPlace at hw ⊢
  split at hw
  · next hle =>
    rw [if_pos hle]
    exact h.level hw o hle
  · next hlooser =>
    rw [if_neg hlooser]
    cases hw with
    | grouping ho hc hw => exact ((h.expression hw).group ho hc).loosen o (Nat.zero_le _)

/-- The two operands of an operator in their places. -/
theorem operation (hl : DerivesByRank left) (hr : DerivesByRank right) {op : Token} {l : Level}
    (hop : l.joins op.kind = true) (hrank : l.rank = operatorRank op.kind)
    {before behind : List Token}
    (hbefore : (left.inPlace (operatorRank op.kind)).WrittenAs before)
    (hbehind : (right.inPlace (operatorRank op.kind - 1)).WrittenAs behind) :
    DerivesAt (some l) (Derivation.operation (left.inPlace (operatorRank op.kind)) op
      (right.inPlace (operatorRank op.kind - 1))) (before ++ op :: behind) := by
  rw [← hrank] at hbefore hbehind ⊢
  rw [← rank_tighter_eq] at hbehind ⊢
  exact (hl.inPlace (some l) hbefore).operation hop (hr.inPlace l.tighter? hbehind)

end DerivesByRank

theorem operation_eq_binary {op : Token} (h : isBinaryOperator op.kind = true)
    (left right : Expr) : operation left op right = .binary left op right := by
  unfold operation
  split
  · next hk => simp [hk, isBinaryOperator] at h
  · next hk => simp [hk, isBinaryOperator] at h
  · rfl

theorem operation_eq_logical {op : Token} (h : op.kind = .kwAnd ∨ op.kind = .kwOr)
    (left right : Expr) : operation left op right = .logical left op right := by
  obtain h | h := h <;> simp only [operation, h]

theorem derivesByRank_parenthesized (e : Expr) (he : e.IsBare) : DerivesByRank e.parenthesized := by
  induction e with
  | literal value =>
      refine .of_level (o := none) rfl fun tokens hw => ?_
      cases hw with
      | literal h => exact derivesAt_literal h
  | «variable» name =>
      refine .of_level (o := none) rfl fun tokens hw => ?_
      cases hw
      exact ⟨.name ⟨name, he⟩, rfl, rfl⟩
  | unary op operand ih =>
      refine .of_level (o := none) rfl fun tokens hw => ?_
      cases hw with
      | unary _ h => exact ((ih he.2).inPlace none h).unary he.1
  | binary left op right ihl ihr =>
      obtain ⟨l, hop, hrank⟩ := exists_level (.inl he.1)
      refine .of_level (o := some l) hrank fun tokens hw => ?_
      cases hw with
      | binary _ hbefore hbehind =>
          have hderives := (ihl he.2.1).operation (ihr he.2.2) hop hrank hbefore hbehind
          rwa [operation_eq_binary he.1] at hderives
  | logical left op right ihl ihr =>
      obtain ⟨l, hop, hrank⟩ := exists_level (.inr he.1)
      refine .of_level (o := some l) hrank fun tokens hw => ?_
      cases hw with
      | logical _ hbefore hbehind =>
          have hderives := (ihl he.2.1).operation (ihr he.2.2) hop hrank hbefore hbehind
          rwa [operation_eq_logical he.1] at hderives
  | assign name value ih =>
      constructor
      · -- no level of operators takes an assignment
        intro tokens hw o hle
        have hrank : 7 ≤ Level.disjunction.rank := Nat.le_trans hle (rank_le_disjunction o)
        exact absurd hrank (by decide)
      · intro tokens hw
        cases hw with
        | assign _ heq h => exact ((ih he.2).expression h).assign he.1 heq
  | grouping _ | missing | foreign _ => exact he.elim

/-- The tokens of an expression with a semicolon behind them are read as the expression. -/
theorem DerivesExpression.parse_of_beforeEnd {e : Expr} {tokens source : List Token}
    (h : DerivesExpression e tokens) {semicolon : Token} (hs : semicolon.kind = .semicolon)
    (hsource : beforeEnd source = tokens ++ [semicolon]) :
    parse source = ⟨[.expression e], []⟩ := by
  obtain ⟨d, rfl, rfl⟩ := h
  have htokens : (Declarations.statement (.expression d ⟨semicolon, hs⟩) .nil).tokens =
      beforeEnd source := by
    rw [hsource]
    exact List.append_nil _
  exact parse_of_derivation htokens ⟨trivial, trivial⟩

theorem DerivesExpression.parse_eq {e : Expr} {tokens : List Token}
    (h : DerivesExpression e tokens) {semicolon : Token} (hs : semicolon.kind = .semicolon) :
    parse (tokens ++ [semicolon]) = ⟨[.expression e], []⟩ := by
  refine h.parse_of_beforeEnd hs (beforeEnd_eq_self ?_)
  obtain ⟨d, rfl, rfl⟩ := h
  refine List.forall_mem_append.mpr ⟨fun t ht => ?_, List.forall_mem_singleton.mpr ?_⟩
  · exact (isPassedOver_iff.mp (d.passedOver t ht)).2.1
  · rw [hs]
    decide

end Derivation

/-! Every bare expression has tokens, and its parentheses are all that is added to it. -/

theorem Literal.exists_writtenAs (value : Literal) (h : ∀ n, value ≠ .integer n) :
    ∃ t, value.WrittenAs t := by
  cases value with
  | nil => exact ⟨⟨.kwNil, "nil", .nil, 1⟩, rfl⟩
  | bool b =>
      cases b with
      | true => exact ⟨⟨.kwTrue, "true", .nil, 1⟩, rfl⟩
      | false => exact ⟨⟨.kwFalse, "false", .nil, 1⟩, rfl⟩
  | number x => exact ⟨⟨.number, "", .number x, 1⟩, rfl, rfl⟩
  | string s => exact ⟨⟨.string, "", .string s, 1⟩, rfl, rfl⟩
  | integer n => exact absurd rfl (h n)

namespace Expr

theorem ungrouped_inPlace (limit : Nat) (e : Expr) : (e.inPlace limit).ungrouped = e.ungrouped := by
  unfold inPlace
  split <;> rfl

theorem ungrouped_parenthesized (e : Expr) (he : e.IsBare) : e.parenthesized.ungrouped = e := by
  induction e with
  | literal _ | «variable» _ => rfl
  | unary op operand ih =>
      rw [parenthesized, ungrouped, ungrouped_inPlace, ih he.2]
  | binary left op right ihl ihr | logical left op right ihl ihr =>
      rw [parenthesized, ungrouped, ungrouped_inPlace, ungrouped_inPlace, ihl he.2.1, ihr he.2.2]
  | assign name value ih => rw [parenthesized, ungrouped, ih he.2]
  | grouping _ | missing | foreign _ => exact he.elim

theorem exists_writtenAs_inPlace {e : Expr} (limit : Nat) (h : ∃ tokens, e.WrittenAs tokens) :
    ∃ tokens, (e.inPlace limit).WrittenAs tokens := by
  unfold inPlace
  split
  · exact h
  · obtain ⟨tokens, h⟩ := h
    have hopening : (⟨.leftParen, "(", .nil, 1⟩ : Token).kind = .leftParen := rfl
    have hclosing : (⟨.rightParen, ")", .nil, 1⟩ : Token).kind = .rightParen := rfl
    exact ⟨_, .grouping hopening hclosing h⟩

theorem exists_writtenAs (e : Expr) (he : e.IsBare) :
    ∃ tokens, e.parenthesized.WrittenAs tokens := by
  induction e with
  | literal value =>
      obtain ⟨t, ht⟩ := value.exists_writtenAs he
      exact ⟨[t], .literal ht⟩
  | «variable» name => exact ⟨[name], .variable name⟩
  | unary op operand ih =>
      obtain ⟨tokens, h⟩ := exists_writtenAs_inPlace 0 (ih he.2)
      exact ⟨_, .unary op h⟩
  | binary left op right ihl ihr =>
      obtain ⟨before, hl⟩ := exists_writtenAs_inPlace (operatorRank op.kind) (ihl he.2.1)
      obtain ⟨behind, hr⟩ := exists_writtenAs_inPlace (operatorRank op.kind - 1) (ihr he.2.2)
      exact ⟨_, .binary op hl hr⟩
  | logical left op right ihl ihr =>
      obtain ⟨before, hl⟩ := exists_writtenAs_inPlace (operatorRank op.kind) (ihl he.2.1)
      obtain ⟨behind, hr⟩ := exists_writtenAs_inPlace (operatorRank op.kind - 1) (ihr he.2.2)
      exact ⟨_, .logical op hl hr⟩
  | assign name value ih =>
      obtain ⟨tokens, h⟩ := ih he.2
      have hequals : (⟨.equal, "=", .nil, 1⟩ : Token).kind = .equal := rfl
      exact ⟨_, .assign name hequals h⟩
  | grouping _ | missing | foreign _ => exact he.elim

end Expr

/-- Every expression tree can be written down, with parentheses around what binds looser than its
place allows, and is read back from its tokens as it was written. -/
theorem written_expression_reads_back {e : Expr} (he : e.IsBare) :
    e.parenthesized.ungrouped = e ∧ (∃ tokens, e.parenthesized.WrittenAs tokens) ∧
      ∀ tokens semicolon, e.parenthesized.WrittenAs tokens → semicolon.kind = .semicolon →
        parse (tokens ++ [semicolon]) = ⟨[.expression e.parenthesized], []⟩ := by
  refine ⟨e.ungrouped_parenthesized he, e.exists_writtenAs he, ?_⟩
  intro tokens semicolon hw hs
  exact ((Derivation.derivesByRank_parenthesized e he).expression hw).parse_eq hs

theorem written_expression_reads_back_chain :
    ∃ (e : Expr) (tokens : List Token) (semicolon : Token),
      e.IsBare ∧ e.parenthesized.WrittenAs tokens ∧ semicolon.kind = .semicolon ∧
      tokens.map Token.lexeme =
        ["(", "x", "=", "nil", ")", "-", "x", "-", "(", "x", "-", "!", "x", ")"] ∧
      parse (tokens ++ [semicolon]) = ⟨[.expression e.parenthesized], []⟩ := by
  let x : Token := ⟨.identifier, "x", .nil, 1⟩
  let minus : Token := ⟨.minus, "-", .nil, 1⟩
  let bang : Token := ⟨.bang, "!", .nil, 1⟩
  let e : Expr := .binary (.binary (.assign x (.literal .nil)) minus (.variable x)) minus
    (.binary (.variable x) minus (.unary bang (.variable x)))
  have he : e.IsBare :=
    ⟨rfl, ⟨rfl, ⟨rfl, fun _ h => Literal.noConfusion h⟩, rfl⟩, rfl, rfl, .inl rfl, rfl⟩
  have hopening : (⟨.leftParen, "(", .nil, 1⟩ : Token).kind = .leftParen := rfl
  have hclosing : (⟨.rightParen, ")", .nil, 1⟩ : Token).kind = .rightParen := rfl
  have hequals : (⟨.equal, "=", .nil, 1⟩ : Token).kind = .equal := rfl
  have hnil : Literal.nil.WrittenAs ⟨.kwNil, "nil", .nil, 1⟩ := rfl
  have hw : e.parenthesized.WrittenAs _ :=
    .binary minus
      (.binary minus (.grouping hopening hclosing (.assign x hequals (.literal hnil)))
        (.variable x))
      (.grouping hopening hclosing (.binary minus (.variable x) (.unary bang (.variable x))))
  have hs : (⟨.semicolon, ";", .nil, 1⟩ : Token).kind = .semicolon := rfl
  exact ⟨e, _, _, he, hw, hs, rfl, (written_expression_reads_back he).2.2 _ _ hw hs⟩

end Scriptlet
