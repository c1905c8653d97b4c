import Scriptlet.Proofs.Derivation

/-!
Reading without errors, rule by rule. Each rule of the parser gets one lemma that says when it reads
a value and reports nothing; later proofs use these lemmas and do not open the rules again. The
lemmas on how rules are put together are first stated with reports.
-/

namespace Scriptlet

open Scriptlet.Derivation (isConstant constantValue)

namespace Parsed

variable {α β : Type} {bound wider : Nat}

/-- The rule has read `value`, leaves `rest` and makes the given reports. -/
def Gives (p : Parsed α bound) (value : α) (rest : List Token) (reports : List SyntaxError) :
    Prop :=
  ∃ h, p = .done value rest reports h

/-- The rule has read `value`, leaves `rest` and reports nothing. -/
def Reads (p : Parsed α bound) (value : α) (rest : List Token) : Prop :=
  p.Gives value rest []

section

variable {value : α} {rest : List Token} {reports : List SyntaxError}

theorem done_gives {v : α} {r : List Token} {more : List SyntaxError} {h : r.length < bound} :
    (Parsed.done v r more h).Gives value rest reports ↔ v = value ∧ r = rest ∧ more = reports := by
  constructor
  · rintro ⟨_, e⟩
    cases e
    exact ⟨rfl, rfl, rfl⟩
  · rintro ⟨rfl, rfl, rfl⟩
    exact ⟨h, rfl⟩

theorem not_failed_gives {what : Expectation} {r : List Token} {more : List SyntaxError}
    {h : r.length ≤ bound} : ¬ (Parsed.failed what r more h).Gives value rest reports := by
  rintro ⟨_, e⟩
  cases e

theorem after_gives {p : Parsed α bound} {early : List SyntaxError} {h : bound ≤ wider} :
    (p.after early h).Gives value rest reports ↔
      ∃ late, p.Gives value rest late ∧ early ++ late = reports := by
  cases p with
  | done v r late shorter =>
      simp only [after, done_gives]
      constructor
      · rintro ⟨rfl, rfl, rfl⟩
        exact ⟨late, ⟨rfl, rfl, rfl⟩, rfl⟩
      · rintro ⟨_, ⟨rfl, rfl, rfl⟩, rfl⟩
        exact ⟨rfl, rfl, rfl⟩
  | failed what r late within => simp [after, not_failed_gives]

theorem map_gives {p : Parsed β bound} {f : β → α} :
    (p.map f).Gives value rest reports ↔ ∃ v, p.Gives v rest reports ∧ f v = value := by
  cases p with
  | done v r late shorter =>
      simp only [map, done_gives]
      constructor
      · rintro ⟨rfl, rfl, rfl⟩
        exact ⟨v, ⟨rfl, rfl, rfl⟩, rfl⟩
      · rintro ⟨_, ⟨rfl, rfl, rfl⟩, rfl⟩
        exact ⟨rfl, rfl, rfl⟩
  | failed what r late within => simp [map, not_failed_gives]

theorem andThen_gives {p : Parsed β bound}
    {next : β → (rest : List Token) → Parsed α rest.length} :
    (p.andThen next).Gives value rest reports ↔ ∃ v r early late, p.Gives v r early ∧
      (next v r).Gives value rest late ∧ early ++ late = reports := by
  cases p with
  | done v r early shorter =>
      simp only [andThen, after_gives, done_gives]
      constructor
      · rintro ⟨late, h, rfl⟩
        exact ⟨v, r, early, late, ⟨rfl, rfl, rfl⟩, h, rfl⟩
      · rintro ⟨_, _, _, late, ⟨rfl, rfl, rfl⟩, h, rfl⟩
        exact ⟨late, h, rfl⟩
  | failed what r late within => simp [andThen, not_failed_gives]

end

theorem Reads.length_lt {p : Parsed α bound} {value : α} {rest : List Token}
    (h : p.Reads value rest) : rest.length < bound :=
  h.1

@[simp] theorem done_reads {v value : α} {r rest : List Token} {reports : List SyntaxError}
    {h : r.length < bound} :
    (Parsed.done v r reports h).Reads value rest ↔ v = value ∧ r = rest ∧ reports = [] :=
  done_gives

@[simp] theorem failed_reads {what : Expectation} {value : α} {r rest : List Token}
    {reports : List SyntaxError} {h : r.length ≤ bound} :
    ¬ (Parsed.failed what r reports h).Reads value rest :=
  not_failed_gives

@[simp] theorem after_reads {p : Parsed α bound} {reports : List SyntaxError} {h : bound ≤ wider}
    {value : α} {rest : List Token} :
    (p.after reports h).Reads value rest ↔ reports = [] ∧ p.Reads value rest := by
  simp only [Reads, after_gives, List.append_eq_nil_iff]
  constructor
  · rintro ⟨_, hp, rfl, rfl⟩
    exact ⟨rfl, hp⟩
  · rintro ⟨rfl, hp⟩
    exact ⟨[], hp, rfl, rfl⟩

@[simp] theorem map_reads {p : Parsed α bound} {f : α → β} {value : β} {rest : List Token} :
    (p.map f).Reads value rest ↔ ∃ v, p.Reads v rest ∧ f v = value :=
  map_gives

@[simp] theorem andThen_reads {p : Parsed α bound}
    {next : α → (rest : List Token) → Parsed β rest.length} {value : β} {rest : List Token} :
    (p.andThen next).Reads value rest ↔ ∃ v r, p.Reads v r ∧ (next v r).Reads value rest := by
  simp only [Reads, andThen_gives, List.append_eq_nil_iff]
  constructor
  · rintro ⟨v, r, _, _, hp, hnext, rfl, rfl⟩
    exact ⟨v, r, hp, hnext⟩
  · rintro ⟨v, r, hp, hnext⟩
    exact ⟨v, r, [], [], hp, hnext, rfl, rfl⟩

end Parsed

theorem expect_gives {k : TokenKind} {what : Expectation} {s rest : List Token} {t : Token}
    {reports : List SyntaxError} :
    (expect k what s).Gives t rest reports ↔ (s = t :: rest ∧ t.kind = k) ∧ reports = [] := by
  cases s with
  | nil => simp [expect, Parsed.not_failed_gives]
  | cons u r =>
      simp only [expect]
      split
      · next h =>
        simp only [Parsed.done_gives, List.cons.injEq]
        constructor
        · rintro ⟨rfl, hr, hreports⟩
          exact ⟨⟨⟨rfl, hr⟩, h⟩, hreports.symm⟩
        · rintro ⟨⟨⟨hu, hr⟩, -⟩, hreports⟩
          exact ⟨hu, hr, hreports.symm⟩
      · next h =>
        simp only [Parsed.not_failed_gives, List.cons.injEq, false_iff]
        rintro ⟨⟨⟨rfl, -⟩, hk⟩, -⟩
        exact h hk

@[simp] theorem expect_reads {k : TokenKind} {what : Expectation} {s rest : List Token}
    {t : Token} : (expect k what s).Reads t rest ↔ s = t :: rest ∧ t.kind = k := by
  simp only [Parsed.Reads, expect_gives, and_true]

/-- A level of operators or, where no level is left, the unary expressions. -/
def level : Option Level → (s : List Token) → Parsed Expr s.length
  | some l, s => chain l s
  | none, s => unary s

theorem rank_tighter_lt (l : Level) : l.tighter?.elim 0 Level.rank < l.rank := by
  cases l <;> decide

theorem operand_eq_level (l : Level) (s : List Token) : operand l s = level l.tighter? s := by
  rw [operand]
  split <;> next h => rw [h]; rfl

/-- Only a variable can be assigned to. -/
theorem assignTo_eq {target value e : Expr} {t : Token} :
    (assignTo target t value).1 = e ∧ (assignTo target t value).2 = [] ↔
      ∃ name, target = .variable name ∧ e = .assign name value := by
  cases target <;> simp [assignTo, eq_comm]

theorem assignment_reads {s rest : List Token} {e : Expr} :
    (assignment s).Reads e rest ↔
      ((level (some .disjunction) s).Reads e rest ∧ ∀ t ∈ rest.head?, t.kind ≠ .equal) ∨
      ∃ name t r value, (level (some .disjunction) s).Reads (.variable name) (t :: r) ∧
        t.kind = .equal ∧ (assignment r).Reads value rest ∧ e = .assign name value := by
  rw [assignment, level]
  cases chain .disjunction s with
  | failed what r reports h => simp
  | done target r reports h =>
      cases r with
      | nil =>
          simp only [Parsed.done_reads, reduceCtorEq, false_and, and_false, exists_false, or_false]
          constructor
          · rintro ⟨rfl, rfl, rfl⟩
            simp
          · exact fun h => h.1
      | cons t r =>
          simp only [Parsed.done_reads, List.cons.injEq]
          split
          · next ht =>
            constructor
            · intro hread
              cases hr : assignment r with
              | failed what r' more h' => simp [hr] at hread
              | done value r' more h' =>
                  simp only [hr, Parsed.done_reads, List.append_eq_nil_iff] at hread
                  obtain ⟨he, rfl, ⟨rfl, rfl⟩, ha⟩ := hread
                  obtain ⟨name, rfl, rfl⟩ := assignTo_eq.mp ⟨he, ha⟩
                  exact .inr ⟨name, t, r, value, ⟨rfl, ⟨rfl, rfl⟩, rfl⟩, ht, ⟨h', hr⟩, rfl⟩
            · rintro (⟨⟨-, rfl, -⟩, hne⟩ |
                ⟨name, _, _, value, ⟨rfl, ⟨rfl, rfl⟩, rfl⟩, -, ⟨h', hr⟩, rfl⟩)
              · exact absurd ht (hne t rfl)
              · simp [hr, assignTo]
          · next ht =>
            simp only [Parsed.done_reads]
            constructor
            · rintro ⟨rfl, rfl, hs⟩
              refine .inl ⟨⟨rfl, rfl, hs⟩, ?_⟩
              rintro _ ⟨⟩
              exact ht
            · rintro (⟨h, -⟩ | ⟨name, _, _, value, ⟨-, ⟨rfl, -⟩, -⟩, hk, -⟩)
              · exact h
              · exact absurd hk ht

theorem chain_reads {l : Level} {s rest : List Token} {e : Expr} :
    (chain l s).Reads e rest ↔
      ∃ first r, (level l.tighter? s).Reads first r ∧ (extend l first r).Reads e rest := by
  rw [chain, operand_eq_level]
  cases level l.tighter? s with
  | failed what r reports h => simp
  | done first r reports h =>
      simp only [Parsed.after_reads, Parsed.done_reads]
      constructor
      · rintro ⟨rfl, hr⟩
        exact ⟨first, r, ⟨rfl, rfl, rfl⟩, hr⟩
      · rintro ⟨_, _, ⟨rfl, rfl, rfl⟩, hr⟩
        exact ⟨rfl, hr⟩

theorem extend_reads_nil {l : Level} {rest : List Token} {left e : Expr} :
    (extend l left []).Reads e rest ↔ left = e ∧ rest = [] := by
  rw [extend]
  simp [eq_comm]

theorem extend_reads_cons {l : Level} {op : Token} {s rest : List Token} {left e : Expr} :
    (extend l left (op :: s)).Reads e rest ↔
      (l.joins op.kind = false ∧ left = e ∧ op :: s = rest) ∨
      (l.joins op.kind = true ∧ ∃ right r, (level l.tighter? s).Reads right r ∧
        (extend l (l.node left op right) r).Reads e rest) := by
  rw [extend, operand_eq_level]
  split
  · next hop =>
    cases level l.tighter? s with
    | failed what r reports h => simp [hop]
    | done right r reports h =>
        simp only [Parsed.after_reads, Parsed.done_reads, hop, reduceCtorEq, false_and, true_and,
          false_or]
        constructor
        · rintro ⟨rfl, hr⟩
          exact ⟨right, r, ⟨rfl, rfl, rfl⟩, hr⟩
        · rintro ⟨_, _, ⟨rfl, rfl, rfl⟩, hr⟩
          exact ⟨rfl, hr⟩
  · next hop => simp [hop]

theorem primary_reads {t : Token} {s rest : List Token} {e : Expr} :
    (primary t s).Reads e rest ↔
      (isConstant t.kind = true ∧ .literal (constantValue t) = e ∧ s = rest) ∨
      (t.kind = .identifier ∧ .variable t = e ∧ s = rest) ∨
      (t.kind = .leftParen ∧ ∃ inner u, (assignment s).Reads inner (u :: rest) ∧
        u.kind = .rightParen ∧ .grouping inner = e) := by
  rw [primary]
  split
  case h_7 hk =>
    cases assignment s with
    | failed what r reports h => simp [hk, isConstant]
    | done inner r reports h =>
        simp only [hk, isConstant, Parsed.after_reads, Parsed.map_reads, expect_reads,
          Parsed.done_reads, reduceCtorEq, false_and, true_and, false_or]
        constructor
        · rintro ⟨rfl, u, ⟨rfl, hu⟩, rfl⟩
          exact ⟨inner, u, ⟨rfl, rfl, rfl⟩, hu, rfl⟩
        · rintro ⟨_, u, ⟨rfl, rfl, rfl⟩, hu, rfl⟩
          exact ⟨rfl, u, ⟨rfl, hu⟩, rfl⟩
  case h_8 hFalse hTrue hNil hNumber hString hIdentifier hParen =>
    have hc : isConstant t.kind = false := by
      cases hk : t.kind <;> simp_all [isConstant]
    simp only [hc, Parsed.failed_reads, reduceCtorEq, false_and, false_or, false_iff]
    rintro (⟨h, -⟩ | ⟨h, -⟩)
    · exact hIdentifier h
    · exact hParen h
  all_goals next hk => simp [hk, isConstant, constantValue]

theorem unary_reads_cons {t : Token} {s rest : List Token} {e : Expr} :
    (unary (t :: s)).Reads e rest ↔
      ((t.kind = .bang ∨ t.kind = .minus) ∧
        ∃ inner, (unary s).Reads inner rest ∧ .unary t inner = e) ∨
      (primary t s).Reads e rest := by
  rw [unary]
  split
  · next hop =>
    have hop : t.kind = .bang ∨ t.kind = .minus := by simpa using hop
    have hprimary : ¬ (primary t s).Reads e rest := by
      rw [primary_reads]
      rcases hop with h | h <;> simp [h, isConstant]
    simp only [hop, hprimary, true_and, or_false]
    cases unary s with
    | failed what r reports h => simp
    | done inner r reports h =>
        simp only [Parsed.done_reads]
        constructor
        · rintro ⟨rfl, rfl, rfl⟩
          exact ⟨inner, ⟨rfl, rfl, rfl⟩, rfl⟩
        · rintro ⟨_, ⟨rfl, rfl, rfl⟩, rfl⟩
          exact ⟨rfl, rfl, rfl⟩
  · next hop =>
    have hop : ¬ (t.kind = .bang ∨ t.kind = .minus) := by simpa using hop
    simp only [hop, false_and, false_or]

theorem not_level_reads_nil {o : Option Level} {rest : List Token} {e : Expr} :
    ¬ (level o []).Reads e rest :=
  fun h => Nat.not_lt_zero _ h.length_lt

theorem terminated_reads {what : Expectation} {s rest : List Token} {e : Expr} :
    (terminated what s).Reads e rest ↔
      ∃ t, (assignment s).Reads e (t :: rest) ∧ t.kind = .semicolon := by
  simp only [terminated, expression, Parsed.andThen_reads, Parsed.map_reads, expect_reads]
  constructor
  · rintro ⟨_, _, he, t, ⟨rfl, ht⟩, rfl⟩
    exact ⟨t, he, ht⟩
  · rintro ⟨t, he, ht⟩
    exact ⟨e, t :: rest, he, t, ⟨rfl, ht⟩, rfl⟩

theorem expressionStatement_reads {s rest : List Token} {st : Stmt} :
    (expressionStatement s).Reads st rest ↔
      ∃ e t, (assignment s).Reads e (t :: rest) ∧ t.kind = .semicolon ∧ .expression e = st := by
  simp only [expressionStatement, Parsed.map_reads, terminated_reads]
  constructor
  · rintro ⟨e, ⟨t, he, ht⟩, h⟩
    exact ⟨e, t, he, ht, h⟩
  · rintro ⟨e, t, he, ht, h⟩
    exact ⟨e, ⟨t, he, ht⟩, h⟩

theorem variableDeclaration_reads {s rest : List Token} {st : Stmt} :
    (variableDeclaration s).Reads st rest ↔ ∃ name t r, s = name :: t :: r ∧
      name.kind = .identifier ∧
      ((t.kind = .semicolon ∧ r = rest ∧ .declare name .missing = st) ∨
        (t.kind = .equal ∧ ∃ e u, (assignment r).Reads e (u :: rest) ∧ u.kind = .semicolon ∧
          .declare name e = st)) := by
  simp only [variableDeclaration, Parsed.andThen_reads, expect_reads]
  constructor
  · rintro ⟨name, _ | ⟨t, r⟩, ⟨rfl, hn⟩, h⟩
    · simp at h
    · refine ⟨name, t, r, rfl, hn, ?_⟩
      simp only at h
      split at h
      · next ht =>
        simp only [Parsed.after_reads, Parsed.map_reads, terminated_reads, true_and] at h
        obtain ⟨e, ⟨u, he, hu⟩, hst⟩ := h
        exact .inr ⟨ht, e, u, he, hu, hst⟩
      · simp only [Parsed.map_reads, expect_reads, List.cons.injEq] at h
        obtain ⟨_, ⟨⟨rfl, hr⟩, ht⟩, hst⟩ := h
        exact .inl ⟨ht, hr, hst⟩
  · rintro ⟨name, t, r, rfl, hn, h⟩
    refine ⟨name, t :: r, ⟨rfl, hn⟩, ?_⟩
    obtain ⟨ht, rfl, rfl⟩ | ⟨ht, e, u, he, hu, rfl⟩ := h
    · simp [ht]
    · simp only [ht, ite_true, Parsed.after_reads, Parsed.map_reads, terminated_reads, true_and]
      exact ⟨e, ⟨u, he, hu⟩, rfl⟩

theorem condition_reads {what : Expectation} {s rest : List Token} {e : Expr} :
    (condition what s).Reads e rest ↔ ∃ t r u, s = t :: r ∧ t.kind = .leftParen ∧
      (assignment r).Reads e (u :: rest) ∧ u.kind = .rightParen := by
  simp only [condition, expression, Parsed.andThen_reads, Parsed.map_reads, expect_reads]
  constructor
  · rintro ⟨t, r, ⟨rfl, ht⟩, _, _, he, u, ⟨rfl, hu⟩, rfl⟩
    exact ⟨t, r, u, rfl, ht, he, hu⟩
  · rintro ⟨t, r, u, rfl, ht, he, hu⟩
    exact ⟨t, r, ⟨rfl, ht⟩, e, u :: rest, he, u, ⟨rfl, hu⟩, rfl⟩

theorem forInitial_reads_cons {t : Token} {s rest : List Token} {st : Stmt} :
    (forInitial (t :: s)).Reads st rest ↔
      (t.kind = .semicolon ∧ .missing = st ∧ s = rest) ∨
      (t.kind = .kwVar ∧ (variableDeclaration s).Reads st rest) ∨
      (t.kind ≠ .semicolon ∧ t.kind ≠ .kwVar ∧ (expressionStatement (t :: s)).Reads st rest) := by
  simp only [forInitial]
  split
  · next hk => simp [hk]
  · next hk => simp [hk]
  · next hSemicolon hVar =>
    have hSemicolon : t.kind ≠ .semicolon := hSemicolon
    have hVar : t.kind ≠ .kwVar := hVar
    simp [hSemicolon, hVar]

theorem clause_reads_cons {closing : TokenKind} {what : Expectation} {t : Token}
    {s rest : List Token} {e : Expr} :
    (clause closing what (t :: s)).Reads e rest ↔
      (t.kind = closing ∧ .missing = e ∧ s = rest) ∨
      (t.kind ≠ closing ∧ ∃ u, (assignment (t :: s)).Reads e (u :: rest) ∧ u.kind = closing) := by
  simp only [clause]
  split
  · next hk => simp [hk]
  · next hk =>
    simp only [hk, expression, Parsed.andThen_reads, Parsed.map_reads, expect_reads, false_and,
      false_or, ne_eq, not_false_eq_true, true_and]
    constructor
    · rintro ⟨_, _, he, u, ⟨rfl, hu⟩, rfl⟩
      exact ⟨u, he, hu⟩
    · rintro ⟨u, he, hu⟩
      exact ⟨e, u :: rest, he, u, ⟨rfl, hu⟩, rfl⟩

theorem forClauses_reads {s rest : List Token} {clauses : ForClauses} :
    (forClauses s).Reads clauses rest ↔ ∃ t r r₁ r₂, s = t :: r ∧ t.kind = .leftParen ∧
      (forInitial r).Reads clauses.initial r₁ ∧
      (clause .semicolon .semicolonAfterLoopCondition r₁).Reads clauses.condition r₂ ∧
      (clause .rightParen .parenAfterForClauses r₂).Reads clauses.increment rest := by
  simp only [forClauses, Parsed.andThen_reads, Parsed.map_reads, expect_reads]
  constructor
  · rintro ⟨t, r, ⟨rfl, ht⟩, _, r₁, hi, _, r₂, hc, _, hn, rfl⟩
    exact ⟨t, r, r₁, r₂, rfl, ht, hi, hc, hn⟩
  · rintro ⟨t, r, r₁, r₂, rfl, ht, hi, hc, hn⟩
    exact ⟨t, r, ⟨rfl, ht⟩, _, r₁, hi, _, r₂, hc, _, hn, rfl⟩

/-- The declarations are read without a report. -/
structure Declarations.Reads {bound : Nat} (d : Declarations bound) (program : List Stmt)
    (rest : List Token) : Prop where
  program_eq : d.program = program
  rest_eq : d.rest = rest
  reports_eq : d.reports = []

/-- Declarations that start with those of `front` and go on like `later`. -/
structure Declarations.Extends {bound wider : Nat} (d : Declarations wider) (front : List Stmt)
    (later : Declarations bound) : Prop where
  program_eq : d.program = front ++ later.program
  rest_eq : d.rest = later.rest
  reports_eq : d.reports = later.reports

namespace Declarations.Extends

variable {bound wider widest : Nat} {d : Declarations widest} {later : Declarations wider}
  {last : Declarations bound} {front middle : List Stmt}

theorem trans (h : d.Extends front later) (h' : later.Extends middle last) :
    d.Extends (front ++ middle) last where
  program_eq := by rw [h.program_eq, h'.program_eq, List.append_assoc]
  rest_eq := h.rest_eq.trans h'.rest_eq
  reports_eq := h.reports_eq.trans h'.reports_eq

theorem reads {program : List Stmt} {rest : List Token} (h : d.Extends front later)
    (h' : later.Reads program rest) : d.Reads (front ++ program) rest where
  program_eq := by rw [h.program_eq, h'.program_eq]
  rest_eq := h.rest_eq.trans h'.rest_eq
  reports_eq := h.reports_eq.trans h'.reports_eq

end Declarations.Extends

section Statements

variable {stop t : Token} {s rest : List Token} {st : Stmt}

/-- A `for` statement is made of the clauses and the body that are read for it. -/
theorem statement_gives_for (hk : t.kind = .kwFor) {reports : List SyntaxError} :
    (statement stop (t :: s)).Gives st rest reports ↔
      ∃ clauses r early late body, (forClauses s).Gives clauses r early ∧
        (statement stop r).Gives body rest late ∧ clauses.loop body = st ∧
        early ++ late = reports := by
  rw [statement]
  simp only [hk]
  cases forClauses s with
  | failed what r early h => simp [Parsed.not_failed_gives]
  | done clauses r early h =>
      simp only [Parsed.after_gives, Parsed.map_gives, Parsed.done_gives]
      constructor
      · rintro ⟨late, ⟨body, hbody, rfl⟩, rfl⟩
        exact ⟨clauses, r, early, late, body, ⟨rfl, rfl, rfl⟩, hbody, rfl, rfl⟩
      · rintro ⟨_, _, _, late, body, ⟨rfl, rfl, rfl⟩, hbody, rfl, rfl⟩
        exact ⟨late, ⟨body, hbody, rfl⟩, rfl⟩

theorem statement_reads_for (hk : t.kind = .kwFor) :
    (statement stop (t :: s)).Reads st rest ↔ ∃ clauses r body,
      (forClauses s).Reads clauses r ∧ (statement stop r).Reads body rest ∧
        clauses.loop body = st := by
  simp only [Parsed.Reads, statement_gives_for hk, List.append_eq_nil_iff]
  constructor
  · rintro ⟨clauses, r, _, _, body, hclauses, hbody, hloop, rfl, rfl⟩
    exact ⟨clauses, r, body, hclauses, hbody, hloop⟩
  · rintro ⟨clauses, r, body, hclauses, hbody, hloop⟩
    exact ⟨clauses, r, [], [], body, hclauses, hbody, hloop, rfl, rfl⟩

theorem statement_reads_while (hk : t.kind = .kwWhile) :
    (statement stop (t :: s)).Reads st rest ↔ ∃ test r body,
      (condition .parenAfterWhile s).Reads test r ∧ (statement stop r).Reads body rest ∧
        .loop test body = st := by
  rw [statement]
  simp only [hk]
  cases condition .parenAfterWhile s with
  | failed what r reports h => simp
  | done test r reports h =>
      simp only [Parsed.after_reads, Parsed.map_reads, Parsed.done_reads]
      constructor
      · rintro ⟨rfl, body, hb, rfl⟩
        exact ⟨test, r, body, ⟨rfl, rfl, rfl⟩, hb, rfl⟩
      · rintro ⟨_, _, body, ⟨rfl, rfl, rfl⟩, hb, rfl⟩
        exact ⟨rfl, body, hb, rfl⟩

theorem statement_reads_print (hk : t.kind = .kwPrint) :
    (statement stop (t :: s)).Reads st rest ↔
      ∃ e u, (assignment s).Reads e (u :: rest) ∧ u.kind = .semicolon ∧ .print e = st := by
  rw [statement]
  simp only [hk]
  simp only [Parsed.after_reads, Parsed.map_reads, terminated_reads, true_and]
  constructor
  · rintro ⟨e, ⟨u, he, hu⟩, h⟩
    exact ⟨e, u, he, hu, h⟩
  · rintro ⟨e, u, he, hu, h⟩
    exact ⟨e, ⟨u, he, hu⟩, h⟩

theorem statement_reads_block (hk : t.kind = .leftBrace) :
    (statement stop (t :: s)).Reads st rest ↔ ∃ program u,
      (declarations stop true s).Reads program (u :: rest) ∧ u.kind = .rightBrace ∧
        .block program = st := by
  rw [statement]
  simp only [hk, Parsed.after_reads, Parsed.map_reads, expect_reads]
  constructor
  · rintro ⟨hreports, u, ⟨hrest, hu⟩, rfl⟩
    exact ⟨_, u, ⟨rfl, hrest, hreports⟩, hu, rfl⟩
  · rintro ⟨_, u, ⟨rfl, hrest, hreports⟩, hu, rfl⟩
    exact ⟨hreports, u, ⟨hrest, hu⟩, rfl⟩

theorem statement_reads_if (hk : t.kind = .kwIf) :
    (statement stop (t :: s)).Reads st rest ↔ ∃ test r consequence r',
      (condition .parenAfterIf s).Reads test r ∧ (statement stop r).Reads consequence r' ∧
      (((∀ u ∈ r'.head?, u.kind ≠ .kwElse) ∧ r' = rest ∧
          .conditional test consequence .missing = st) ∨
        ∃ u r'' alternative, r' = u :: r'' ∧ u.kind = .kwElse ∧
          (statement stop r'').Reads alternative rest ∧
          .conditional test consequence alternative = st) := by
  rw [statement]
  simp only [hk]
  cases condition .parenAfterIf s with
  | failed what r reports h => simp
  | done test r reports h =>
      simp only [Parsed.done_reads]
      constructor
      · intro hread
        cases hs : statement stop r with
        | failed what r' more h' => simp [hs] at hread
        | done consequence r' more h' =>
            cases r' with
            | nil =>
                simp only [hs, Parsed.done_reads, List.append_eq_nil_iff] at hread
                obtain ⟨rfl, rfl, rfl, rfl⟩ := hread
                exact ⟨test, r, consequence, [], ⟨rfl, rfl, rfl⟩, ⟨h', hs⟩, .inl ⟨by simp, rfl, rfl⟩⟩
            | cons u r' =>
                simp only [hs] at hread
                split at hread
                · next hu =>
                  simp only [Parsed.after_reads, Parsed.map_reads, List.append_eq_nil_iff] at hread
                  obtain ⟨⟨rfl, rfl⟩, alternative, ha, rfl⟩ := hread
                  exact ⟨test, r, consequence, u :: r', ⟨rfl, rfl, rfl⟩, ⟨h', hs⟩,
                    .inr ⟨u, r', alternative, rfl, hu, ha, rfl⟩⟩
                · next hu =>
                  simp only [Parsed.done_reads, List.append_eq_nil_iff] at hread
                  obtain ⟨rfl, rfl, rfl, rfl⟩ := hread
                  exact ⟨test, r, consequence, u :: r', ⟨rfl, rfl, rfl⟩, ⟨h', hs⟩,
                    .inl ⟨by simpa using hu, rfl, rfl⟩⟩
      · rintro ⟨_, _, consequence, r', ⟨rfl, rfl, rfl⟩, ⟨h', hs⟩, hcase⟩
        obtain ⟨hne, rfl, rfl⟩ | ⟨u, r'', alternative, rfl, hu, ha, rfl⟩ := hcase
        · cases r' with
          | nil => simp [hs]
          | cons u r' =>
              have hu : u.kind ≠ .kwElse := hne u rfl
              simp [hs, hu]
        · simp [hs, hu, ha]

/-- Words and braces that start a statement other than an expression. -/
def startsCompound : TokenKind → Bool
  | .kwFor | .kwIf | .kwPrint | .kwWhile | .leftBrace => true
  | _ => false

theorem statement_reads_expression (hk : startsCompound t.kind = false) :
    (statement stop (t :: s)).Reads st rest ↔ (expressionStatement (t :: s)).Reads st rest := by
  rw [statement]
  split <;> simp_all [startsCompound]

theorem declaration_reads_cons :
    (declaration stop (t :: s)).Reads st rest ↔
      (t.kind = .kwVar ∧ (variableDeclaration s).Reads st rest) ∨
      (t.kind ≠ .kwVar ∧ (statement stop (t :: s)).Reads st rest) := by
  rw [declaration]
  split
  · next hk => simp [hk]
  · next hk => simp [hk]

variable {inBlock : Bool} {program : List Stmt}

theorem declarations_reads_nil :
    (declarations stop inBlock []).Reads program rest ↔ program = [] ∧ rest = [] := by
  rw [declarations]
  constructor
  · rintro ⟨hp, hr, -⟩
    exact ⟨hp.symm, hr.symm⟩
  · rintro ⟨rfl, rfl⟩
    exact ⟨rfl, rfl, rfl⟩

theorem declarations_reads_close (hk : t.kind = .rightBrace) :
    (declarations stop true (t :: s)).Reads program rest ↔ program = [] ∧ rest = t :: s := by
  rw [declarations]
  simp only [hk, decide_true, Bool.and_self, ite_true]
  constructor
  · rintro ⟨hp, hr, -⟩
    exact ⟨hp.symm, hr.symm⟩
  · rintro ⟨rfl, rfl⟩
    exact ⟨rfl, rfl, rfl⟩

theorem declarations_extends {d : Stmt} {r : List Token}
    (hk : (inBlock && decide (t.kind = .rightBrace)) = false)
    (h : (declaration stop (t :: s)).Reads d r) :
    (declarations stop inBlock (t :: s)).Extends [d] (declarations stop inBlock r) := by
  obtain ⟨_, hd⟩ := h
  rw [declarations]
  simp only [hk, Bool.false_eq_true, ite_false, hd]
  exact ⟨rfl, rfl, rfl⟩

theorem declarations_reads_cons (hk : (inBlock && decide (t.kind = .rightBrace)) = false) :
    (declarations stop inBlock (t :: s)).Reads program rest ↔ ∃ d r later,
      (declaration stop (t :: s)).Reads d r ∧ (declarations stop inBlock r).Reads later rest ∧
        program = d :: later := by
  constructor
  · intro hread
    rw [declarations] at hread
    simp only [hk, Bool.false_eq_true, ite_false] at hread
    cases hd : declaration stop (t :: s) with
    | failed what r reports h =>
        have hreports := hread.reports_eq
        simp [hd, Declarations.after] at hreports
    | done d r reports h =>
        rw [hd] at hread
        obtain ⟨rfl, rfl, hr⟩ := hread
        obtain ⟨rfl, hr⟩ := List.append_eq_nil_iff.mp hr
        exact ⟨d, r, _, ⟨h, rfl⟩, ⟨rfl, rfl, hr⟩, rfl⟩
  · rintro ⟨d, r, later, hd, hread, rfl⟩
    exact (declarations_extends hk hd).reads hread

end Statements

/-! The end of a token list. -/

/-- The tokens in front of the first end token; all of them if there is none. -/
def beforeEnd (tokens : List Token) : List Token :=
  tokens.takeWhile (·.kind ≠ .endOfFile)

theorem parse_eq_declarations (tokens : List Token) :
    parse tokens = ⟨(declarations (endToken tokens) false (beforeEnd tokens)).program,
      (declarations (endToken tokens) false (beforeEnd tokens)).reports⟩ :=
  rfl

theorem beforeEnd_append {front : List Token} (h : ∀ t ∈ front, t.kind ≠ .endOfFile)
    (back : List Token) : beforeEnd (front ++ back) = front ++ beforeEnd back :=
  List.takeWhile_append_of_pos fun t ht => decide_eq_true (h t ht)

theorem beforeEnd_eq_self {tokens : List Token} (h : ∀ t ∈ tokens, t.kind ≠ .endOfFile) :
    beforeEnd tokens = tokens := by
  have hall := beforeEnd_append h []
  simpa [beforeEnd] using hall

/-- The list `front ++ [last]` ends with its only end token. -/
structure IsEnd (front : List Token) (last : Token) : Prop where
  front : ∀ t ∈ front, t.kind ≠ .endOfFile
  last : last.kind = .endOfFile

namespace IsEnd

variable {front : List Token} {last : Token}

theorem beforeEnd_eq (h : IsEnd front last) : beforeEnd (front ++ [last]) = front := by
  rw [beforeEnd_append h.front, beforeEnd]
  simp [h.last]

theorem endToken_eq (h : IsEnd front last) : endToken (front ++ [last]) = last := by
  have hnone : front.find? (·.kind = .endOfFile) = none :=
    List.find?_eq_none.mpr fun t ht hk => h.front t ht (of_decide_eq_true hk)
  simp [endToken, List.find?_append, hnone, h.last]

theorem parse_eq (h : IsEnd front last) :
    parse (front ++ [last]) =
      ⟨(declarations last false front).program, (declarations last false front).reports⟩ := by
  rw [parse_eq_declarations, h.beforeEnd_eq, h.endToken_eq]

end IsEnd

end Scriptlet
