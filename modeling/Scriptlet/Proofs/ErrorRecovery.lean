import Scriptlet.Proofs.ConcatenatedPrograms

/-!
Reading on behind an error. A rule that fails stops in front of the token that it cannot use, and
reading goes on behind the next semicolon or in front of the next word that starts a statement.
Junk in which no declaration can start costs one error, and the programs on both sides of it are
read as they are alone.
-/

namespace Scriptlet

open Derivation (NoElse noElse_cons)

namespace Parsed

variable {α β : Type} {bound wider : Nat} {p : Parsed α bound} {what : Expectation}
  {rest : List Token}

/-- The rule has stopped in front of `rest` for want of `what` and reports nothing else. -/
def Fails (p : Parsed α bound) (what : Expectation) (rest : List Token) : Prop :=
  ∃ h, p = .failed what rest [] h

theorem Fails.map (h : p.Fails what rest) (f : α → β) : (p.map f).Fails what rest := by
  obtain ⟨within, rfl⟩ := h
  exact ⟨within, rfl⟩

theorem Fails.after (h : p.Fails what rest) (hb : bound ≤ wider) :
    (p.after [] hb).Fails what rest := by
  obtain ⟨within, rfl⟩ := h
  exact ⟨Nat.le_trans within hb, rfl⟩

theorem Fails.andThen (h : p.Fails what rest)
    (next : α → (rest : List Token) → Parsed β rest.length) :
    (p.andThen next).Fails what rest := by
  obtain ⟨within, rfl⟩ := h
  exact ⟨within, rfl⟩

theorem Reads.andThen_fails {value : α} {r : List Token} (h : p.Reads value r)
    {next : α → (rest : List Token) → Parsed β rest.length}
    (hnext : (next value r).Fails what rest) : (p.andThen next).Fails what rest := by
  obtain ⟨shorter, rfl⟩ := h
  exact hnext.after (Nat.le_of_lt shorter)

end Parsed

section Rules

variable {stop t : Token} {s rest : List Token} {what : Expectation}

theorem expect_fails {k : TokenKind} (h : t.kind ≠ k) :
    (expect k what (t :: s)).Fails what (t :: s) := by
  rw [expect, if_neg h]
  exact ⟨Tokens.cons_le_cons t s, rfl⟩

theorem unary_fails (h : startsExpression t.kind = false) :
    (unary (t :: s)).Fails .expression (t :: s) := by
  rw [unary, primary]
  split
  · next hop =>
    have hop : t.kind = .bang ∨ t.kind = .minus := by simpa using hop
    cases hop with
    | inl hk | inr hk =>
        rw [hk] at h
        cases h
  · split
    case h_8 => exact ⟨Tokens.cons_le_cons t s, rfl⟩
    all_goals
      next hk =>
        rw [hk] at h
        cases h

theorem level_fails (h : (unary s).Fails what rest) :
    (o : Option Level) → (level o s).Fails what rest
  | none => h
  | some l => by
      obtain ⟨within, hl⟩ := level_fails h l.tighter?
      rw [level, chain, operand_eq_level, hl]
      exact ⟨within, rfl⟩
termination_by o => o.elim 0 Level.rank
decreasing_by exact rank_tighter_lt l

theorem assignment_fails (h : (unary s).Fails what rest) : (assignment s).Fails what rest := by
  obtain ⟨within, hl⟩ := level_fails h (some .disjunction)
  rw [level] at hl
  rw [assignment, hl]
  exact ⟨within, rfl⟩

theorem statement_eq_expressionStatement (h : startsCompound t.kind = false) :
    statement stop (t :: s) = expressionStatement (t :: s) := by
  rw [statement]
  split <;> simp_all [startsCompound]

/-- The tokens with which a declaration can start. -/
def startsDeclaration (k : TokenKind) : Bool :=
  k == .kwVar || startsCompound k || startsExpression k

/-- Where no declaration can start, an expression is asked for. -/
theorem declaration_fails (h : startsDeclaration t.kind = false) :
    (declaration stop (t :: s)).Fails .expression (t :: s) := by
  simp only [startsDeclaration, Bool.or_eq_false_iff, beq_eq_false_iff_ne] at h
  obtain ⟨⟨hvar, hcompound⟩, hexpression⟩ := h
  rw [declaration, if_neg hvar, statement_eq_expressionStatement hcompound]
  exact ((assignment_fails (unary_fails hexpression)).andThen _).map _

/-- Declarations that report one error first and go on like `later`. -/
structure Declarations.Resumes {bound wider : Nat} (d : Declarations wider) (error : SyntaxError)
    (later : Declarations bound) : Prop where
  program_eq : d.program = later.program
  rest_eq : d.rest = later.rest
  reports_eq : d.reports = error :: later.reports

/-- A declaration that fails is left out, at the cost of one error. -/
theorem declarations_resume {inBlock : Bool}
    (hk : (inBlock && decide (t.kind = .rightBrace)) = false)
    (h : (declaration stop (t :: s)).Fails what rest) :
    (declarations stop inBlock (t :: s)).Resumes (errorAt stop what rest)
      (declarations stop inBlock (recover rest)) := by
  obtain ⟨within, hd⟩ := h
  rw [declarations, hk, hd]
  exact ⟨rfl, rfl, rfl⟩

end Rules

/-! What is passed over. -/

/-- Tokens at which reading does not go on. -/
def isPassedOver (k : TokenKind) : Bool :=
  k != .semicolon && k != .endOfFile && !startsStatement k

theorem isPassedOver_iff {k : TokenKind} :
    isPassedOver k = true ↔ k ≠ .semicolon ∧ k ≠ .endOfFile ∧ startsStatement k = false := by
  simp [isPassedOver, and_assoc]

theorem skipTo_of_semicolon {previous : Token} (h : previous.kind = .semicolon)
    (s : List Token) : skipTo previous s = s := by
  cases s with
  | nil => rfl
  | cons t s => simp [skipTo, h]

theorem skipTo_of_startsStatement {t : Token} (h : startsStatement t.kind = true)
    (previous : Token) (s : List Token) : skipTo previous (t :: s) = t :: s := by
  simp [skipTo, h]

theorem skipTo_cons {previous t : Token} (hp : previous.kind ≠ .semicolon)
    (ht : startsStatement t.kind = false) (s : List Token) :
    skipTo previous (t :: s) = skipTo t s := by
  simp [skipTo, hp, ht]

/-- Tokens that are passed over change nothing but the one that stands last. -/
theorem skipTo_append {m : List Token} (hm : ∀ t ∈ m, isPassedOver t.kind = true)
    {previous : Token} (hp : previous.kind ≠ .semicolon) (s : List Token) :
    ∃ last : Token, last.kind ≠ .semicolon ∧ skipTo previous (m ++ s) = skipTo last s := by
  induction m generalizing previous with
  | nil => exact ⟨previous, hp, rfl⟩
  | cons t m ih =>
      obtain ⟨ht, -, hstart⟩ := isPassedOver_iff.mp (hm t List.mem_cons_self)
      obtain ⟨last, hlast, heq⟩ := ih (fun u hu => hm u (List.mem_cons_of_mem t hu)) ht
      exact ⟨last, hlast, by rw [List.cons_append, skipTo_cons hp hstart, heq]⟩

/-- What is passed over behind a token `t` at which reading has failed, in front of `c`: nothing
behind a semicolon, else all tokens up to and with a semicolon or up to a word that starts a
statement. -/
inductive Junk (t : Token) : List Token → List Token → Prop where
  | semicolon (ht : t.kind = .semicolon) (c : List Token) : Junk t [] c
  | closed {m : List Token} {u : Token} (ht : t.kind ≠ .semicolon)
      (hm : ∀ t ∈ m, isPassedOver t.kind = true) (hu : u.kind = .semicolon) (c : List Token) :
      Junk t (m ++ [u]) c
  | cut {m : List Token} {u : Token} (ht : t.kind ≠ .semicolon)
      (hm : ∀ t ∈ m, isPassedOver t.kind = true) (hu : startsStatement u.kind = true)
      (c : List Token) : Junk t m (u :: c)

namespace Junk

variable {t : Token} {m c : List Token}

theorem recover_eq (h : Junk t m c) : recover (t :: (m ++ c)) = c := by
  cases h with
  | semicolon ht c => exact skipTo_of_semicolon ht c
  | @closed m u ht hm hu c =>
      obtain ⟨last, hlast, heq⟩ := skipTo_append hm ht (u :: c)
      have hstart : startsStatement u.kind = false := by
        rw [hu]
        rfl
      rw [recover, List.append_assoc, List.singleton_append, heq, skipTo_cons hlast hstart,
        skipTo_of_semicolon hu]
  | @cut _ u ht hm hu c =>
      obtain ⟨last, hlast, heq⟩ := skipTo_append hm ht (u :: c)
      rw [recover, heq, skipTo_of_startsStatement hu]

theorem ne_endOfFile (h : Junk t m c) : ∀ u ∈ m, u.kind ≠ .endOfFile := by
  intro v hv
  cases h with
  | semicolon => cases hv
  | closed _ hm hu =>
      obtain hv | hv := List.mem_append.mp hv
      · exact (isPassedOver_iff.mp (hm v hv)).2.1
      · rw [List.mem_singleton.mp hv, hu]
        decide
  | cut _ hm => exact (isPassedOver_iff.mp (hm v hv)).2.1

theorem beforeEnd (h : Junk t m c) : Junk t m (beforeEnd c) := by
  cases h with
  | semicolon ht c => exact .semicolon ht _
  | closed ht hm hu c => exact .closed ht hm hu _
  | @cut _ u ht hm hu c =>
      have hend : u.kind ≠ .endOfFile := by
        intro hk
        rw [hk] at hu
        cases hu
      have hcut : Scriptlet.beforeEnd (u :: c) = u :: Scriptlet.beforeEnd c :=
        beforeEnd_append (List.forall_mem_singleton.mpr hend) c
      rw [hcut]
      exact .cut ht hm hu _

end Junk

/-- Whatever stands behind a program without errors is read behind its statements. -/
theorem declarations_extends_of_parse {a rest : List Token} (stop : Token) (inBlock : Bool)
    (hend : ∀ t ∈ a, t.kind ≠ .endOfFile) (ha : (parse a).errors = []) (hrest : NoElse rest) :
    (declarations stop inBlock (a ++ rest)).Extends (parse a).program
      (declarations stop inBlock rest) := by
  obtain ⟨ds, htokens, nearest, hprogram⟩ := exists_derivation_of_parse ha
  rw [beforeEnd_eq_self hend] at htokens
  have hextends := ds.extends stop inBlock nearest hrest
  rwa [htokens, hprogram] at hextends

/-- The end token of a list does for all that stands behind a front without one. -/
theorem parse_eq_behind {front : List Token} (hend : ∀ t ∈ front, t.kind ≠ .endOfFile)
    (c : List Token) :
    parse c = ⟨(declarations (endToken (front ++ c)) false (beforeEnd c)).program,
      (declarations (endToken (front ++ c)) false (beforeEnd c)).reports⟩ := by
  by_cases hempty : c = []
  · rw [hempty, parse_eq_declarations]
    simp [beforeEnd, declarations]
  · rw [endToken_append hend hempty, parse_eq_declarations]

/-- Junk behind a program without errors costs one error, at its first token. All else is read as
if the junk were not there. -/
theorem parse_leaves_out_junk {a m c : List Token} {t : Token}
    (hend : ∀ u ∈ a, u.kind ≠ .endOfFile) (ha : (parse a).errors = [])
    (hstart : startsDeclaration t.kind = false) (htend : t.kind ≠ .endOfFile)
    (helse : t.kind ≠ .kwElse) (hjunk : Junk t m c) :
    parse (a ++ t :: m ++ c) =
      ⟨(parse a).program ++ (parse c).program,
        ⟨t, .expected .expression⟩ :: (parse c).errors⟩ := by
  have hfront : ∀ u ∈ a ++ t :: m, u.kind ≠ .endOfFile := by
    intro u hu
    obtain hu | hu := List.mem_append.mp hu
    · exact hend u hu
    · obtain rfl | hu := List.mem_cons.mp hu
      · exact htend
      · exact hjunk.ne_endOfFile u hu
  let stop := endToken (a ++ t :: m ++ c)
  have hbefore : beforeEnd (a ++ t :: m ++ c) = a ++ t :: (m ++ beforeEnd c) := by
    rw [beforeEnd_append hfront, List.append_assoc, List.cons_append]
  have hextends := declarations_extends_of_parse stop false hend ha
    (noElse_cons (m ++ beforeEnd c) helse)
  have hresumes : (declarations stop false (t :: (m ++ beforeEnd c))).Resumes _ _ :=
    declarations_resume rfl (declaration_fails hstart)
  rw [hjunk.beforeEnd.recover_eq] at hresumes
  rw [parse_eq_declarations, hbefore, hextends.program_eq, hextends.reports_eq,
    hresumes.program_eq, hresumes.reports_eq, parse_eq_behind hfront c]
  rfl

theorem parse_leaves_out_junk_brace :
    ∃ (a m c : List Token) (t : Token),
      a.map Token.lexeme = ["if", "(", "x", ")", "x", ";"] ∧
      (t :: m).map Token.lexeme = ["\x7d", "else", "(", "\x7b"] ∧
      c.map Token.lexeme = ["return", "x", ";", "var"] ∧
      (∀ u ∈ a, u.kind ≠ .endOfFile) ∧ (parse a).errors = [] ∧
      startsDeclaration t.kind = false ∧ t.kind ≠ .endOfFile ∧ t.kind ≠ .kwElse ∧ Junk t m c ∧
      parse (a ++ t :: m ++ c) =
        ⟨(parse a).program ++ (parse c).program,
          ⟨t, .expected .expression⟩ :: (parse c).errors⟩ := by
  have hend : ∀ u ∈ ([⟨.kwIf, "if", .nil, 1⟩, ⟨.leftParen, "(", .nil, 1⟩,
      ⟨.identifier, "x", .nil, 1⟩, ⟨.rightParen, ")", .nil, 1⟩, ⟨.identifier, "x", .nil, 1⟩,
      ⟨.semicolon, ";", .nil, 1⟩] : List Token), u.kind ≠ .endOfFile := by decide
  have hpassed : ∀ u ∈ ([⟨.kwElse, "else", .nil, 2⟩, ⟨.leftParen, "(", .nil, 2⟩,
      ⟨.leftBrace, "\x7b", .nil, 2⟩] : List Token), isPassedOver u.kind = true := by decide
  have hjunk : Junk ⟨.rightBrace, "\x7d", .nil, 2⟩ _ [⟨.kwReturn, "return", .nil, 3⟩,
      ⟨.identifier, "x", .nil, 3⟩, ⟨.semicolon, ";", .nil, 3⟩, ⟨.kwVar, "var", .nil, 3⟩] :=
    .cut (by decide) hpassed rfl _
  exact ⟨_, _, _, _, rfl, rfl, rfl, hend, by cbv, rfl, by decide, by decide, hjunk,
    parse_leaves_out_junk hend (by cbv) rfl (by decide) (by decide) hjunk⟩

end Scriptlet
