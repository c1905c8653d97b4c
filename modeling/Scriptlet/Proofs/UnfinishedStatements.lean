import Scriptlet.Proofs.ErrorRecovery

/-!
Statements that lack their semicolon at the end of a block. The error is found at the closing brace,
and recovery starts by skipping the token at which the error was found. So the brace is gone, and
the block goes on with what stands behind it.
-/

namespace Scriptlet

open Derivation (NoElse noElse_cons Leaf)

/-- The semicolon that a print or an expression statement is said to lack if it is left out. -/
def Stmt.semicolonAfter? : Stmt → Option Expectation
  | .expression _ => some .semicolonAfterExpression
  | .print _ => some .semicolonAfterValue
  | _ => none

theorem endsExpression_rightBrace {t : Token} (ht : t.kind = .rightBrace) (s : List Token) :
    EndsExpression (t :: s) := by
  constructor
  · intro u hu m _
    obtain rfl : t = u := by simpa using hu
    rw [ht]
    cases m <;> rfl
  · intro u hu
    obtain rfl : t = u := by simpa using hu
    rw [ht]
    decide

namespace Derivation

theorem ForHead.semicolonAfter?_loop (head : ForHead) (body : Stmt) :
    (head.loop body).semicolonAfter? = none := by
  unfold ForHead.loop
  cases head.initial.tree? <;> rfl

/-- A print or an expression statement without its semicolon fails in front of a closing brace. -/
theorem Statement.fails_unfinished (stop : Token) {closing : Token}
    (hclosing : closing.kind = .rightBrace) (rest : List Token) {what : Expectation}
    (s : Statement) (h : s.tree.semicolonAfter? = some what) :
    ∃ t r, s.tokens.dropLast ++ closing :: rest = t :: r ∧ t.kind ≠ .rightBrace ∧
      t.kind ≠ .kwElse ∧ (declaration stop (t :: r)).Fails what (closing :: rest) := by
  have hends := endsExpression_rightBrace hclosing rest
  have hsemicolon : closing.kind ≠ .semicolon := by
    rw [hclosing]
    decide
  -- The expression is read up to the brace, where a semicolon is looked for.
  have hterminated : ∀ (e : Assignment) (what : Expectation),
      (terminated what (e.tokens ++ closing :: rest)).Fails what (closing :: rest) :=
    fun e _ => (e.reads _ hends).andThen_fails ((expect_fails hsemicolon).map _)
  cases s with
  | expression e semicolon =>
      obtain rfl : .semicolonAfterExpression = what := Option.some.inj h
      obtain ⟨t, r, hr, ht⟩ := e.exists_head (closing :: rest)
      refine ⟨t, r, ?_, ne_of_startsExpression ht rfl, ne_of_startsExpression ht rfl, ?_⟩
      · rw [Statement.tokens, List.dropLast_concat, hr]
      · rw [Scriptlet.declaration, if_neg (ne_of_startsExpression ht rfl),
          statement_eq_expressionStatement (startsCompound_of_startsExpression ht), ← hr]
        exact (hterminated e _).map _
  | print keyword e semicolon =>
      obtain rfl : .semicolonAfterValue = what := Option.some.inj h
      refine ⟨keyword.1, e.tokens ++ closing :: rest, ?_, ?_, ?_, ?_⟩
      · rw [Statement.tokens, ← List.cons_append, List.dropLast_concat, List.cons_append]
      · rw [keyword.2]
        decide
      · rw [keyword.2]
        decide
      · have hvar : keyword.1.kind ≠ .kwVar := by
          rw [keyword.2]
          decide
        rw [Scriptlet.declaration, if_neg hvar, Scriptlet.statement]
        simp only [keyword.2]
        exact ((hterminated e _).map _).after _
  | block | ifThen | ifElse | whileLoop => cases h
  | forLoop head body =>
      rw [Statement.tree, head.semicolonAfter?_loop] at h
      cases h

end Derivation

section Blocks

variable {stop opening : Token} {s : List Token}

/-- A block ends at its closing brace or, if it has none, at the end of the list. -/
theorem rest_declarations_block (stop : Token) (s : List Token) :
    (declarations stop true s).rest = [] ∨
      ∃ u r, (declarations stop true s).rest = u :: r ∧ u.kind = .rightBrace := by
  rw [declarations.eq_def]
  cases s with
  | nil => exact .inl rfl
  | cons t s =>
      simp only [Bool.true_and, decide_eq_true_eq]
      by_cases hk : t.kind = .rightBrace
      · rw [if_pos hk]
        exact .inr ⟨t, s, rfl, hk⟩
      · rw [if_neg hk]
        cases declaration stop (t :: s) with
        | done d r reports h => exact rest_declarations_block stop r
        | failed what r reports h => exact rest_declarations_block stop (recover r)
termination_by s.length
decreasing_by
  · exact h
  · exact length_recover_lt h

theorem declaration_block (hk : opening.kind = .leftBrace) :
    declaration stop (opening :: s) =
      ((expect .rightBrace .braceAfterBlock (declarations stop true s).rest).map fun _ =>
        Stmt.block (declarations stop true s).program).after (declarations stop true s).reports
          ((declarations stop true s).within_cons opening) := by
  have hvar : opening.kind ≠ .kwVar := by
    rw [hk]
    decide
  rw [declaration, if_neg hvar, statement]
  simp only [hk]

/-- A block without a closing brace is left out, with all that stands in it. -/
theorem declarations_of_open_block (hk : opening.kind = .leftBrace)
    (hrest : (declarations stop true s).rest = []) :
    (declarations stop false (opening :: s)).program = [] ∧
      (declarations stop false (opening :: s)).reports =
        (declarations stop true s).reports ++ [⟨stop, .expected .braceAfterBlock⟩] := by
  obtain ⟨h, hd⟩ : ∃ h, declaration stop (opening :: s) =
      .failed .braceAfterBlock [] (declarations stop true s).reports h := by
    rw [declaration_block hk]
    generalize declarations stop true s = inner at hrest ⊢
    obtain ⟨program, rest, reports, within⟩ := inner
    obtain rfl : rest = [] := hrest
    simp [expect, Parsed.map, Parsed.after]
  rw [declarations, hd]
  simp [Declarations.after, recover, declarations, errorAt]

theorem declarations_of_closed_block (hk : opening.kind = .leftBrace) {u : Token} {r : List Token}
    (hrest : (declarations stop true s).rest = u :: r) (hu : u.kind = .rightBrace) :
    (declarations stop false (opening :: s)).program =
        .block (declarations stop true s).program :: (declarations stop false r).program ∧
      (declarations stop false (opening :: s)).reports =
        (declarations stop true s).reports ++ (declarations stop false r).reports := by
  obtain ⟨h, hd⟩ : ∃ h, declaration stop (opening :: s) =
      .done (.block (declarations stop true s).program) r (declarations stop true s).reports h := by
    rw [declaration_block hk]
    generalize declarations stop true s = inner at hrest ⊢
    obtain ⟨program, rest, reports, within⟩ := inner
    obtain rfl : rest = u :: r := hrest
    refine ⟨Nat.lt_succ_of_lt within, ?_⟩
    simp [expect, hu, Parsed.map, Parsed.after]
  rw [declarations, hd]
  simp [Declarations.after]

/-- What is read as no declaration at all, and without an error, in front of a brace is nothing. -/
theorem eq_rest_of_declarations_block {u : Token} {r : List Token}
    (h : (declarations stop true s).Reads [] (u :: r)) : s = u :: r := by
  cases s with
  | nil => cases (declarations_reads_nil.mp h).2
  | cons t s =>
      by_cases hk : t.kind = .rightBrace
      · exact ((declarations_reads_close hk).mp h).2.symm
      · obtain ⟨d, r, later, -, -, hprogram⟩ := (declarations_reads_cons (by simp [hk])).mp h
        cases hprogram

end Blocks

/-! Skipping into a program without errors. -/

theorem isPassedOver_of_joins {l : Level} {k : TokenKind} (h : l.joins k = true) :
    isPassedOver k = true := by
  cases l <;> cases k <;> simp only [Level.joins, reduceCtorEq] at h <;> rfl

theorem isPassedOver_of_isConstant {k : TokenKind} (h : Derivation.isConstant k = true) :
    isPassedOver k = true := by
  cases k <;> simp only [Derivation.isConstant, reduceCtorEq] at h <;> rfl

theorem isPassedOver_leaf {k : TokenKind} (t : Leaf k) (hk : isPassedOver k = true) :
    isPassedOver t.1.kind = true := by
  rw [t.2, hk]

namespace Derivation

mutual

/-- Reading goes on nowhere inside an expression. -/
theorem Assignment.passedOver : (e : Assignment) → ∀ t ∈ e.tokens, isPassedOver t.kind = true
  | .assign name equals value => by
      simp only [Assignment.tokens, List.forall_mem_cons]
      exact ⟨isPassedOver_leaf name rfl, isPassedOver_leaf equals rfl, value.passedOver⟩
  | .operators e => e.passedOver

theorem Operators.passedOver {o : Option Level} :
    (e : Operators o) → ∀ t ∈ e.tokens, isPassedOver t.kind = true
  | .chain first links => List.forall_mem_append.mpr ⟨first.passedOver, links.passedOver⟩
  | .prefixed op operand => by
      refine List.forall_mem_cons.mpr ⟨?_, operand.passedOver⟩
      cases op.2 with
      | inl hk | inr hk =>
          rw [hk]
          rfl
  | .constant t => List.forall_mem_singleton.mpr (isPassedOver_of_isConstant t.2)
  | .name t => List.forall_mem_singleton.mpr (isPassedOver_leaf t rfl)
  | .group opening inner closing => by
      simp only [Operators.tokens, List.forall_mem_cons, List.forall_mem_append]
      exact ⟨isPassedOver_leaf opening rfl, inner.passedOver, isPassedOver_leaf closing rfl,
        fun _ h => by cases h⟩

theorem Links.passedOver {l : Level} :
    (links : Links l) → ∀ t ∈ links.tokens, isPassedOver t.kind = true
  | .nil => fun _ h => by cases h
  | .cons op right links => by
      simp only [Links.tokens, List.forall_mem_cons, List.forall_mem_append]
      exact ⟨isPassedOver_of_joins op.2, right.passedOver, links.passedOver⟩

end

/-- Where a closing brace `u` with `r` behind it comes from, if skipping into declarations and then
into `k` ends in front of it: the declarations have `count` statements. -/
inductive BraceFound (count : Nat) (k : List Token) (u : Token) (r : List Token) : Prop where
  /-- All declarations were skipped. -/
  | behind (last : Token) (hlast : last.kind ≠ .semicolon) (h : skipTo last k = u :: r)
  /-- All declarations were skipped, up to a last semicolon. -/
  | next (h : k = u :: r)
  /-- The brace closes a block among the declarations. -/
  | closes (later : Declarations) (nearest : later.NearestElse)
      (hcount : later.program.length < count) (h : r = later.tokens ++ k)
  /-- The brace closes a block inside another one. -/
  | nested (later : Declarations) (nearest : later.NearestElse) (v : Token)
      (hv : v.kind = .rightBrace) (s : List Token) (h : r = later.tokens ++ v :: s)

theorem BraceFound.mono {count count' : Nat} {k r : List Token} {u : Token}
    (h : BraceFound count k u r) (hcount : count ≤ count') : BraceFound count' k u r := by
  cases h with
  | behind last hlast h => exact .behind last hlast h
  | next h => exact .next h
  | closes later nearest hlater h =>
      exact .closes later nearest (Nat.lt_of_lt_of_le hlater hcount) h
  | nested later nearest v hv s h => exact .nested later nearest v hv s h

/-- No declaration starts with a closing brace. -/
theorem Declarations.eq_of_tokens_append (ds : Declarations) {u : Token} {k r : List Token}
    (hu : u.kind = .rightBrace) (h : ds.tokens ++ k = u :: r) : k = u :: r := by
  cases ds with
  | nil => exact h
  | declare d ds =>
      have hk : d.keyword.1 = u := (List.cons.inj h).1
      rw [← hk, d.keyword.2] at hu
      cases hu
  | statement s ds =>
      obtain ⟨t, _, ht, hbrace, -⟩ := s.exists_head (ds.tokens ++ k)
      rw [Declarations.tokens, List.append_assoc, ht] at h
      rw [(List.cons.inj h).1] at hbrace
      exact absurd hu hbrace

/-- A word that starts a statement ends the skipping. -/
theorem not_brace_of_keyword {k : TokenKind} (t : Leaf k) (hk : startsStatement k = true)
    {previous u : Token} {s r : List Token} (hu : u.kind = .rightBrace) :
    skipTo previous (t.1 :: s) ≠ u :: r := by
  intro h
  rw [skipTo_of_startsStatement (by rw [t.2, hk])] at h
  rw [← (List.cons.inj h).1, t.2] at hu
  rw [hu] at hk
  cases hk

theorem Declarations.braceFound : (ds : Declarations) → ds.NearestElse →
    ∀ {previous u : Token} {k r : List Token}, previous.kind ≠ .semicolon →
      u.kind = .rightBrace → skipTo previous (ds.tokens ++ k) = u :: r →
      BraceFound ds.program.length k u r
  | .nil, _, previous, _, _, _, hp, _, h => .behind previous hp h
  | .declare d _, _, _, _, _, _, _, hu, h => absurd h (not_brace_of_keyword d.keyword rfl hu)
  | .statement (.print keyword _ _) _, _, _, _, _, _, _, hu, h =>
      absurd h (not_brace_of_keyword keyword rfl hu)
  | .statement (.ifThen head _) _, _, _, _, _, _, _, hu, h
  | .statement (.ifElse head _ _ _) _, _, _, _, _, _, _, hu, h
  | .statement (.whileLoop head _) _, _, _, _, _, _, _, hu, h
  | .statement (.forLoop head _) _, _, _, _, _, _, _, hu, h =>
      absurd h (not_brace_of_keyword head.keyword rfl hu)
  | .statement (.expression e semicolon) later, _, _, _, k, _, hp, hu, h => by
      have hstart : startsStatement semicolon.1.kind = false := by
        rw [semicolon.2]
        rfl
      obtain ⟨last, hlast, heq⟩ :=
        skipTo_append e.passedOver hp (semicolon.1 :: (later.tokens ++ k))
      simp only [Declarations.tokens, Statement.tokens, List.append_assoc, List.cons_append,
        List.nil_append] at h
      rw [heq, skipTo_cons hlast hstart, skipTo_of_semicolon semicolon.2] at h
      exact .next (later.eq_of_tokens_append hu h)
  | .statement (.block opening body closing) later, nearest, _, u, k, r, hp, hu, h => by
      have hskip : ∀ {t : Token} {k : TokenKind}, t.kind = k → startsStatement k = false →
          startsStatement t.kind = false := fun ht hk => by rw [ht, hk]
      have hclosing : closing.1.kind ≠ .semicolon := by
        rw [closing.2]
        decide
      have hopening : opening.1.kind ≠ .semicolon := by
        rw [opening.2]
        decide
      simp only [Declarations.tokens, Statement.tokens, List.append_assoc, List.cons_append,
        List.nil_append] at h
      rw [skipTo_cons hp (hskip opening.2 rfl)] at h
      cases body.braceFound nearest.1 hopening hu h with
      | behind last hlast h =>
          rw [skipTo_cons hlast (hskip closing.2 rfl)] at h
          exact (later.braceFound nearest.2 hclosing hu h).mono (Nat.le_succ _)
      | next h =>
          exact .closes later nearest.2 (Nat.lt_succ_self _) (List.cons.inj h).2.symm
      | closes inner hinner _ h => exact .nested inner hinner closing.1 closing.2 _ h
      | nested inner hinner v hv s h => exact .nested inner hinner v hv s h

end Derivation

section Unfinished

variable {a c d : List Token} {opening closing : Token} {st : Stmt} {what : Expectation}

theorem exists_statement_of_parse (hend : ∀ t ∈ d, t.kind ≠ .endOfFile)
    (hd : parse d = ⟨[st], []⟩) (hst : st.semicolonAfter? = some what) :
    ∃ s : Derivation.Statement, s.tokens = d ∧ s.tree = st := by
  obtain ⟨ds, htokens, -, hprogram⟩ := exists_derivation_of_parse (congrArg Reading.errors hd)
  rw [beforeEnd_eq_self hend] at htokens
  rw [hd] at hprogram
  match ds with
  | .nil => cases hprogram
  | .declare d _ =>
      rw [← (List.cons.inj hprogram).1] at hst
      cases hst
  | .statement s .nil =>
      rw [Derivation.Declarations.tokens, Derivation.Declarations.tokens, List.append_nil]
        at htokens
      exact ⟨s, htokens, (List.cons.inj hprogram).1⟩
  | .statement _ (.declare ..) | .statement _ (.statement ..) =>
      cases (List.cons.inj hprogram).2

/-- The declarations of a block in front of an unfinished statement are kept, and those found
behind the brace that should have closed the block are added to them. -/
theorem declarations_of_unfinished (stop : Token) (hclosing : closing.kind = .rightBrace)
    (haend : ∀ t ∈ a, t.kind ≠ .endOfFile) (ha : (parse a).errors = [])
    (hdend : ∀ t ∈ d, t.kind ≠ .endOfFile) (hd : parse d = ⟨[st], []⟩)
    (hst : st.semicolonAfter? = some what) :
    let later := declarations stop true (recover (closing :: c))
    let block := declarations stop true (a ++ d.dropLast ++ closing :: c)
    block.program = (parse a).program ++ later.program ∧ block.rest = later.rest ∧
      block.reports = ⟨closing, .expected what⟩ :: later.reports := by
  obtain ⟨s, rfl, rfl⟩ := exists_statement_of_parse hdend hd hst
  obtain ⟨t, r, htr, hbrace, helse, hfails⟩ := s.fails_unfinished stop hclosing c hst
  have hextends := declarations_extends_of_parse stop true haend ha (noElse_cons r helse)
  have hresumes : (declarations stop true (t :: r)).Resumes _ _ :=
    declarations_resume (by simp [hbrace]) hfails
  rw [List.append_assoc, htr]
  refine ⟨?_, ?_, ?_⟩
  · rw [hextends.program_eq, hresumes.program_eq]
  · rw [hextends.rest_eq, hresumes.rest_eq]
  · rw [hextends.reports_eq, hresumes.reports_eq]
    rfl

/-- No brace behind a closing brace that is skipped leaves the program behind it whole. -/
theorem not_reads_of_braceFound (stop : Token) (hend : ∀ t ∈ c, t.kind ≠ .endOfFile)
    (hc : (parse c).errors = []) (hclosing : closing.kind = .rightBrace) {u : Token}
    {r : List Token} (hu : u.kind = .rightBrace) (h : recover (closing :: c) = u :: r) :
    ¬ (declarations stop false r).Reads (parse c).program [] := by
  intro hreads
  obtain ⟨ds, htokens, nearest, hprogram⟩ := exists_derivation_of_parse hc
  rw [beforeEnd_eq_self hend] at htokens
  have hsemicolon : closing.kind ≠ .semicolon := by
    rw [hclosing]
    decide
  have hfound := ds.braceFound nearest (k := []) hsemicolon hu
    (by rw [List.append_nil, htokens]; exact h)
  have hnil : NoElse [] := fun _ ht => by cases ht
  cases hfound with
  | behind last _ h => cases h
  | next h => cases h
  | closes later hlater hcount h =>
      have hextends := later.extends stop false hlater hnil
      rw [← h] at hextends
      have hlength := congrArg List.length (hextends.program_eq.symm.trans hreads.program_eq)
      rw [← hprogram] at hlength
      simp [declarations] at hlength
      omega
  | nested later hlater v hv s h =>
      have helse : v.kind ≠ .kwElse := by
        rw [hv]
        decide
      have hstart : startsDeclaration v.kind = false := by
        rw [hv]
        rfl
      have hextends := later.extends stop false hlater (noElse_cons s helse)
      have hresumes : (declarations stop false (v :: s)).Resumes _ _ :=
        declarations_resume rfl (declaration_fails hstart)
      have hreports := hreads.reports_eq
      rw [h, hextends.reports_eq, hresumes.reports_eq] at hreports
      cases hreports

theorem parse_of_unfinished {tokens : List Token}
    (htokens : tokens = opening :: (a ++ d.dropLast ++ closing :: c))
    (hopening : opening.kind = .leftBrace) (hclosing : closing.kind = .rightBrace)
    (haend : ∀ t ∈ a, t.kind ≠ .endOfFile) (ha : (parse a).errors = [])
    (hcend : ∀ t ∈ c, t.kind ≠ .endOfFile)
    (hdend : ∀ t ∈ d, t.kind ≠ .endOfFile) (hd : parse d = ⟨[st], []⟩)
    (hst : st.semicolonAfter? = some what) :
    let stop := endToken tokens
    let later := declarations stop true (recover (closing :: c))
    later.rest = [] ∧
        parse tokens = ⟨[], ⟨closing, .expected what⟩ ::
          (later.reports ++ [⟨stop, .expected .braceAfterBlock⟩])⟩ ∨
      ∃ u r, later.rest = u :: r ∧ u.kind = .rightBrace ∧
        parse tokens =
          ⟨.block ((parse a).program ++ later.program) :: (declarations stop false r).program,
            ⟨closing, .expected what⟩ ::
              (later.reports ++ (declarations stop false r).reports)⟩ := by
  intro stop later
  obtain ⟨hprogram, hrest, hreports⟩ :=
    declarations_of_unfinished (c := c) stop hclosing haend ha hdend hd hst
  have hend : ∀ t ∈ tokens, t.kind ≠ .endOfFile := by
    rw [htokens]
    simp only [List.forall_mem_cons, List.forall_mem_append, hopening, hclosing]
    exact ⟨by decide, ⟨haend, fun t ht => hdend t ((List.dropLast_sublist d).subset ht)⟩,
      by decide, hcend⟩
  have hparse : parse tokens =
      ⟨(declarations stop false (opening :: (a ++ d.dropLast ++ closing :: c))).program,
        (declarations stop false (opening :: (a ++ d.dropLast ++ closing :: c))).reports⟩ := by
    rw [← htokens, parse_eq_declarations, beforeEnd_eq_self hend]
  cases rest_declarations_block stop (recover (closing :: c)) with
  | inl hopen =>
      obtain ⟨hp, hr⟩ := declarations_of_open_block hopening (hrest.trans hopen)
      rw [hp, hr, hreports] at hparse
      exact .inl ⟨hopen, hparse⟩
  | inr hclosed =>
      obtain ⟨u, r, hclosed, hu⟩ := hclosed
      obtain ⟨hp, hr⟩ := declarations_of_closed_block hopening (hrest.trans hclosed) hu
      rw [hp, hr, hprogram, hreports] at hparse
      exact .inr ⟨u, r, hclosed, hu, hparse⟩

/-- Where the last statement of a block lacks its semicolon, the error is at the brace that closes
the block, and the block goes on behind that brace, from the place where reading goes on there. If
no other brace closes it, nothing is read at all and a second error is at the end; otherwise all
that is read up to the other brace is part of the block. In no case is the block closed by its own
brace and followed by the program behind it. -/
theorem unfinished_statement_swallows_brace {tokens : List Token}
    (htokens : tokens = opening :: (a ++ d.dropLast ++ closing :: c))
    (hopening : opening.kind = .leftBrace) (hclosing : closing.kind = .rightBrace)
    (haend : ∀ t ∈ a, t.kind ≠ .endOfFile) (ha : (parse a).errors = [])
    (hcend : ∀ t ∈ c, t.kind ≠ .endOfFile) (hc : (parse c).errors = [])
    (hdend : ∀ t ∈ d, t.kind ≠ .endOfFile) (hd : parse d = ⟨[st], []⟩)
    (hst : st.semicolonAfter? = some what) :
    let stop := endToken tokens
    let later := declarations stop true (recover (closing :: c))
    (later.rest = [] ∧
        parse tokens = ⟨[], ⟨closing, .expected what⟩ ::
          (later.reports ++ [⟨stop, .expected .braceAfterBlock⟩])⟩ ∨
      ∃ u r, later.rest = u :: r ∧ u.kind = .rightBrace ∧
        parse tokens =
          ⟨.block ((parse a).program ++ later.program) :: (declarations stop false r).program,
            ⟨closing, .expected what⟩ ::
              (later.reports ++ (declarations stop false r).reports)⟩) ∧
    ∀ error, parse tokens ≠ ⟨.block (parse a).program :: (parse c).program, [error]⟩ := by
  intro stop later
  have hexact := parse_of_unfinished htokens hopening hclosing haend ha hcend hdend hd hst
  refine ⟨hexact, ?_⟩
  intro error herror
  obtain ⟨-, hparse⟩ | ⟨u, r, hclosed, hu, hparse⟩ := hexact
  · cases hparse.symm.trans herror
  · have hreading := hparse.symm.trans herror
    simp only [Reading.mk.injEq, List.cons.injEq, Stmt.block.injEq, List.append_right_eq_self,
      List.append_eq_nil_iff] at hreading
    obtain ⟨⟨hlater, hbehind⟩, -, hquiet, hquiet'⟩ := hreading
    have hstart := eq_rest_of_declarations_block ⟨hlater, hclosed, hquiet⟩
    exact not_reads_of_braceFound stop hcend hc hclosing hu hstart
      ⟨hbehind, rest_declarations stop r, hquiet'⟩

end Unfinished

theorem unfinished_statement_swallows_brace_print :
    ∃ (a d c : List Token) (opening closing : Token) (tokens : List Token),
      tokens = opening :: (a ++ d.dropLast ++ closing :: c) ∧
      tokens.map Token.lexeme =
        ["\x7b", "print", "x", ";", "print", "y", "\x7d", "print", "z", ";"] ∧
      (parse a).errors = [] ∧ (parse d).errors = [] ∧ (parse c).errors = [] ∧
      (∀ error, parse tokens ≠ ⟨.block (parse a).program :: (parse c).program, [error]⟩) ∧
      parse tokens = ⟨[], [⟨closing, .expected .semicolonAfterValue⟩,
        ⟨⟨.endOfFile, "", .nil, 1⟩, .expected .braceAfterBlock⟩]⟩ := by
  have hend : ∀ x : String, ∀ t ∈ ([⟨.kwPrint, "print", .nil, 1⟩, ⟨.identifier, x, .nil, 1⟩,
      ⟨.semicolon, ";", .nil, 1⟩] : List Token), t.kind ≠ .endOfFile := by simp
  have hread : ∀ x : String, parse [⟨.kwPrint, "print", .nil, 1⟩, ⟨.identifier, x, .nil, 1⟩,
      ⟨.semicolon, ";", .nil, 1⟩] = ⟨[.print (.variable ⟨.identifier, x, .nil, 1⟩)], []⟩ := by
    intro x
    cbv
  have herrors := fun x => congrArg Reading.errors (hread x)
  have hlater : ∀ stop : Token, declarations stop true (recover [⟨.rightBrace, "\x7d", .nil, 1⟩,
      ⟨.kwPrint, "print", .nil, 1⟩, ⟨.identifier, "z", .nil, 1⟩, ⟨.semicolon, ";", .nil, 1⟩]) =
      ⟨[.print (.variable ⟨.identifier, "z", .nil, 1⟩)], [], [], Nat.zero_le _⟩ := by
    intro stop
    cbv
  obtain ⟨⟨-, hparse⟩ | ⟨u, r, hclosed, -⟩, hnever⟩ :=
    @unfinished_statement_swallows_brace _ _ _ ⟨.leftBrace, "\x7b", .nil, 1⟩
      ⟨.rightBrace, "\x7d", .nil, 1⟩ _ _ _ rfl rfl rfl (hend "x") (herrors "x") (hend "z")
      (herrors "z") (hend "y") (hread "y") rfl
  · rw [hlater] at hparse
    exact ⟨_, _, _, _, _, _, rfl, rfl, herrors "x", herrors "y", herrors "z", hnever, hparse⟩
  · rw [hlater] at hclosed
    cases hclosed

end Scriptlet
