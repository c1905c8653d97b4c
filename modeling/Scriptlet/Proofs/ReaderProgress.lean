import Scriptlet.Proofs.ExpressionWalks

/-!
Walks over statements. A declaration that cannot be read still brings the reader forward, so every
token list is read to its end, whatever stands in it.
-/

namespace Scriptlet

open Reader

section Statements

variable {c : Cut} {r : Reader} (depth : Nat) {s : List Token}

theorem terminated_agrees (hd : 18 * s.length + 15 ≤ depth) (h : r.Faces c s)
    (what : Expectation) : c.Agrees r (Walk.terminated depth what) (terminated what s) :=
  (assignment_agrees depth s hd h).andThen fun e _ _ _ faces => closing_agrees faces _ _ e

theorem expressionStatement_agrees (hd : 18 * s.length + 15 ≤ depth) (h : r.Faces c s) :
    c.Agrees r (Walk.expressionStatement depth) (expressionStatement s) :=
  (terminated_agrees depth hd h _).map Stmt.expression

theorem map_terminated {β : Type} (what : Expectation) (s : List Token) (f : Expr → β) :
    (terminated what s).map f =
      (expression s).andThen fun e rest => (expect .semicolon what rest).map fun _ => f e := by
  unfold terminated
  cases expression s with
  | failed => rfl
  | done e rest =>
      simp only [Parsed.andThen]
      cases expect .semicolon what rest <;> rfl

theorem variableDeclaration_agrees (hd : 18 * s.length + 15 ≤ depth) (h : r.Faces c s) :
    c.Agrees r (Walk.variableDeclaration depth) (variableDeclaration s) := by
  apply consume_andThen h
  intro name rest r₁ hlength faces
  -- The name is there, so what is left to do is to close the declaration.
  have hclose : ∀ {r₂ : Reader} {rest' : List Token}, r₂.Faces c rest' → ∀ e : Expr,
      c.Agrees r₂ (do
          let _ ← Walk.consume .semicolon .semicolonAfterDeclaration
          return .declare (← Walk.found (some name)) e)
        ((expect .semicolon .semicolonAfterDeclaration rest').map fun _ => Stmt.declare name e) :=
    fun faces e => closing_agrees faces _ _ (Stmt.declare name e)
  cases rest with
  | nil => exact (hclose faces .missing).congr (Rule.run_bind (Rule.run_accept_end faces _))
  | cons t rest =>
      have hrun : (Walk.initialValue depth).run.run r₁ = _ := Rule.run_accept faces _
      simp only
      split
      · next hk =>
        rw [if_pos (by rw [hk]; rfl)] at hrun
        have hvalue := (assignment_agrees depth rest (by simp at hlength; omega) faces.step).andThen
          fun e _ _ _ faces => hclose faces e
        rw [map_terminated]
        exact hvalue.behind_step (Rule.run_bind_congr hrun) _
      · next hk =>
        rw [if_neg (by simpa using hk)] at hrun
        exact (hclose faces .missing).congr (Rule.run_bind hrun)

theorem condition_agrees (hd : 18 * s.length + 15 ≤ depth) (h : r.Faces c s)
    (what : Expectation) : c.Agrees r (Walk.condition depth what) (condition what s) := by
  apply consume_andThen h
  intro _ rest r₁ hlength faces
  apply (assignment_agrees depth rest (by omega) faces).andThen
  intro e rest' r₂ _ faces'
  exact closing_agrees faces' _ _ e

theorem clause_agrees (hd : 18 * s.length + 15 ≤ depth) (h : r.Faces c s) (k : TokenKind)
    (what : Expectation) : c.Agrees r (Walk.clause depth k what) (clause k what s) := by
  have hrun : (Walk.optional depth k).run.run r = _ := Rule.run_check h k
  cases s with
  | nil =>
      have hnothing := assignment_agrees depth [] hd h
      rw [clause, expression]
      generalize assignment [] = p at hnothing ⊢
      cases hnothing with
      | done run faces reported count => exact absurd count (Nat.not_lt_zero _)
      | failed run faces reported count room =>
          exact .failed (Rule.run_bind_error (hrun.trans run)) faces reported count room
  | cons t s =>
      simp only [List.head?_cons, Option.any_some, decide_eq_true_eq] at hrun
      simp only [clause]
      by_cases hk : t.kind = k
      · rw [if_pos hk] at hrun ⊢
        have hclosing := closing_agrees h k what Expr.missing
        rw [expect, if_pos hk] at hclosing
        exact hclosing.congr (Rule.run_bind hrun)
      · rw [if_neg hk] at hrun ⊢
        have hvalue := (assignment_agrees depth (t :: s) hd h).andThen fun e _ _ _ faces =>
          closing_agrees faces k what e
        exact hvalue.congr (Rule.run_bind_congr hrun)

theorem forInitial_agrees (hd : 18 * s.length + 15 ≤ depth) (h : r.Faces c s) :
    c.Agrees r (Walk.forInitial depth) (forInitial s) := by
  cases s with
  | nil =>
      refine (expressionStatement_agrees depth hd h).congr ?_
      rw [Walk.forInitial, Rule.run_accept_end h, Rule.run_accept_end h]
  | cons t s =>
      simp only [List.length_cons] at hd
      simp only [forInitial]
      split
      · next hk =>
        refine .done ?_ h.step r.reported_append_nil (by simp)
        rw [Walk.forInitial, Rule.run_accept h, if_pos (by rw [hk]; rfl)]
        rfl
      · next hk =>
        have hdeclaration : c.Agrees r.step (Walk.variableDeclaration depth) _ :=
          variableDeclaration_agrees depth (by omega) h.step
        refine hdeclaration.behind_step ?_ _
        rw [Walk.forInitial, Rule.run_accept h, if_neg (by rw [hk]; decide), Rule.run_accept h,
          if_pos (by rw [hk]; rfl)]
      · next hsemicolon hvar =>
        refine (expressionStatement_agrees depth (by simp; omega) h).congr ?_
        rw [Walk.forInitial, Rule.run_accept h, if_neg (by simpa using hsemicolon),
          Rule.run_accept h, if_neg (by simpa using hvar)]

theorem forClauses_agrees (hd : 18 * s.length + 15 ≤ depth) (h : r.Faces c s) :
    c.Agrees r (Walk.forClauses depth) (forClauses s) := by
  apply consume_andThen h
  intro _ rest r₁ hrest faces
  apply (forInitial_agrees depth (by omega) faces).andThen
  intro initial rest₁ r₂ hrest₁ faces₁
  apply (clause_agrees depth (by omega) faces₁ _ _).andThen
  intro condition rest₂ r₃ hrest₂ faces₂
  exact (clause_agrees depth (by omega) faces₂ _ _).map (ForClauses.mk initial condition)

theorem contains_starters (k : TokenKind) : Walk.starters.contains k = startsStatement k := by
  cases k <;> rfl

theorem skip_run (depth : Nat) (previous : Token) (s : List Token) (hd : s.length + 1 ≤ depth)
    {r : Reader} (h : r.Faces c s) (hprevious : r.cursor.previous? = some previous) :
    ∃ r', (Walk.skip depth).run r = some ((), r') ∧ r'.Faces c (skipTo previous s) ∧
      r'.reported = r.reported := by
  induction s generalizing depth previous r with
  | nil =>
      obtain ⟨depth, rfl⟩ := Nat.exists_eq_succ_of_ne_zero (Nat.ne_of_gt hd)
      refine ⟨r, ?_, h, rfl⟩
      rw [Walk.skip, Walk.run_bind (Walk.run_isAtEnd h)]
      rfl
  | cons t s ih =>
      obtain ⟨depth, rfl⟩ := Nat.exists_eq_succ_of_ne_zero (Nat.ne_zero_of_lt hd)
      have hkind : r.cursor.atKind Walk.starters = startsStatement t.kind :=
        (h.atKind _).trans (contains_starters _)
      rw [Walk.skip, Walk.run_bind (Walk.run_isAtEnd h)]
      simp only [List.isEmpty_cons, Bool.false_eq_true, if_false, skipTo]
      rw [Walk.run_bind (Walk.run_previous hprevious)]
      by_cases hsemicolon : previous.kind = .semicolon
      · simp only [hsemicolon, if_true, decide_true, Bool.true_or]
        exact ⟨r, rfl, h, rfl⟩
      · simp only [hsemicolon, if_false, decide_false, Bool.false_or]
        rw [Walk.run_get, hkind]
        cases startsStatement t.kind with
        | true => exact ⟨r, rfl, h, rfl⟩
        | false =>
            have hnext := ih depth t (by simpa using hd) h.step h.previous?
            simp only [Bool.false_eq_true, if_false]
            rwa [Walk.run_bind (Walk.run_advance h.atEnd h.peek?)]

end Statements

section Declarations

variable {c : Cut} {r : Reader}

theorem synchronize_run {depth : Nat} {s : List Token} (hd : s.length + 1 ≤ depth)
    (h : r.Faces c s) (what : Expectation) :
    ∃ r', (Walk.synchronize depth).run
          (r.withError ⟨r.cursor.position, errorAt c.stop what s⟩) = some ((), r') ∧
      r'.Faces c (recover s) ∧ r'.reported = r.reported ++ [errorAt c.stop what s] := by
  cases s with
  | nil =>
      -- At the end nothing is left to skip.
      have hend : ComesBefore c.body.length r.cursor.position r.cursor.position := by
        have hposition := h.position
        simp only [List.length_nil] at hposition
        exact ⟨Int.le_refl _, by omega⟩
      have hfaces := h.refuse h rfl hend what
      obtain ⟨depth, rfl⟩ := Nat.exists_eq_succ_of_ne_zero (Nat.ne_zero_of_lt hd)
      refine ⟨_, ?_, hfaces, r.reported_withError _⟩
      rw [Walk.synchronize, Walk.run_bind (Walk.run_advance_end hfaces), Walk.skip,
        Walk.run_bind (Walk.run_isAtEnd hfaces)]
      rfl
  | cons t s =>
      -- The token of the error is skipped, so whatever is found later is behind it.
      have hfaces := h.refuse h.step rfl ⟨Int.le_add_one (Int.le_refl _), fun _ => Int.lt_succ _⟩
        what
      obtain ⟨r', hrun, faces, hsame⟩ := skip_run depth t s (Nat.le_of_succ_le hd) hfaces
        h.previous?
      refine ⟨r', ?_, faces, hsame.trans (r.step.reported_withError _)⟩
      have hadvance : Walk.advance.run
          (r.withError ⟨r.cursor.position, errorAt c.stop what (t :: s)⟩) = _ :=
        Walk.run_advance h.atEnd h.peek?
      rw [Walk.synchronize, Walk.run_bind hadvance]
      exact hrun

/-- A declaration, before an error in it is dealt with. -/
def Walk.declared (depth : Nat) : Rule Stmt := do
  if ← Walk.accept [.kwVar] then Walk.variableDeclaration depth else Walk.statement depth

/-- What is left of a declaration: the statement, unless it could not be read, and the tokens from
which reading goes on. -/
def Parsed.settle {bound : Nat} (stop : Token) :
    Parsed Stmt bound → Option Stmt × List Token × List SyntaxError
  | .done d rest reports _ => (some d, rest, reports)
  | .failed what rest reports _ => (none, recover rest, reports ++ [errorAt stop what rest])

theorem declaration_run {depth : Nat} {t : Token} {s : List Token} (hd : s.length + 2 ≤ depth)
    (h : r.Faces c (t :: s)) {p : Parsed Stmt (t :: s).length}
    (hp : c.Agrees r (Walk.declared depth) p) :
    ∃ r', (Walk.declaration (depth + 1)).run r = some ((p.settle c.stop).1, r') ∧
      r'.Faces c (p.settle c.stop).2.1 ∧
      r'.reported = r.reported ++ (p.settle c.stop).2.2 ∧
      (p.settle c.stop).2.2.length + (p.settle c.stop).2.1.length ≤ s.length + 1 := by
  have hposition := h.position
  have hstart := h.position_nonneg
  have hrun : (Walk.declaration (depth + 1)).run r = _ := Walk.run_bind rfl
  cases hp with
  | @done d rest reports shorter r₁ run faces reported count =>
      have hafter := faces.position
      refine ⟨r₁.withCall r.cursor.position, ?_, faces.withCall hstart ?_, reported, ?_⟩
      · exact hrun.trans (Walk.run_bind run)
      · simp only [List.length_cons] at hposition shorter
        omega
      · exact Nat.le_of_lt count
  | @failed what rest reports within r₁ run faces reported count room =>
      have hlength := length_recover_lt within
      obtain ⟨r₂, hsync, faces₂, reported₂⟩ :=
        synchronize_run (Nat.le_trans (Nat.succ_le_succ within) hd) faces what
      have hafter := faces₂.position
      refine ⟨r₂.withCall r.cursor.position, ?_, faces₂.withCall hstart ?_, ?_, ?_⟩
      · refine hrun.trans ((Walk.run_bind run).trans ?_)
        exact (Walk.run_bind (x := Walk.report _) rfl).trans (Walk.run_bind hsync)
      · simp only [List.length_cons] at hposition hlength
        omega
      · rw [Parsed.settle, ← List.append_assoc, ← reported]
        exact reported₂
      · simp only [Parsed.settle, List.length_append, List.length_singleton]
        simp only [List.length_cons] at room count
        -- At the end no token pays for the error, but an earlier one is left for it.
        cases rest with
        | nil =>
            simp only [recover, List.length_nil]
            omega
        | cons u rest =>
            have hskipped := length_recover_lt (Nat.le_refl (u :: rest).length)
            omega

/-- The walk over declarations does what reading them says, and no more errors are reported than
tokens used up. -/
def Cut.AgreesAll {bound : Nat} (c : Cut) (r : Reader) (x : Walk (List Stmt))
    (d : Declarations bound) : Prop :=
  ∃ r', x.run r = some (d.program, r') ∧ r'.Faces c d.rest ∧
    r'.reported = r.reported ++ d.reports ∧ d.reports.length + d.rest.length ≤ bound

theorem declarations_cons (stop : Token) (inBlock : Bool) (t : Token) (s : List Token)
    (hstop : (inBlock && t.kind = .rightBrace) = false) :
    ∃ h, declarations stop inBlock (t :: s) =
      let settled := (declaration stop (t :: s)).settle stop
      (declarations stop inBlock settled.2.1).after settled.1.toList settled.2.2 h := by
  rw [declarations, hstop]
  simp only [Bool.false_eq_true, if_false]
  cases declaration stop (t :: s) with
  | done d rest reports shorter => exact ⟨shorter, rfl⟩
  | failed what rest reports within => exact ⟨length_recover_lt within, rfl⟩

theorem Parsed.after_nil_andThen {α β : Type} {bound wider : Nat} (p : Parsed α bound)
    (next : α → (rest : List Token) → Parsed β rest.length) (h : bound ≤ wider) :
    (p.andThen next).after [] h =
      match p with
      | .failed what rest reports within => .failed what rest reports (Nat.le_trans within h)
      | .done v rest reports shorter =>
        (next v rest).after reports (Nat.le_trans (Nat.le_of_lt shorter) h) := by
  cases p with
  | failed => rfl
  | done v rest reports shorter =>
      simp only [Parsed.andThen]
      cases next v rest <;> rfl

theorem Walk.run_declarations {depth : Nat} {inBlock : Bool} {s : List Token} (h : r.Faces c s) :
    (Walk.declarations (depth + 1) inBlock).run r =
      if (inBlock && s.head?.any (·.kind = .rightBrace)) || s.isEmpty then some ([], r)
      else (do
        let d ← Walk.declaration depth
        let later ← Walk.declarations depth inBlock
        return d.toList ++ later : Walk (List Stmt)).run r := by
  rw [Walk.declarations, Walk.run_bind (Walk.run_check h _), Walk.run_bind (Walk.run_isAtEnd h)]
  split <;> rfl

/-- A conditional is read as it should be if the statements in it are. -/
theorem conditional_agrees {depth : Nat} {t : Token} {s : List Token}
    (hd : 18 * s.length + 15 ≤ depth) (hk : t.kind = .kwIf) (h : r.Faces c (t :: s))
    (hs : ∀ rest : List Token, rest.length < s.length → ∀ {r' : Reader}, r'.Faces c rest →
      c.Agrees r' (Walk.statement depth) (statement c.stop rest)) :
    c.Agrees r (Walk.statement (depth + 1)) (statement c.stop (t :: s)) := by
  have hrun : (Walk.statement (depth + 1)).run.run r = (do
      let test ← Walk.condition depth .parenAfterIf
      let consequence ← Walk.statement depth
      if ← Walk.accept [.kwElse] then
        let alternative ← Walk.statement depth
        return .conditional test consequence alternative
      else return .conditional test consequence .missing : Rule Stmt).run.run r.step := by
    simp only [Walk.statement, Rule.run_accept h, hk]
    rfl
  have htest := condition_agrees depth (by omega) h.step .parenAfterIf
  rw [statement]
  simp only [hk]
  generalize condition .parenAfterIf s = p at htest ⊢
  cases htest with
  | failed run faces reported count room =>
      exact .failed (hrun.trans (Rule.run_bind_error run)) faces reported
        (Nat.le_succ_of_le count) (.inl (by simp only [List.length_cons]; omega))
  | @done test rest reports shorter r₁ run faces reported count =>
      have hthen := hs rest shorter faces
      have hreported : r₁.reported = r.reported ++ reports := reported
      dsimp only
      generalize statement c.stop rest = q at hthen ⊢
      cases hthen with
      | failed run₁ faces₁ reported₁ count₁ room₁ =>
          refine .failed ?_ faces₁ ?_ ?_ (.inl ?_)
          · rw [hrun, Rule.run_bind run, Rule.run_bind_error run₁]
          · rw [reported₁, hreported, List.append_assoc]
          · simp only [List.length_append, List.length_cons]
            omega
          · simp only [List.length_append, List.length_cons]
            omega
      | @done consequence rest₁ more shorter₁ r₂ run₁ faces₁ reported₁ count₁ =>
          have hreported₁ : r₂.reported = r.reported ++ (reports ++ more) := by
            rw [reported₁, hreported, List.append_assoc]
          cases rest₁ with
          | nil =>
              refine .done ?_ faces₁ hreported₁ ?_
              · rw [hrun, Rule.run_bind run, Rule.run_bind run₁,
                  Rule.run_accept_end faces₁]
                rfl
              · simp only [List.length_append, List.length_cons, List.length_nil]
                omega
          | cons u rest₁ =>
              simp only [List.length_cons] at count₁
              by_cases hu : u.kind = .kwElse
              · simp only [hu, if_true]
                have helse := (hs rest₁ (by omega) faces₁.step).map
                  fun alternative => Stmt.conditional test consequence alternative
                refine helse.behind ?_ hreported₁ ?_ ?_ _
                · rw [hrun, Rule.run_bind run, Rule.run_bind run₁,
                    Rule.run_accept faces₁, if_pos (by rw [hu]; rfl)]
                · simp only [List.length_append, List.length_cons]
                  omega
                · simp only [List.length_append, List.length_cons]
                  omega
              · simp only [hu, if_false]
                refine .done ?_ faces₁ hreported₁ ?_
                · rw [hrun, Rule.run_bind run, Rule.run_bind run₁,
                    Rule.run_accept faces₁, if_neg (by simpa using hu)]
                  rfl
                · simp only [List.length_append, List.length_cons]
                  omega

mutual

theorem statement_agrees (depth : Nat) (s : List Token) (hd : 18 * s.length + 16 ≤ depth)
    {r : Reader} (h : r.Faces c s) :
    c.Agrees r (Walk.statement depth) (statement c.stop s) := by
  cases depth with
  | zero => omega
  | succ depth =>
      cases s with
      | nil =>
          have hexpression : c.Agrees r (Walk.expressionStatement depth) _ :=
            expressionStatement_agrees depth (Nat.le_of_succ_le_succ hd) h
          rw [statement]
          refine hexpression.congr ?_
          simp only [Walk.statement, Rule.run_accept_end h]
      | cons t s =>
          simp only [List.length_cons] at hd
          by_cases hif : t.kind = .kwIf
          · exact conditional_agrees (by omega) hif h fun rest hrest _ faces =>
              statement_agrees depth rest (by omega) faces
          rw [statement]
          split
          case h_1 hk =>
            have hfor := (forClauses_agrees depth (by omega) h.step).andThen
              fun clauses rest _ _ faces =>
                (statement_agrees depth rest (by omega) faces).map clauses.loop
            have hwhole : c.Agrees r (Walk.statement (depth + 1)) _ :=
              hfor.behind_step (by simp only [Walk.statement, Rule.run_accept h, hk]; rfl)
                (Nat.le_succ _)
            rw [Parsed.after_nil_andThen] at hwhole
            generalize forClauses s = p at hwhole ⊢
            cases p <;> exact hwhole
          case h_2 hk => exact absurd hk hif
          case h_3 hk =>
            have hprint := (terminated_agrees depth (by omega) h.step .semicolonAfterValue).map
              Stmt.print
            refine hprint.behind_step ?_ _
            simp only [Walk.statement, Rule.run_accept h, hk]
            rfl
          case h_4 hk =>
            have hwhile := (condition_agrees depth (by omega) h.step .parenAfterWhile).andThen
              fun test rest _ _ faces => (statement_agrees depth rest (by omega) faces).map
                fun body => Stmt.loop test body
            have hwhole : c.Agrees r (Walk.statement (depth + 1)) _ :=
              hwhile.behind_step (by simp only [Walk.statement, Rule.run_accept h, hk]; rfl)
                (Nat.le_succ _)
            rw [Parsed.after_nil_andThen] at hwhole
            generalize condition .parenAfterWhile s = p at hwhole ⊢
            cases p <;> exact hwhole
          case h_5 hk =>
            obtain ⟨r₁, hrun₁, faces₁, reported₁, count₁⟩ :=
              declarations_agree depth true s (by omega) h.step
            have hclosing := closing_agrees faces₁ .rightBrace .braceAfterBlock
              (Stmt.block (declarations c.stop true s).program)
            have hreported : r₁.reported = r.reported ++ _ := reported₁
            refine hclosing.behind ?_ hreported ?_ ?_ _
            · simp only [Walk.statement, Rule.run_accept h, hk]
              exact Rule.run_lift hrun₁
            · simp only [List.length_cons]
              omega
            · simp only [List.length_cons]
              omega
          case h_6 hFor hIf hPrint hWhile hBrace =>
            refine (expressionStatement_agrees depth (by simp; omega) h).congr ?_
            rw [Walk.statement, Rule.run_accept h, if_neg (by simpa using hFor),
              Rule.run_accept h, if_neg (by simpa using hIf),
              Rule.run_accept h, if_neg (by simpa using hPrint),
              Rule.run_accept h, if_neg (by simpa using hWhile),
              Rule.run_accept h, if_neg (by simpa using hBrace)]

theorem declared_agrees (depth : Nat) (s : List Token) (hd : 18 * s.length + 16 ≤ depth)
    {r : Reader} (h : r.Faces c s) :
    c.Agrees r (Walk.declared depth) (declaration c.stop s) := by
  have hstatement := statement_agrees depth s hd h
  cases s with
  | nil =>
      rw [declaration]
      exact hstatement.congr (Rule.run_accept_end h _)
  | cons t s =>
      have hrun : (Walk.declared depth).run.run r = _ := Rule.run_accept h _
      simp only [List.length_cons] at hd
      rw [declaration]
      split
      · next hk =>
        rw [if_pos (by rw [hk]; rfl)] at hrun
        exact (variableDeclaration_agrees depth (by omega) h.step).behind_step hrun _
      · next hk =>
        rw [if_neg (by simpa using hk)] at hrun
        exact hstatement.congr hrun

theorem declarations_agree (depth : Nat) (inBlock : Bool) (s : List Token)
    (hd : 18 * s.length + 18 ≤ depth) {r : Reader} (h : r.Faces c s) :
    c.AgreesAll r (Walk.declarations depth inBlock) (declarations c.stop inBlock s) := by
  match s, depth with
  | s, 0 => omega
  | [], depth + 1 =>
      rw [declarations]
      refine ⟨r, ?_, h, r.reported_append_nil, Nat.le_refl _⟩
      rw [Walk.run_declarations h, if_pos (by simp)]
  | t :: s, 1 =>
      simp only [List.length_cons] at hd
      omega
  | t :: s, depth + 2 =>
      rw [List.length_cons] at hd
      cases hstop : inBlock && t.kind = .rightBrace with
      | true =>
          rw [declarations, if_pos hstop]
          refine ⟨r, ?_, h, r.reported_append_nil, by simp⟩
          rw [Walk.run_declarations h, if_pos (by simpa using hstop)]
      | false =>
          have hdeclared := declared_agrees depth (t :: s) (by simp; omega) h
          obtain ⟨hshorter, hwhole⟩ := declarations_cons c.stop inBlock t s hstop
          obtain ⟨r₁, run₁, faces₁, reported₁, count₁⟩ := declaration_run (by omega) h hdeclared
          have hlength := Nat.lt_of_lt_of_eq hshorter List.length_cons
          obtain ⟨r₂, run₂, faces₂, reported₂, count₂⟩ :=
            declarations_agree (depth + 1) inBlock _ (by omega) faces₁
          rw [hwhole]
          refine ⟨r₂, ?_, faces₂, ?_, ?_⟩
          · rw [Walk.run_declarations h, if_neg (by simpa using hstop), Walk.run_bind run₁,
              Walk.run_bind run₂]
            rfl
          · simp only [Declarations.after]
            rw [reported₂, reported₁, List.append_assoc]
          · simp only [Declarations.after, List.length_append, List.length_cons]
            omega

end

end Declarations

/-- The position of the first end token. -/
def firstEnd (tokens : List Token) : Nat := (withEnd tokens).findIdx (·.kind = .endOfFile)

theorem withEnd_of_noEnd {tokens : List Token} (h : ∀ t ∈ tokens, t.kind ≠ .endOfFile) :
    withEnd tokens = tokens ++ [endToken tokens] := by
  have hnone : tokens.find? (·.kind = .endOfFile) = none := by
    apply List.find?_eq_none.mpr
    intro t ht hk
    exact h t ht (of_decide_eq_true hk)
  have hlast : ¬ tokens.getLast?.any (·.kind = .endOfFile) = true := by
    cases hlast : tokens.getLast? with
    | none => exact Bool.false_ne_true
    | some t => simp [h t (List.mem_of_getLast? hlast)]
  simp only [withEnd, hlast, endToken, hnone]
  rfl

theorem exists_withEnd_eq_append (tokens : List Token) :
    ∃ extra, withEnd tokens = tokens ++ extra := by
  unfold withEnd
  split
  · exact ⟨[], (List.append_nil _).symm⟩
  · exact ⟨_, rfl⟩

theorem exists_cut (tokens : List Token) :
    ∃ c : Cut, c.tokens = withEnd tokens ∧ c.body = beforeEnd tokens ∧ c.stop = endToken tokens := by
  cases hfind : tokens.find? (·.kind = .endOfFile) with
  | none =>
      have hnoEnd : ∀ t ∈ tokens, t.kind ≠ .endOfFile := by
        intro t ht hk
        exact List.find?_eq_none.mp hfind t ht (decide_eq_true hk)
      refine ⟨⟨tokens, endToken tokens, [], hnoEnd, ?_⟩, ?_, ?_, rfl⟩
      · simp [endToken, hfind]
      · exact (withEnd_of_noEnd hnoEnd).symm
      · exact (beforeEnd_eq_self hnoEnd).symm
  | some stop =>
      obtain ⟨hk, front, back, rfl, hfront⟩ := List.find?_eq_some_iff_append.mp hfind
      obtain ⟨extra, hextra⟩ := exists_withEnd_eq_append (front ++ stop :: back)
      have hstop : stop.kind = .endOfFile := of_decide_eq_true hk
      have hnoEnd : ∀ t ∈ front, t.kind ≠ .endOfFile := by
        intro t ht
        simpa using hfront t ht
      refine ⟨⟨front, stop, back ++ extra, hnoEnd, hstop⟩, ?_, ?_, ?_⟩
      · rw [hextra, Cut.tokens, List.append_assoc, List.cons_append]
      · rw [beforeEnd_append hnoEnd, beforeEnd, List.takeWhile_cons_of_neg (by simp [hstop]),
          List.append_nil]
      · simp [endToken, hfind]

theorem Cut.findIdx_tokens (c : Cut) : c.tokens.findIdx (·.kind = .endOfFile) = c.body.length := by
  have hbody : c.body.findIdx (·.kind = .endOfFile) = c.body.length :=
    List.findIdx_eq_length.mpr fun t ht => decide_eq_false (c.noEnd t ht)
  rw [Cut.tokens, List.findIdx_append, hbody, if_neg (Nat.lt_irrefl _), List.findIdx_cons,
    decide_eq_true c.isEnd]
  exact Nat.zero_add _

theorem Cut.faces_start (c : Cut) :
    Reader.Faces c c.body ⟨⟨c.tokens.toArray, 0⟩, [0], [], []⟩ where
  trail := List.forall_mem_singleton.mpr ⟨Int.le_refl _, Int.natCast_nonneg _⟩
  calls := by simp
  placed := by simp
  ordered := .nil
  passed := by simp [expectedPositions]
  items := rfl
  suffix := List.suffix_rfl
  position := Int.zero_add _

/-- Every token list is read to its end, with calls nested no deeper than a multiple of what stands
in front of its first end token. The reader never looks at a token that is not there and never
leaves these positions, every call of `declaration` brings it forward, and of errors there are no
more than tokens. Where something else was expected, each error is behind the one before it, unless
both are at the end. -/
theorem program_reads_every_list (tokens : List Token) (depth : Nat)
    (hdepth : 18 * (firstEnd tokens + 1) ≤ depth) :
    ∃ r : Reader, Walk.program depth tokens = some ((parse tokens).program, r) ∧
      r.reported = (parse tokens).errors ∧
      (∀ e ∈ r.errors,
        0 ≤ e.position ∧ (withEnd tokens)[e.position.toNat]? = some e.error.token) ∧
      (∀ p ∈ r.trail, 0 ≤ p ∧ p ≤ firstEnd tokens) ∧
      (∀ call ∈ r.calls, 0 ≤ call.1 ∧ call.1 < call.2 ∧ call.2 ≤ firstEnd tokens) ∧
      (parse tokens).errors.length ≤ firstEnd tokens ∧
      (expectedPositions r.errors).Pairwise (ComesBefore (firstEnd tokens)) := by
  obtain ⟨c, htokens, hbody, hstop⟩ := exists_cut tokens
  have hfirst : firstEnd tokens = c.body.length := by
    rw [firstEnd, ← htokens, c.findIdx_tokens]
  rw [hfirst] at hdepth ⊢
  obtain ⟨r, hrun, faces, hreported, hcount⟩ :=
    declarations_agree depth false c.body (by omega) c.faces_start
  rw [hstop, hbody] at hrun hreported hcount
  rw [parse_eq_declarations, ← htokens]
  refine ⟨r, ?_, hreported, faces.placed, faces.trail, faces.calls, ?_, faces.ordered⟩
  · rw [Walk.program, ← htokens]
    exact hrun
  · rw [hbody]
    exact Nat.le_trans (Nat.le_add_right _ _) hcount

theorem program_reads_every_list_junk :
    ∃ tokens : List Token, tokens.map Token.lexeme = ["?", "=", "", ";"] ∧
      18 * (firstEnd tokens + 1) ≤ 54 ∧
      ∃ r : Reader, Walk.program 54 tokens = some ((parse tokens).program, r) ∧
        r.reported = (parse tokens).errors ∧ (parse tokens).errors.length ≤ firstEnd tokens := by
  have hdepth : 18 * (firstEnd [⟨.unknown 99, "?", .nil, 1⟩, ⟨.equal, "=", .bool true, 1⟩,
      ⟨.endOfFile, "", .nil, 2⟩, ⟨.semicolon, ";", .nil, 3⟩] + 1) ≤ 54 := by decide
  obtain ⟨r, hrun, hreported, _, _, _, hcount, _⟩ := program_reads_every_list _ _ hdepth
  exact ⟨_, rfl, hdepth, r, hrun, hreported, hcount⟩

end Scriptlet
