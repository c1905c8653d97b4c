import Mathlib.Data.List.Forall2
import Scriptlet.Proofs.AlikeTokens
import Scriptlet.Proofs.ErrorFreeReading

/-!
Reading looks at the kinds and literals of tokens only. Lists whose tokens mean the same, one by
one, read as trees that are alike, with the same errors at the same places, whether they follow
the grammar or not.
-/

namespace Scriptlet

open List (Forall₂)

/-- The same error at related tokens. -/
structure SyntaxError.Alike (R : Token → Token → Prop) (e e' : SyntaxError) : Prop where
  token : R e.token e'.token
  fault : e.fault = e'.fault

abbrev AlikeReports (R : Token → Token → Prop) : List SyntaxError → List SyntaxError → Prop :=
  Forall₂ (SyntaxError.Alike R)

namespace Parsed

variable {α β : Type} {R : Token → Token → Prop} {P : α → α → Prop} {Q : β → β → Prop}
  {bound bound' wider wider' : Nat}

/-- Both rules succeeded or failed alike, in front of related tokens and with related reports. -/
inductive Alike (R : Token → Token → Prop) (P : α → α → Prop) :
    Parsed α bound → Parsed α bound' → Prop where
  | done {v v' : α} {rest rest' : List Token} {reports reports' : List SyntaxError}
      (hv : P v v') (hrest : Forall₂ R rest rest') (hreports : AlikeReports R reports reports')
      (shorter : rest.length < bound) (shorter' : rest'.length < bound') :
      Alike R P (.done v rest reports shorter) (.done v' rest' reports' shorter')
  | failed (what : Expectation) {rest rest' : List Token} {reports reports' : List SyntaxError}
      (hrest : Forall₂ R rest rest') (hreports : AlikeReports R reports reports')
      (within : rest.length ≤ bound) (within' : rest'.length ≤ bound') :
      Alike R P (.failed what rest reports within) (.failed what rest' reports' within')

theorem Alike.after {p : Parsed α bound} {p' : Parsed α bound'} (h : p.Alike R P p')
    {reports reports' : List SyntaxError} (hr : AlikeReports R reports reports')
    (hb : bound ≤ wider) (hb' : bound' ≤ wider') :
    (p.after reports hb).Alike R P (p'.after reports' hb') := by
  cases h with
  | done hv hrest hreports _ _ => exact .done hv hrest (List.rel_append hr hreports) _ _
  | failed what hrest hreports _ _ => exact .failed what hrest (List.rel_append hr hreports) _ _

theorem Alike.map {p : Parsed α bound} {p' : Parsed α bound'} (h : p.Alike R P p')
    {f f' : α → β} (hf : ∀ v v', P v v' → Q (f v) (f' v')) :
    (p.map f).Alike R Q (p'.map f') := by
  cases h with
  | done hv hrest hreports _ _ => exact .done (hf _ _ hv) hrest hreports _ _
  | failed what hrest hreports _ _ => exact .failed what hrest hreports _ _

theorem Alike.andThen {p : Parsed α bound} {p' : Parsed α bound'} (h : p.Alike R P p')
    {next next' : α → (rest : List Token) → Parsed β rest.length}
    (hn : ∀ v v' rest rest', P v v' → Forall₂ R rest rest' →
      (next v rest).Alike R Q (next' v' rest')) :
    (p.andThen next).Alike R Q (p'.andThen next') := by
  cases h with
  | done hv hrest hreports hb hb' =>
      exact (hn _ _ _ _ hv hrest).after hreports (Nat.le_of_lt hb) (Nat.le_of_lt hb')
  | failed what hrest hreports _ _ => exact .failed what hrest hreports _ _

end Parsed

section Rules

variable {R : Token → Token → Prop}

theorem expect_alike (hR : KeepsMeaning R) (k : TokenKind) (what : Expectation)
    {s s' : List Token} (h : Forall₂ R s s') :
    (expect k what s).Alike R (fun t t' => R t t' ∧ t.kind = k) (expect k what s') := by
  cases h with
  | nil => exact .failed what .nil .nil _ _
  | @cons t t' s s' ht hs =>
      simp only [expect, ← hR.kind ht]
      split
      · next hk => exact .done ⟨ht, hk⟩ hs .nil _ _
      · exact .failed what (.cons ht hs) .nil _ _

theorem node_alike (l : Level) {left left' right right' : Expr} {op op' : Token}
    (hl : left.Alike R left') (hop : R op op') (hr : right.Alike R right') :
    (l.node left op right).Alike R (l.node left' op' right') := by
  cases l with
  | disjunction | conjunction => exact .logical hl hop hr
  | equality | comparison | term | factor => exact .binary hl hop hr

theorem assignTo_alike {target target' value value' : Expr} {t t' : Token}
    (h : target.Alike R target') (ht : R t t') (hv : value.Alike R value') :
    (assignTo target t value).1.Alike R (assignTo target' t' value').1 ∧
      AlikeReports R (assignTo target t value).2 (assignTo target' t' value').2 := by
  cases h with
  | «variable» hn => exact ⟨.assign hn hv, .nil⟩
  | literal v => exact ⟨.literal v, .cons ⟨ht, rfl⟩ .nil⟩
  | missing => exact ⟨.missing, .cons ⟨ht, rfl⟩ .nil⟩
  | grouping h => exact ⟨.grouping h, .cons ⟨ht, rfl⟩ .nil⟩
  | unary hop h => exact ⟨.unary hop h, .cons ⟨ht, rfl⟩ .nil⟩
  | binary hl hop hr => exact ⟨.binary hl hop hr, .cons ⟨ht, rfl⟩ .nil⟩
  | logical hl hop hr => exact ⟨.logical hl hop hr, .cons ⟨ht, rfl⟩ .nil⟩
  | assign hn h => exact ⟨.assign hn h, .cons ⟨ht, rfl⟩ .nil⟩

mutual

theorem assignment_alike (hR : KeepsMeaning R) (s : List Token) {s' : List Token}
    (h : Forall₂ R s s') : (assignment s).Alike R (Expr.Alike R) (assignment s') := by
  have hlevel := level_alike hR (some .disjunction) s h
  rw [level, level] at hlevel
  rw [assignment, assignment]
  generalize chain .disjunction s = p, chain .disjunction s' = p' at hlevel ⊢
  cases hlevel with
  | failed what hrest hreports _ _ => exact .failed what hrest hreports _ _
  | done htarget hrest hreports hb _ =>
      cases hrest with
      | nil => exact .done htarget .nil hreports _ _
      | @cons t t' r r' ht hrest =>
          simp only [← hR.kind ht]
          split
          · have hr : r.length < s.length := Nat.lt_of_succ_lt hb
            have hvalue := assignment_alike hR r hrest
            generalize assignment r = p, assignment r' = p' at hvalue ⊢
            cases hvalue with
            | failed what hr' hmore _ _ =>
                exact .failed what hr' (List.rel_append hreports hmore) _ _
            | done hv hr' hmore _ _ =>
                obtain ⟨htree, hlast⟩ := assignTo_alike htarget ht hv
                exact .done htree hr' (List.rel_append (List.rel_append hreports hmore) hlast) _ _
          · exact .done htarget (.cons ht hrest) hreports _ _
termination_by (s.length, 8)
decreasing_by
  · exact Prod.Lex.right _ (by decide)
  · exact Prod.Lex.left _ _ hr

theorem level_alike (hR : KeepsMeaning R) (o : Option Level) (s : List Token) {s' : List Token}
    (h : Forall₂ R s s') : (level o s).Alike R (Expr.Alike R) (level o s') := by
  cases o with
  | none =>
      cases h with
      | nil =>
          rw [level, unary]
          exact .failed .expression .nil .nil _ _
      | @cons t t' s s' ht hs =>
          rw [level, level, unary, unary]
          simp only [← hR.kind ht]
          split
          · have hinner := level_alike hR none s hs
            rw [level, level] at hinner
            generalize unary s = p, unary s' = p' at hinner ⊢
            cases hinner with
            | failed what hrest hreports _ _ => exact .failed what hrest hreports _ _
            | done he hrest hreports _ _ => exact .done (.unary ht he) hrest hreports _ _
          · exact primary_alike hR t s ht hs
  | some l =>
      have hfirst := level_alike hR l.tighter? s h
      rw [level, level, chain, chain, operand_eq_level, operand_eq_level]
      generalize level l.tighter? s = p, level l.tighter? s' = p' at hfirst ⊢
      cases hfirst with
      | failed what hrest hreports _ _ => exact .failed what hrest hreports _ _
      | done hv hrest hreports hb _ => exact (extend_alike hR l hv _ hrest).after hreports _ _
termination_by (s.length, o.elim 0 Level.rank + 1)
decreasing_by
  · exact Prod.Lex.right _ Nat.zero_lt_one
  · exact Prod.Lex.left _ _ (Nat.lt_succ_self _)
  · exact Prod.Lex.right _ (Nat.succ_lt_succ (rank_tighter_lt l))
  · exact Prod.Lex.left _ _ hb

theorem extend_alike (hR : KeepsMeaning R) (l : Level) {left left' : Expr}
    (hl : left.Alike R left') (s : List Token) {s' : List Token} (h : Forall₂ R s s') :
    (extend l left s).Alike R (Expr.Alike R) (extend l left' s') := by
  cases h with
  | nil =>
      rw [extend, extend]
      exact .done hl .nil .nil _ _
  | @cons op op' s s' hop hs =>
      rw [extend, extend]
      simp only [← hR.kind hop, operand_eq_level]
      split
      · have hright := level_alike hR l.tighter? s hs
        generalize level l.tighter? s = p, level l.tighter? s' = p' at hright ⊢
        cases hright with
        | failed what hrest hreports _ _ => exact .failed what hrest hreports _ _
        | done hr hrest hreports hb _ =>
            exact (extend_alike hR l (node_alike l hl hop hr) _ hrest).after hreports _ _
      · exact .done hl (.cons hop hs) .nil _ _
termination_by (s.length, 0)
decreasing_by
  · exact Prod.Lex.left _ _ (Nat.lt_succ_self _)
  · exact Prod.Lex.left _ _ (Nat.lt_succ_of_lt hb)

theorem primary_alike (hR : KeepsMeaning R) (t : Token) (s : List Token) {t' : Token}
    {s' : List Token} (ht : R t t') (h : Forall₂ R s s') :
    (primary t s).Alike R (Expr.Alike R) (primary t' s') := by
  rw [primary, primary, ← hR.kind ht, ← hR.literal ht]
  split
  case h_7 =>
    have hinner := assignment_alike hR s h
    generalize assignment s = p, assignment s' = p' at hinner ⊢
    cases hinner with
    | failed what hrest hreports _ _ => exact .failed what hrest hreports _ _
    | @done e e' r r' _ _ he hrest hreports _ _ =>
        have hgroup : ((expect .rightParen .parenAfterExpression r).map fun _ =>
              Expr.grouping e).Alike R (Expr.Alike R)
            ((expect .rightParen .parenAfterExpression r').map fun _ => Expr.grouping e') :=
          (expect_alike hR _ _ hrest).map fun _ _ _ => .grouping he
        exact hgroup.after hreports _ _
  case h_8 => exact .failed .expression (.cons ht h) .nil _ _
  case h_1 => exact .done (.literal _) h .nil _ _
  case h_2 => exact .done (.literal _) h .nil _ _
  case h_3 => exact .done (.literal _) h .nil _ _
  case h_4 => exact .done (.literal _) h .nil _ _
  case h_5 => exact .done (.literal _) h .nil _ _
  case h_6 hk => exact .done (.variable ⟨ht, hk⟩) h .nil _ _
termination_by (s.length + 1, 0)
decreasing_by
  exact Prod.Lex.left _ _ (Nat.lt_succ_self _)

end

theorem terminated_alike (hR : KeepsMeaning R) (what : Expectation) {s s' : List Token}
    (h : Forall₂ R s s') : (terminated what s).Alike R (Expr.Alike R) (terminated what s') := by
  refine (assignment_alike hR s h).andThen fun e e' rest rest' he hrest => ?_
  exact (expect_alike hR _ _ hrest).map fun _ _ _ => he

abbrev Stmt.AlikeIn (R : Token → Token → Prop) : Stmt → Stmt → Prop :=
  Stmt.Alike (Expr.Alike R) (AlikeNames R)

abbrev AlikeProgramsIn (R : Token → Token → Prop) : List Stmt → List Stmt → Prop :=
  AlikePrograms (Expr.Alike R) (AlikeNames R)

theorem expressionStatement_alike (hR : KeepsMeaning R) {s s' : List Token}
    (h : Forall₂ R s s') :
    (expressionStatement s).Alike R (Stmt.AlikeIn R) (expressionStatement s') :=
  (terminated_alike hR _ h).map fun _ _ he => .expression he

theorem variableDeclaration_alike (hR : KeepsMeaning R) {s s' : List Token}
    (h : Forall₂ R s s') :
    (variableDeclaration s).Alike R (Stmt.AlikeIn R) (variableDeclaration s') := by
  refine (expect_alike hR _ _ h).andThen fun name name' rest rest' hname hrest => ?_
  cases hrest with
  | nil => exact .failed _ .nil .nil _ _
  | cons ht hrest =>
      simp only [← hR.kind ht]
      split
      · refine ((terminated_alike hR _ hrest).map fun e e' he => ?_).after .nil _ _
        exact .declare ⟨hname.1, hname.2⟩ he
      · refine (expect_alike hR _ _ (.cons ht hrest)).map fun _ _ _ => ?_
        exact .declare ⟨hname.1, hname.2⟩ .missing

theorem condition_alike (hR : KeepsMeaning R) (what : Expectation) {s s' : List Token}
    (h : Forall₂ R s s') : (condition what s).Alike R (Expr.Alike R) (condition what s') := by
  refine (expect_alike hR _ _ h).andThen fun _ _ rest rest' _ hrest => ?_
  refine (assignment_alike hR rest hrest).andThen fun e e' rest rest' he hrest => ?_
  exact (expect_alike hR _ _ hrest).map fun _ _ _ => he

theorem forInitial_alike (hR : KeepsMeaning R) {s s' : List Token} (h : Forall₂ R s s') :
    (forInitial s).Alike R (Stmt.AlikeIn R) (forInitial s') := by
  cases h with
  | nil => exact expressionStatement_alike hR .nil
  | cons ht hs =>
      simp only [forInitial, ← hR.kind ht]
      split
      · exact .done .missing hs .nil _ _
      · exact (variableDeclaration_alike hR hs).after .nil _ _
      · exact expressionStatement_alike hR (.cons ht hs)

theorem clause_alike (hR : KeepsMeaning R) (k : TokenKind) (what : Expectation)
    {s s' : List Token} (h : Forall₂ R s s') :
    (clause k what s).Alike R (Expr.Alike R) (clause k what s') := by
  cases h with
  | nil => exact assignment_alike hR [] .nil
  | cons ht hs =>
      simp only [clause, ← hR.kind ht]
      split
      · exact .done .missing hs .nil _ _
      · refine (assignment_alike hR _ (.cons ht hs)).andThen fun e e' rest rest' he hrest => ?_
        exact (expect_alike hR _ _ hrest).map fun _ _ _ => he

structure ForClauses.Alike (R : Token → Token → Prop) (c c' : ForClauses) : Prop where
  initial : c.initial.AlikeIn R c'.initial
  condition : c.condition.Alike R c'.condition
  increment : c.increment.Alike R c'.increment

theorem forClauses_alike (hR : KeepsMeaning R) {s s' : List Token} (h : Forall₂ R s s') :
    (forClauses s).Alike R (ForClauses.Alike R) (forClauses s') := by
  refine (expect_alike hR _ _ h).andThen fun _ _ rest rest' _ hrest => ?_
  refine (forInitial_alike hR hrest).andThen fun i i' rest rest' hi hrest => ?_
  refine (clause_alike hR _ _ hrest).andThen fun c c' rest rest' hc hrest => ?_
  exact (clause_alike hR _ _ hrest).map fun n n' hn => ⟨hi, hc, hn⟩

theorem Stmt.AlikeIn.isMissing_eq {s s' : Stmt} (h : s.AlikeIn R s') :
    s.isMissing = s'.isMissing := by
  cases h <;> rfl

theorem ForClauses.Alike.loop {c c' : ForClauses} (h : c.Alike R c') {body body' : Stmt}
    (hb : body.AlikeIn R body') : (c.loop body).AlikeIn R (c'.loop body') := by
  have hround : (if c.increment.isMissing then body
      else .block [body, .expression c.increment]).AlikeIn R
      (if c'.increment.isMissing then body' else .block [body', .expression c'.increment]) := by
    rw [h.increment.isMissing_eq]
    split
    · exact hb
    · exact .block (.cons hb (.cons (.expression h.increment) .nil))
  have hcondition : (if c.condition.isMissing then Expr.literal (.bool true)
      else c.condition).Alike R
      (if c'.condition.isMissing then .literal (.bool true) else c'.condition) := by
    rw [h.condition.isMissing_eq]
    split
    · exact .literal _
    · exact h.condition
  simp only [ForClauses.loop, h.initial.isMissing_eq]
  split
  · exact .loop hcondition hround
  · exact .block (.cons h.initial (.cons (.loop hcondition hround) .nil))

theorem skipTo_alike (hR : KeepsMeaning R) {t t' : Token} (ht : R t t') {s s' : List Token}
    (h : Forall₂ R s s') : Forall₂ R (skipTo t s) (skipTo t' s') := by
  induction h generalizing t t' with
  | nil => exact .nil
  | cons hu hs ih =>
      simp only [skipTo, ← hR.kind ht, ← hR.kind hu]
      split
      · exact .cons hu hs
      · exact ih hu

theorem recover_alike (hR : KeepsMeaning R) {s s' : List Token} (h : Forall₂ R s s') :
    Forall₂ R (recover s) (recover s') := by
  cases h with
  | nil => exact .nil
  | cons ht hs => exact skipTo_alike hR ht hs

theorem errorAt_alike {stop stop' : Token} (hstop : R stop stop') (what : Expectation)
    {s s' : List Token} (h : Forall₂ R s s') :
    (errorAt stop what s).Alike R (errorAt stop' what s') := by
  cases h with
  | nil => exact ⟨hstop, rfl⟩
  | cons ht _ => exact ⟨ht, rfl⟩

structure Declarations.Alike {bound bound' : Nat} (R : Token → Token → Prop)
    (d : Declarations bound) (d' : Declarations bound') : Prop where
  program : AlikeProgramsIn R d.program d'.program
  rest : Forall₂ R d.rest d'.rest
  reports : AlikeReports R d.reports d'.reports

section Statements

variable {stop stop' : Token}

mutual

theorem statement_alike (hR : KeepsMeaning R) (hstop : R stop stop') (s : List Token)
    {s' : List Token} (h : Forall₂ R s s') :
    (statement stop s).Alike R (Stmt.AlikeIn R) (statement stop' s') := by
  cases h with
  | nil =>
      rw [statement, statement]
      exact expressionStatement_alike hR .nil
  | @cons t t' s s' ht hs =>
      by_cases hif : t.kind = .kwIf
      · exact conditional_alike hR hstop t s hif ht hs
      rw [statement, statement, ← hR.kind ht]
      split
      case h_1 =>
        have hclauses := forClauses_alike hR hs
        generalize forClauses s = p, forClauses s' = p' at hclauses ⊢
        cases hclauses with
        | failed what hrest hreports _ _ => exact .failed what hrest hreports _ _
        | done hc hrest hreports hb _ =>
            have hbody := statement_alike hR hstop _ hrest
            exact (hbody.map fun _ _ => hc.loop).after hreports _ _
      case h_2 hk => exact absurd hk hif
      case h_3 => exact ((terminated_alike hR _ hs).map fun _ _ he => .print he).after .nil _ _
      case h_4 =>
        have htest := condition_alike hR .parenAfterWhile hs
        generalize condition .parenAfterWhile s = p, condition .parenAfterWhile s' = p'
          at htest ⊢
        cases htest with
        | failed what hrest hreports _ _ => exact .failed what hrest hreports _ _
        | done he hrest hreports hb _ =>
            have hbody := statement_alike hR hstop _ hrest
            exact (hbody.map fun _ _ hbody => .loop he hbody).after hreports _ _
      case h_5 =>
        have hinner := declarations_alike hR hstop true s hs
        have hclose := expect_alike hR .rightBrace .braceAfterBlock hinner.rest
        have hblock : ∀ t t', R t t' ∧ t.kind = .rightBrace →
            (Stmt.block (declarations stop true s).program).AlikeIn R
              (.block (declarations stop' true s').program) :=
          fun _ _ _ => .block hinner.program
        exact (hclose.map hblock).after hinner.reports _ _
      case h_6 => exact expressionStatement_alike hR (.cons ht hs)
termination_by (s.length, 1)
decreasing_by
  · exact Prod.Lex.right _ Nat.zero_lt_one
  · exact Prod.Lex.left _ _ (Nat.lt_succ_of_lt hb)
  · exact Prod.Lex.left _ _ (Nat.lt_succ_of_lt hb)
  · exact Prod.Lex.left _ _ (Nat.lt_succ_self _)

theorem conditional_alike (hR : KeepsMeaning R) (hstop : R stop stop') (t : Token)
    (s : List Token) {t' : Token} {s' : List Token} (hk : t.kind = .kwIf) (ht : R t t')
    (h : Forall₂ R s s') :
    (statement stop (t :: s)).Alike R (Stmt.AlikeIn R) (statement stop' (t' :: s')) := by
  have hk' : t'.kind = .kwIf := (hR.kind ht).symm.trans hk
  have htest := condition_alike hR .parenAfterIf h
  rw [statement, statement]
  simp only [hk, hk']
  generalize condition .parenAfterIf s = p, condition .parenAfterIf s' = p' at htest ⊢
  cases htest with
  | failed what hrest hreports _ _ => exact .failed what hrest hreports _ _
  | @done e e' r r' _ _ he hrest hreports hb _ =>
      have hthen := statement_alike hR hstop r hrest
      simp only
      generalize statement stop r = p, statement stop' r' = p' at hthen ⊢
      cases hthen with
      | failed what hrest' hmore _ _ =>
          exact .failed what hrest' (List.rel_append hreports hmore) _ _
      | done hs hrest' hmore hb' _ =>
          have hall := List.rel_append hreports hmore
          cases hrest' with
          | nil => exact .done (.conditional he hs .missing) .nil hall _ _
          | cons hu hrest' =>
              simp only [← hR.kind hu]
              split
              · have helse := statement_alike hR hstop _ hrest'
                exact (helse.map fun _ _ helse => .conditional he hs helse).after hall _ _
              · exact .done (.conditional he hs .missing) (.cons hu hrest') hall _ _
termination_by (s.length + 1, 0)
decreasing_by
  · exact Prod.Lex.left _ _ (Nat.lt_succ_of_lt hb)
  · exact Prod.Lex.left _ _ (by simp only [List.length_cons] at hb'; omega)

theorem declarations_alike (hR : KeepsMeaning R) (hstop : R stop stop') (inBlock : Bool)
    (s : List Token) {s' : List Token} (h : Forall₂ R s s') :
    (declarations stop inBlock s).Alike R (declarations stop' inBlock s') := by
  cases h with
  | nil =>
      rw [declarations, declarations]
      exact ⟨.nil, .nil, .nil⟩
  | @cons t t' s s' ht hs =>
      have hd := declaration_alike hR hstop t s ht hs
      rw [declarations, declarations]
      simp only [← hR.kind ht]
      split
      · exact ⟨.nil, .cons ht hs, .nil⟩
      · generalize declaration stop (t :: s) = p, declaration stop' (t' :: s') = p' at hd ⊢
        cases hd with
        | @failed what r r' _ _ hrest hreports hb _ =>
            have hlater := declarations_alike hR hstop inBlock (recover r) (recover_alike hR hrest)
            have herror := errorAt_alike hstop what hrest
            have hall := List.rel_append hreports (.cons herror .nil)
            exact ⟨hlater.program, hlater.rest, List.rel_append hall hlater.reports⟩
        | @done d d' r r' _ _ hd hrest hreports hb _ =>
            have hlater := declarations_alike hR hstop inBlock r hrest
            exact ⟨.cons hd hlater.program, hlater.rest, List.rel_append hreports hlater.reports⟩
termination_by (s.length, 3)
decreasing_by
  · exact Prod.Lex.right _ (by decide)
  · exact Prod.Lex.left _ _ hb
  · exact Prod.Lex.left _ _ (length_recover_lt hb)

theorem declaration_alike (hR : KeepsMeaning R) (hstop : R stop stop') (t : Token)
    (s : List Token) {t' : Token} {s' : List Token} (ht : R t t') (h : Forall₂ R s s') :
    (declaration stop (t :: s)).Alike R (Stmt.AlikeIn R) (declaration stop' (t' :: s')) := by
  rw [declaration, declaration, ← hR.kind ht]
  split
  · exact (variableDeclaration_alike hR h).after .nil _ _
  · exact statement_alike hR hstop (t :: s) (.cons ht h)
termination_by (s.length + 1, 2)
decreasing_by
  exact Prod.Lex.right _ (by decide)

end

end Statements

end Rules

end Scriptlet
