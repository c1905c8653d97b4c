import Scriptlet.Proofs.ErrorFreeReading
import Scriptlet.Proofs.ReaderRuns

/-!
Walks over expressions. Every call for the same tokens is for a tighter level, so a walk that is
granted eighteen calls for each token gets to the end of an expression.
-/

namespace Scriptlet

open Reader

variable {c : Cut} {r : Reader}

theorem consume_agrees {s : List Token} (h : r.Faces c s) (k : TokenKind) (what : Expectation) :
    c.Agrees r (Walk.consume k what) ((expect k what s).map some) := by
  have hrun : (Walk.consume k what).run.run r = _ := Rule.run_check h k
  cases s with
  | nil =>
      refine .failed (hrun.trans ?_) h r.reported_append_nil (Nat.le_refl _) (.inr rfl)
      exact Walk.run_refuse h what
  | cons t s =>
      simp only [List.head?_cons, Option.any_some, decide_eq_true_eq] at hrun
      simp only [expect]
      by_cases hk : t.kind = k
      · rw [if_pos hk] at hrun ⊢
        refine .done (hrun.trans ?_) h.step r.reported_append_nil (by simp)
        exact Rule.run_liftM (Walk.run_advance h.atEnd h.peek?)
      · rw [if_neg hk] at hrun ⊢
        refine .failed (hrun.trans ?_) h r.reported_append_nil (by simp) (.inl (by simp))
        exact Walk.run_refuse h what

theorem consume_andThen {β : Type} {s : List Token} (h : r.Faces c s) (k : TokenKind)
    (what : Expectation) {f : Option Token → Rule β}
    {next : Token → (rest : List Token) → Parsed β rest.length}
    (hf : ∀ t rest r', rest.length < s.length → r'.Faces c rest →
      c.Agrees r' (f (some t)) (next t rest)) :
    c.Agrees r (Walk.consume k what >>= f) ((expect k what s).andThen next) := by
  have hconsume := consume_agrees h k what
  generalize expect k what s = p at hconsume ⊢
  cases p with
  | done t rest reports shorter =>
      cases hconsume with
      | done run faces reported count =>
          exact (hf t rest _ shorter faces).behind (Rule.run_bind run) reported (by omega) (by omega)
            (Nat.le_of_lt shorter)
  | failed what rest reports within =>
      cases hconsume with
      | failed run faces reported count room =>
          exact .failed (Rule.run_bind_error run) faces reported count room

/-- A token that closes what was read so far. -/
theorem closing_agrees {α : Type} {s : List Token} (h : r.Faces c s) (k : TokenKind)
    (what : Expectation) (v : α) :
    c.Agrees r (Walk.consume k what >>= fun _ => pure v) ((expect k what s).map fun _ => v) := by
  have hmap := (consume_agrees h k what).map fun _ => v
  cases hexpect : expect k what s <;> rwa [hexpect] at hmap

theorem contains_operators (l : Level) (k : TokenKind) : l.operators.contains k = l.joins k := by
  cases l <;> cases k <;> rfl

/-- A chain of a level or, where no level is left, a unary expression. -/
def Walk.level (depth : Nat) : Option Level → Rule Expr
  | some l => Walk.chain depth l
  | none => Walk.unary depth

theorem Walk.operand_eq_level (depth : Nat) (l : Level) :
    Walk.operand (depth + 1) l = Walk.level depth l.tighter? := by
  rw [Walk.operand]
  cases l.tighter? <;> rfl

theorem assign_run {s : List Token} (h : r.Faces c s) (target value : Expr) {place : Int}
    {t : Token} (hplace : 0 ≤ place) (ht : c.tokens[place.toNat]? = some t) :
    ∃ r' : Reader, (Walk.assign target t place value).run.run r =
        some (.ok (assignTo target t value).1, r') ∧
      r'.Faces c s ∧ r'.reported = r.reported ++ (assignTo target t value).2 := by
  have hreport := h.reportTarget hplace ht
  cases target with
  | «variable» name => exact ⟨r, rfl, h, r.reported_append_nil⟩
  | literal | grouping | unary | binary | logical | assign | missing | foreign =>
      exact ⟨_, rfl, hreport, r.reported_withError _⟩

theorem length_assignTo_le (target : Expr) (t : Token) (value : Expr) :
    (assignTo target t value).2.length ≤ 1 := by
  unfold assignTo
  split <;> simp

-- Each of the six levels takes two calls, and one call each is for a unary and a primary
-- expression; only behind a token does the count start again.
mutual

theorem assignment_agrees (depth : Nat) (s : List Token) (hd : 18 * s.length + 15 ≤ depth)
    {r : Reader} (h : r.Faces c s) : c.Agrees r (Walk.assignment depth) (assignment s) := by
  cases depth with
  | zero => omega
  | succ depth =>
      have hlevel := level_agrees depth (some .disjunction) s (by simp [Level.rank]; omega) h
      rw [level, Walk.level] at hlevel
      rw [Walk.assignment, assignment]
      generalize chain .disjunction s = p at hlevel ⊢
      cases hlevel with
      | failed run faces reported count room =>
          exact .failed (Rule.run_bind_error run) faces reported count room
      | @done target rest reports shorter r₁ run faces reported count =>
          cases rest with
          | nil =>
              exact .done ((Rule.run_bind run).trans (Rule.run_accept_end faces _)) faces reported
                count
          | cons t rest =>
              by_cases hk : t.kind = .equal
              · simp only [hk, if_true]
                simp only [List.length_cons] at count
                have hplace : r₁.step.cursor.position - 1 = r₁.cursor.position :=
                  Int.add_sub_cancel _ _
                have hvalue := assignment_agrees depth rest (by omega) faces.step
                generalize assignment rest = p at hvalue ⊢
                cases hvalue with
                | failed run' faces' reported' count' room' =>
                    refine .failed ?_ faces' ?_ ?_ ?_
                    · rw [Rule.run_bind run, Rule.run_accept faces, if_pos (by rw [hk]; rfl),
                        Rule.run_previous faces, Walk.run_position]
                      exact Rule.run_bind_error run'
                    · rw [reported', Reader.reported_step, reported, List.append_assoc]
                    · rw [List.length_append]
                      omega
                    · rw [List.length_append]
                      omega
                | @done value rest' more _ r₂ run' faces' reported' count' =>
                    have hequals : c.tokens[r₁.cursor.position.toNat]? = some t := faces.getElem?
                    have hlength := length_assignTo_le target t value
                    obtain ⟨r₃, run₃, faces₃, reported₃⟩ :=
                      assign_run faces' target value faces.position_nonneg hequals
                    refine .done ?_ faces₃ ?_ ?_
                    · rw [Rule.run_bind run, Rule.run_accept faces, if_pos (by rw [hk]; rfl),
                        Rule.run_previous faces, Walk.run_position, Rule.run_bind run', hplace]
                      exact run₃
                    · simp only [reported₃, reported', Reader.reported_step, reported,
                        List.append_assoc]
                    · simp only [List.length_append]
                      omega
              · simp only [hk, if_false]
                refine .done ?_ faces reported count
                rw [Rule.run_bind run, Rule.run_accept faces, if_neg (by simp [hk])]
                rfl

theorem level_agrees (depth : Nat) (o : Option Level) (s : List Token)
    (hd : 18 * s.length + 2 * o.elim 0 Level.rank + 2 ≤ depth) {r : Reader} (h : r.Faces c s) :
    c.Agrees r (Walk.level depth o) (level o s) := by
  match o, depth with
  | some l, depth + 2 =>
      have hrank := rank_tighter_lt l
      simp only [Option.elim_some] at hd
      have hfirst := level_agrees depth l.tighter? s (by omega) h
      rw [level, Walk.level, Walk.chain, chain, operand_eq_level, Walk.operand_eq_level]
      generalize level l.tighter? s = p at hfirst ⊢
      cases hfirst with
      | failed run faces reported count room =>
          exact .failed (Rule.run_bind_error run) faces reported count room
      | @done first rest reports shorter r₁ run faces reported count =>
          have hlater := extend_agrees (depth + 1) l first rest (by omega) faces
          exact hlater.behind (Rule.run_bind run) reported (by omega) (by omega) _
  | none, depth + 1 =>
      rw [level, Walk.level]
      cases s with
      | nil =>
          cases depth with
          | zero => omega
          | succ depth =>
              rw [unary]
              refine .failed ?_ h r.reported_append_nil (Nat.le_refl _) (.inr rfl)
              simp only [Walk.unary, Walk.primary, Rule.run_accept_end h]
              exact Walk.run_refuse h .expression
      | cons t s =>
          simp only [List.length_cons] at hd
          rw [unary]
          split
          · next hop =>
            have hkinds : [TokenKind.bang, .minus].contains t.kind = true := by simpa using hop
            have hinner := level_agrees depth none s (by omega) h.step
            rw [level, Walk.level] at hinner
            have hrun : (Walk.unary (depth + 1)).run.run r =
                (Walk.unary depth >>= fun e => pure (Expr.unary t e)).run.run r.step := by
              rw [Walk.unary, Rule.run_accept h, if_pos hkinds, Rule.run_previous h]
            have hnode := (hinner.map (Expr.unary t)).behind_step hrun (Nat.le_succ _)
            generalize unary s = p at hnode ⊢
            cases p <;> exact hnode
          · next hop =>
            have hkinds : ¬ [TokenKind.bang, .minus].contains t.kind = true := by simpa using hop
            have hprimary := primary_agrees depth t s (by omega) h
            exact hprimary.congr (by rw [Walk.unary, Rule.run_accept h, if_neg hkinds])
  | none, 0 | some l, 0 | some l, 1 => omega

theorem extend_agrees (depth : Nat) (l : Level) (left : Expr) (s : List Token)
    (hd : 18 * s.length + 1 ≤ depth) {r : Reader} (h : r.Faces c s) :
    c.Agrees r (Walk.extend depth l left) (extend l left s) := by
  match s, depth with
  | [], depth + 1 =>
      rw [Walk.extend, extend]
      exact .done (Rule.run_accept_end h _) h r.reported_append_nil (by simp)
  | op :: s, depth + 2 =>
      simp only [List.length_cons] at hd
      rw [Walk.extend, extend, operand_eq_level, Walk.operand_eq_level]
      split
      · next hop =>
        have hkinds := (contains_operators l op.kind).trans hop
        have hrank : l.tighter?.elim 0 Level.rank ≤ 5 := by cases l <;> decide
        have hright := level_agrees depth l.tighter? s (by omega) h.step
        generalize level l.tighter? s = p at hright ⊢
        cases hright with
        | failed run faces reported count room =>
            refine .failed ?_ faces reported ?_ (.inl ?_)
            · rw [Rule.run_accept h, if_pos hkinds, Rule.run_previous h, Rule.run_bind_error run]
            · simp only [List.length_cons]
              omega
            · simp only [List.length_cons]
              omega
        | @done right rest reports shorter r₁ run faces reported count =>
            have hlater := extend_agrees (depth + 1) l (l.node left op right) rest (by omega) faces
            have hreported : r₁.reported = r.reported ++ reports := reported
            refine hlater.behind ?_ hreported ?_ ?_ _
            · rw [Rule.run_accept h, if_pos hkinds, Rule.run_previous h, Rule.run_bind run]
            · simp only [List.length_cons]
              omega
            · simp only [List.length_cons]
              omega
      · next hop =>
        rw [← contains_operators] at hop
        refine .done ?_ h r.reported_append_nil (by simp)
        rw [Rule.run_accept h, if_neg hop]
        rfl
  | [], 0 => omega
  | op :: s, 0 | op :: s, 1 =>
      simp only [List.length_cons] at hd
      omega

theorem primary_agrees (depth : Nat) (t : Token) (s : List Token)
    (hd : 18 * s.length + 17 ≤ depth) {r : Reader} (h : r.Faces c (t :: s)) :
    c.Agrees r (Walk.primary depth) (primary t s) := by
  cases depth with
  | zero => omega
  | succ depth =>
      have hdone : ∀ {e : Expr}, (Walk.primary (depth + 1)).run.run r = some (.ok e, r.step) →
          c.Agrees r (Walk.primary (depth + 1)) (.done e s [] (Tokens.lt_cons t s)) :=
        fun hrun => .done hrun h.step r.reported_append_nil (by simp)
      rw [primary]
      split
      case h_7 hk =>
        have hrun : (Walk.primary (depth + 1)).run.run r = (do
            let e ← Walk.assignment depth
            let _ ← Walk.consume .rightParen .parenAfterExpression
            return .grouping e : Rule Expr).run.run r.step := by
          simp only [Walk.primary, Rule.run_accept h, hk]
          rfl
        have hinner := assignment_agrees depth s (by omega) h.step
        generalize assignment s = p at hinner ⊢
        cases hinner with
        | failed run faces reported count room =>
            refine .failed (hrun.trans (Rule.run_bind_error run)) faces reported ?_ (.inl ?_)
            · omega
            · omega
        | @done e rest reports shorter r₁ run faces reported count =>
            have hreported : r₁.reported = r.reported ++ reports := reported
            have hclosing := closing_agrees faces .rightParen .parenAfterExpression (Expr.grouping e)
            exact hclosing.behind (hrun.trans (Rule.run_bind run)) hreported (by omega) (by omega) _
      case h_8 hFalse hTrue hNil hNumber hString hIdentifier hParen =>
        refine .failed ?_ h r.reported_append_nil (by simp) (.inl (Nat.succ_pos _))
        rw [Walk.primary, Rule.run_accept h, if_neg (by simpa using hFalse), Rule.run_accept h,
          if_neg (by simpa using hTrue), Rule.run_accept h, if_neg (by simpa using hNil),
          Rule.run_accept h, if_neg (by simpa using ⟨hNumber, hString⟩), Rule.run_accept h,
          if_neg (by simpa using hIdentifier), Rule.run_accept h, if_neg (by simpa using hParen)]
        exact Walk.run_refuse h .expression
      all_goals
        next hk =>
        apply hdone
        simp only [Walk.primary, Rule.run_accept h, Rule.run_previous h, hk]
        rfl

end

end Scriptlet
