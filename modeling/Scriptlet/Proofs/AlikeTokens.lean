import Scriptlet.Proofs.Simulation

/-!
Trees that differ in their tokens only. Tokens may be exchanged for others of the same meaning:
the same kind and literal and, for a name, the same spelling. Such trees run alike, and a runtime
error stays at the token that took the place of the old one.
-/

namespace Scriptlet

/-- Related tokens mean the same, wherever they stand. -/
structure KeepsMeaning (R : Token → Token → Prop) : Prop where
  kind : ∀ {t t'}, R t t' → t.kind = t'.kind
  literal : ∀ {t t'}, R t t' → t.literal = t'.literal
  lexeme : ∀ {t t'}, R t t' → t.kind = .identifier → t.lexeme = t'.lexeme

/-- Related tokens that are names. -/
structure AlikeNames (R : Token → Token → Prop) (n n' : Token) : Prop where
  related : R n n'
  isName : n.kind = .identifier

theorem AlikeNames.lexeme_eq {R : Token → Token → Prop} (hR : KeepsMeaning R) {n n' : Token}
    (h : AlikeNames R n n') : n.lexeme = n'.lexeme :=
  hR.lexeme h.related h.isName

/-- Expressions of the same form with related tokens in the same places. -/
inductive Expr.Alike (R : Token → Token → Prop) : Expr → Expr → Prop where
  | literal (v : Literal) : Alike R (.literal v) (.literal v)
  | grouping {e e' : Expr} (h : Alike R e e') : Alike R (.grouping e) (.grouping e')
  | unary {op op' : Token} {e e' : Expr} (hop : R op op') (h : Alike R e e') :
      Alike R (.unary op e) (.unary op' e')
  | binary {op op' : Token} {l l' r r' : Expr} (hl : Alike R l l') (hop : R op op')
      (hr : Alike R r r') : Alike R (.binary l op r) (.binary l' op' r')
  | logical {op op' : Token} {l l' r r' : Expr} (hl : Alike R l l') (hop : R op op')
      (hr : Alike R r r') : Alike R (.logical l op r) (.logical l' op' r')
  | variable {n n' : Token} (hn : AlikeNames R n n') : Alike R (.variable n) (.variable n')
  | assign {n n' : Token} {e e' : Expr} (hn : AlikeNames R n n') (h : Alike R e e') :
      Alike R (.assign n e) (.assign n' e')
  | missing : Alike R .missing .missing

/-- The same fault, a runtime error at a related token. -/
inductive Fault.Alike (R : Token → Token → Prop) : Fault → Fault → Prop where
  | error {t t' : Token} (h : R t t') (cause : RuntimeCause) :
      Alike R (.error ⟨t, cause⟩) (.error ⟨t', cause⟩)
  | defect (d : Defect) : Alike R (.defect d) (.defect d)
  | crash : Alike R .crash .crash
  | exhausted : Alike R .exhausted .exhausted

section Evaluation

variable {R : Token → Token → Prop}

theorem Expr.Alike.isMissing_eq {e e' : Expr} (h : e.Alike R e') : e.isMissing = e'.isMissing := by
  cases h <;> rfl

theorem applyUnary_alike (hR : KeepsMeaning R) {op op' : Token} (hop : R op op') (v : Value)
    (σ : Scopes) :
    EndsAlike (Fault.Alike R) Eq (applyUnary op v, σ) (applyUnary op' v, σ) := by
  unfold applyUnary
  rw [← hR.kind hop]
  split
  · exact .ok _ rfl
  · split
    · exact .ok _ rfl
    · exact .error (.error hop _) rfl
  · exact .error (.defect _) rfl

theorem arithmetic_alike (kind : TokenKind) (x y : Float) (σ : Scopes) :
    EndsAlike (Fault.Alike R) Eq (arithmetic kind x y, σ) (arithmetic kind x y, σ) := by
  unfold arithmetic
  split
  case h_8 => exact .error (.defect _) rfl
  all_goals exact .ok _ rfl

theorem applyBinary_alike (hR : KeepsMeaning R) {op op' : Token} (hop : R op op') (l r : Value)
    (σ : Scopes) :
    EndsAlike (Fault.Alike R) Eq (applyBinary op l r, σ) (applyBinary op' l r, σ) := by
  unfold applyBinary
  rw [← hR.kind hop]
  split
  · exact .ok _ rfl
  · exact .ok _ rfl
  · split
    · exact .ok _ rfl
    · exact .ok _ rfl
    · exact .error (.error hop _) rfl
  · split
    · exact arithmetic_alike _ _ _ σ
    · exact .error (.error hop _) rfl

theorem assignVariable_alike (hR : KeepsMeaning R) {n n' : Token} (hn : AlikeNames R n n')
    (v : Value) (σ : Scopes) :
    EndsAlike (Fault.Alike R) Eq (assignVariable n v σ) (assignVariable n' v σ) := by
  unfold assignVariable
  rw [← hn.lexeme_eq hR]
  split
  · exact .ok v rfl
  · exact .error (.error hn.related _) rfl

theorem evaluate_alike (hR : KeepsMeaning R) {e e' : Expr} (h : e.Alike R e') (σ : Scopes) :
    EndsAlike (Fault.Alike R) Eq (evaluate e σ) (evaluate e' σ) := by
  induction h generalizing σ with
  | literal v =>
      cases v with
      | integer n => exact .error (.defect _) rfl
      | nil | bool b | number x | string s => exact .ok _ rfl
  | missing => exact .error (.defect _) rfl
  | grouping h ih => exact ih σ
  | @«variable» n n' hn =>
      simp only [evaluate, lookUp, hn.lexeme_eq hR]
      split
      · exact .ok _ rfl
      · exact .error (.error hn.related _) rfl
  | @unary op op' e e' hop h ih =>
      have hrun := ih σ
      simp only [evaluate]
      generalize evaluate e σ = r, evaluate e' σ = r' at hrun ⊢
      cases hrun with
      | error hf hσ => exact .error hf hσ
      | ok v hσ =>
          obtain rfl := hσ
          exact applyUnary_alike hR hop v _
  | @binary op op' l l' r r' hl hop hr ihl ihr =>
      have hleft := ihl σ
      simp only [evaluate]
      generalize evaluate l σ = r₁, evaluate l' σ = r₁' at hleft ⊢
      cases hleft with
      | error hf hσ => exact .error hf hσ
      | @ok v σ' _ hσ =>
          obtain rfl := hσ
          have hright := ihr σ'
          simp only
          generalize evaluate r σ' = r₂, evaluate r' σ' = r₂' at hright ⊢
          cases hright with
          | error hf hσ => exact .error hf hσ
          | ok w hσ =>
              obtain rfl := hσ
              exact applyBinary_alike hR hop v w _
  | @logical op op' l l' r r' hl hop hr ihl ihr =>
      have hleft := ihl σ
      have hsettles : ∀ v, settles op v = settles op' v := fun v => by
        simp only [settles, hR.kind hop]
      simp only [evaluate]
      generalize evaluate l σ = r₁, evaluate l' σ = r₁' at hleft ⊢
      cases hleft with
      | error hf hσ => exact .error hf hσ
      | ok v hσ =>
          obtain rfl := hσ
          simp only [hsettles]
          split
          · exact .ok v rfl
          · exact ihr _
  | @assign n n' e e' hn h ih =>
      have hrun := ih σ
      simp only [evaluate]
      generalize evaluate e σ = r, evaluate e' σ = r' at hrun ⊢
      cases hrun with
      | error hf hσ => exact .error hf hσ
      | ok v hσ =>
          obtain rfl := hσ
          exact assignVariable_alike hR hn v _

end Evaluation

/-- The machine with what `front` has printed and noted in front of its own. -/
def Machine.behind (m front : Machine) : Machine :=
  { m with output := front.output ++ m.output, log := front.log ++ m.log }

/-- Runs over tokens of the same meaning, the second one behind what `front` has shown. -/
def tokenSimulation {R : Token → Token → Prop} (hR : KeepsMeaning R) (front : Machine) :
    Simulation where
  expr := Expr.Alike R
  name := AlikeNames R
  fault := Fault.Alike R
  machine := fun m m' => m' = m.behind front
  isMissing := Expr.Alike.isMissing_eq
  evaluate := by
    intro e e' m m' he hm
    subst hm
    have hrun := evaluate_alike hR he m.scopes
    simp only [Machine.evaluate, Machine.behind]
    generalize Scriptlet.evaluate e m.scopes = r, Scriptlet.evaluate e' m.scopes = r' at hrun ⊢
    cases hrun with
    | ok v hσ =>
        subst hσ
        exact .ok v rfl
    | error hf hσ =>
        subst hσ
        exact .error hf rfl
  print := by
    intro m m' line hm
    simp [hm, Machine.print, Machine.behind]
  define := by
    intro n n' m m' v hn hm
    rw [hm, ← hn.lexeme_eq hR]
    rfl
  enter := by
    intro m m' size hm
    simp [hm, Machine.enterBlock, Machine.behind]
  note := by
    intro f f' m m' hf hm
    cases hf <;> simp [hm, Machine.noteFault, Machine.behind]
  leave := by
    intro m m' hm
    subst hm
    simp only [Machine.behind]
    cases m.scopes.leave? with
    | none => exact .none
    | some σ => exact .some rfl
  crash := .crash
  exhausted := .exhausted
  statementType := fun _ => .defect _

end Scriptlet
