import Scriptlet.Proofs.ScopeShape

/-!
The occurrences of names that a run evaluates, one by one in the order of evaluation, each with its
place in the program and the scopes at that moment. The run fails with an undefined variable where
such an occurrence finds no binding, and nowhere else.
-/

namespace Scriptlet

/-- For each block around a place in a program, the innermost first, the statements of the block in
front of the one that the place is in. -/
abbrev Position := List (List Stmt)

/-- The position behind a statement. Outside all blocks nothing is kept. -/
def Position.pass (s : Stmt) : Position → Position
  | [] => []
  | front :: outer => (front ++ [s]) :: outer

/-- An occurrence of a name at the moment in which it is looked up or assigned. -/
structure Visit where
  name : Token
  position : Position
  scopes : Scopes

/-- What comes after a run that did not fail. -/
def afterwards {α β S : Type} (next : α → S → List β) : Except Fault α × S → List β
  | (.ok a, s) => next a s
  | (.error _, _) => []

@[simp] theorem afterwards_ok {α β S : Type} (next : α → S → List β) (a : α) (s : S) :
    afterwards next (.ok a, s) = next a s := rfl

/-- The occurrences that evaluating an expression visits. -/
def Expr.visits (Γ : Position) : Expr → Scopes → List Visit
  | .literal _, _ | .missing, _ | .foreign _, _ => []
  | .grouping inner, σ => inner.visits Γ σ
  | .unary _ operand, σ => operand.visits Γ σ
  | .binary left _ right, σ =>
    left.visits Γ σ ++ afterwards (fun _ σ => right.visits Γ σ) (evaluate left σ)
  | .logical left op right, σ =>
    left.visits Γ σ ++
      afterwards (fun l σ => if settles op l then [] else right.visits Γ σ) (evaluate left σ)
  | .variable name, σ => [⟨name, Γ, σ⟩]
  | .assign name value, σ =>
    value.visits Γ σ ++ afterwards (fun _ σ => [⟨name, Γ, σ⟩]) (evaluate value σ)

/-- The visits of a loop, from those of its condition and its body. -/
def iterateVisits (condition : Run Value) (body : Run Unit)
    (atCondition atBody : Machine → List Visit) : Nat → Machine → List Visit
  | 0, _ => []
  | budget + 1, m =>
    atCondition m ++ afterwards (fun v m =>
      if v.isTruthy then
        atBody m ++ afterwards (fun _ m =>
          iterateVisits condition body atCondition atBody budget m) (body m)
      else []) (condition m)

mutual

/-- The occurrences that running a statement visits. -/
def Stmt.visits (budget : Nat) (Γ : Position) : Stmt → Machine → List Visit
  | .expression e, m | .print e, m | .declare _ e, m => e.visits Γ m.scopes
  | .block body, m => programVisits budget ([] :: Γ) body (m.enterBlock body.length)
  | .conditional condition consequence alternative, m =>
    condition.visits Γ m.scopes ++ afterwards (fun v m =>
      if v.isTruthy then consequence.visits budget Γ m else alternative.visits budget Γ m)
      (m.evaluate condition)
  | .loop condition body, m =>
    iterateVisits (Machine.evaluate condition) (fun m => execute budget body m)
      (fun m => condition.visits Γ m.scopes) (fun m => body.visits budget Γ m) budget m
  | .missing, _ | .foreign _, _ => []

/-- The occurrences that running statements in order visits. -/
def programVisits (budget : Nat) (Γ : Position) : List Stmt → Machine → List Visit
  | [], _ => []
  | s :: rest, m =>
    s.visits budget Γ m ++ afterwards (fun _ m =>
      programVisits budget (Γ.pass s) rest m) (execute budget s m)

end

def Fault.undefinedName? : Fault → Option Token
  | .error ⟨name, .undefinedVariable⟩ => some name
  | _ => none

/-- The name at which a run failed for want of a binding. -/
def undefinedName? {α : Type} : Except Fault α → Option Token
  | .ok _ => none
  | .error fault => fault.undefinedName?

/-- No frame binds the name. -/
def Visit.isUnbound (v : Visit) : Bool := (v.scopes.get? v.name.lexeme).isNone

/-- A run fails for want of a binding exactly at the first visit that finds none. -/
def Explains {α : Type} (visits : List Visit) (result : Except Fault α) : Prop :=
  undefinedName? result = (visits.find? Visit.isUnbound).map Visit.name

namespace Explains

variable {α β : Type} {visits later : List Visit}

/-- What follows the visits fails for other reasons only. -/
theorem keep {a : α} {result : Except Fault β} (h : Explains visits (.ok a : Except Fault α))
    (hr : undefinedName? result = none) : Explains visits result :=
  hr.trans h

theorem append {a : α} {result : Except Fault β} (h : Explains visits (.ok a : Except Fault α))
    (h' : Explains later result) : Explains (visits ++ later) result := by
  have hnone : visits.find? Visit.isUnbound = none := Option.map_eq_none_iff.mp h.symm
  rw [Explains, h', List.find?_append, hnone]
  rfl

theorem error {fault : Fault} (h : Explains visits (.error fault : Except Fault α)) :
    Explains (visits ++ []) (.error fault : Except Fault β) := by
  rw [List.append_nil]
  exact h

/-- One run behind another. -/
theorem andThen {run : Run α} {next : α → Run β} {after : α → Machine → List Visit} {m : Machine}
    (h : Explains visits (run m).1)
    (hnext : ∀ a m', run m = (.ok a, m') → Explains (after a m') (next a m').1) :
    Explains (visits ++ afterwards after (run m)) (Run.andThen run next m).1 := by
  unfold Run.andThen
  generalize run m = r at h hnext ⊢
  obtain ⟨result, m'⟩ := r
  cases result with
  | error fault => exact h.error
  | ok a => exact h.append (hnext a m' rfl)

/-- What comes behind a run evaluates no names. -/
theorem last {run : Run α} {next : α → Run β} {m : Machine} (h : Explains visits (run m).1)
    (hnext : ∀ a m, undefinedName? (next a m).1 = none) :
    Explains visits (Run.andThen run next m).1 := by
  unfold Run.andThen
  generalize run m = r at h ⊢
  obtain ⟨result, m'⟩ := r
  cases result with
  | error fault => exact h
  | ok a => exact h.keep (hnext a m')

theorem visit {name : Token} {Γ : Position} {σ : Scopes} {result : Except Fault α}
    (h : undefinedName? result = if σ.get? name.lexeme = none then some name else none) :
    Explains [⟨name, Γ, σ⟩] result := by
  by_cases hget : σ.get? name.lexeme = none <;> simp [Explains, h, Visit.isUnbound, hget]

end Explains

theorem undefinedName?_applyUnary (op : Token) (v : Value) :
    undefinedName? (applyUnary op v) = none := by
  unfold applyUnary
  split
  · rfl
  · split <;> rfl
  · rfl

theorem undefinedName?_applyBinary (op : Token) (l r : Value) :
    undefinedName? (applyBinary op l r) = none := by
  unfold applyBinary
  split
  · rfl
  · rfl
  · split <;> rfl
  · split
    · unfold arithmetic
      split <;> rfl
    · rfl

theorem explains_evaluate (Γ : Position) (e : Expr) (σ : Scopes) :
    Explains (e.visits Γ σ) (evaluate e σ).1 := by
  induction e generalizing σ with
  | literal value => cases value <;> rfl
  | missing | foreign typeName => rfl
  | grouping inner ih => exact ih σ
  | «variable» name =>
      refine .visit ?_
      simp only [evaluate, lookUp]
      split
      · next hget => simp [hget, undefinedName?]
      · next hget => simp [hget, undefinedName?, Fault.undefinedName?]
  | unary op operand ih =>
      have h := ih σ
      simp only [evaluate, Expr.visits]
      split
      · next heq => rwa [heq] at h
      · next v σ' heq =>
        rw [heq] at h
        exact h.keep (undefinedName?_applyUnary op v)
  | binary left op right ihl ihr =>
      have hl := ihl σ
      simp only [evaluate, Expr.visits]
      split
      · next heq =>
        rw [heq] at hl ⊢
        exact hl.error
      · next l σ' heq =>
        rw [heq] at hl ⊢
        have hr := ihr σ'
        split
        · next heq =>
          rw [heq] at hr
          exact hl.append hr
        · next r σ'' heq =>
          rw [heq] at hr
          exact hl.append (hr.keep (undefinedName?_applyBinary op l r))
  | logical left op right ihl ihr =>
      have hl := ihl σ
      simp only [evaluate, Expr.visits]
      split
      · next heq =>
        rw [heq] at hl ⊢
        exact hl.error
      · next l σ' heq =>
        rw [heq] at hl ⊢
        simp only [afterwards_ok]
        split
        · rwa [List.append_nil]
        · exact hl.append (ihr σ')
  | assign name value ih =>
      have h := ih σ
      simp only [evaluate, Expr.visits]
      split
      · next heq =>
        rw [heq] at h ⊢
        exact h.error
      · next v σ' heq =>
        rw [heq] at h ⊢
        refine h.append (.visit ?_)
        unfold assignVariable
        split
        · next hassign =>
          have hget : σ'.get? name.lexeme ≠ none := by
            rw [ne_eq, ← Scopes.assign?_eq_none_iff (v := v), hassign]
            exact Option.some_ne_none _
          rw [if_neg hget]
          rfl
        · next hassign =>
          rw [if_pos (Scopes.assign?_eq_none_iff.mp hassign)]
          rfl

theorem visits_of_isMissing {e : Expr} (h : e.isMissing = true) (Γ : Position) (σ : Scopes) :
    e.visits Γ σ = [] := by
  unfold Expr.isMissing at h
  split at h
  · rfl
  · cases h

theorem undefinedName?_printValue (v : Value) (m : Machine) :
    undefinedName? (printValue v m).1 = none := by
  unfold printValue
  split <;> rfl

theorem explains_iterate {condition : Run Value} {body : Run Unit}
    {atCondition atBody : Machine → List Visit}
    (hc : ∀ m, Explains (atCondition m) (condition m).1)
    (hb : ∀ m, Explains (atBody m) (body m).1) (budget : Nat) (m : Machine) :
    Explains (iterateVisits condition body atCondition atBody budget m)
      (iterate condition body budget m).1 := by
  induction budget generalizing m with
  | zero => rfl
  | succ budget ih =>
      rw [iterate_succ, iterateVisits]
      refine (hc m).andThen fun v m' _ => ?_
      split
      · exact (hb m').andThen fun _ m'' _ => ih m''
      · rfl

mutual

theorem explains_execute (budget : Nat) (Γ : Position) (s : Stmt) (m : Machine) :
    Explains (s.visits budget Γ m) (execute budget s m).1 := by
  have hvalue (e : Expr) : Explains (e.visits Γ m.scopes) (m.evaluate e).1 :=
    explains_evaluate Γ e m.scopes
  match s with
  | .expression e =>
      rw [execute_expression]
      exact (hvalue e).last fun _ _ => rfl
  | .print e =>
      rw [execute_print]
      exact (hvalue e).last undefinedName?_printValue
  | .declare name e =>
      rw [execute_declare]
      split
      · next hmissing =>
        rw [Stmt.visits, visits_of_isMissing hmissing]
        rfl
      · exact (hvalue e).last fun _ _ => rfl
  | .block body =>
      have hbody := explains_executeAll budget ([] :: Γ) body (m.enterBlock body.length)
      have houter := executeAll_sameOuter budget body (m.enterBlock body.length)
      cases heq : executeAll budget body (m.enterBlock body.length) with
      | mk result m' =>
          rw [heq] at hbody houter
          obtain ⟨m'', hrun, -⟩ := inBlock_eq heq houter
          rw [execute, hrun]
          exact hbody
  | .conditional e s t =>
      rw [execute_conditional, Stmt.visits]
      refine (hvalue e).andThen fun v m' _ => ?_
      split
      · exact explains_execute budget Γ s m'
      · exact explains_execute budget Γ t m'
  | .loop e s =>
      rw [execute_loop, Stmt.visits]
      exact explains_iterate (fun m => explains_evaluate Γ e m.scopes)
        (fun m => explains_execute budget Γ s m) budget m
  | .missing => rfl
  | .foreign typeName => rfl

theorem explains_executeAll (budget : Nat) (Γ : Position) (program : List Stmt) (m : Machine) :
    Explains (programVisits budget Γ program m) (executeAll budget program m).1 := by
  match program with
  | [] => rfl
  | s :: rest =>
      rw [executeAll_cons, programVisits]
      exact (explains_execute budget Γ s m).andThen fun _ m' _ =>
        explains_executeAll budget (Γ.pass s) rest m'

end

end Scriptlet
