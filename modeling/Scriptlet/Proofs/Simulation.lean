import Scriptlet.Proofs.RunSteps

/-!
Two programs side by side. A simulation relates the expressions and names of one program to those
of another, and the faults and machines of their runs. Where each step that a statement is made of
keeps machines related, so do whole runs.
-/

namespace Scriptlet

/-- Two runs end alike: with the same value or with related faults, in related states. -/
inductive EndsAlike {α S : Type} (fault : Fault → Fault → Prop) (state : S → S → Prop) :
    Except Fault α × S → Except Fault α × S → Prop where
  | ok (a : α) {s s' : S} (h : state s s') : EndsAlike fault state (.ok a, s) (.ok a, s')
  | error {f f' : Fault} {s s' : S} (hf : fault f f') (h : state s s') :
      EndsAlike fault state (.error f, s) (.error f', s')

theorem endsAlike_eq_iff {α S : Type} {state : S → S → Prop} {r r' : Except Fault α × S} :
    EndsAlike (· = ·) state r r' ↔ r'.1 = r.1 ∧ state r.2 r'.2 := by
  constructor
  · rintro (⟨_, h⟩ | ⟨hf, h⟩)
    · exact ⟨rfl, h⟩
    · exact ⟨congrArg Except.error hf.symm, h⟩
  · obtain ⟨result, s⟩ := r
    obtain ⟨result', s'⟩ := r'
    rintro ⟨hresult, h⟩
    cases hresult
    cases result with
    | ok a => exact .ok a h
    | error f => exact .error rfl h

section Steps

variable {fault : Fault → Fault → Prop} {machine : Machine → Machine → Prop}

theorem endsAlike_andThen {α β : Type} {run run' : Run α} {next next' : α → Run β}
    (h : ∀ ⦃m m'⦄, machine m m' → EndsAlike fault machine (run m) (run' m'))
    (hnext : ∀ a ⦃m m'⦄, machine m m' → EndsAlike fault machine (next a m) (next' a m')) :
    ∀ ⦃m m'⦄, machine m m' →
      EndsAlike fault machine (Run.andThen run next m) (Run.andThen run' next' m') := by
  intro m m' hm
  have hrun := h hm
  unfold Run.andThen
  generalize run m = r, run' m' = r' at hrun ⊢
  cases hrun with
  | error hf hm => exact .error hf hm
  | ok a hm => exact hnext a hm

theorem endsAlike_done ⦃m m' : Machine⦄ (hm : machine m m') :
    EndsAlike fault machine (Run.done m) (Run.done m') := .ok () hm

/-- Loops whose conditions and bodies end alike end alike, after the same number of rounds. -/
theorem endsAlike_iterate (hexhausted : fault .exhausted .exhausted)
    {condition condition' : Run Value} {body body' : Run Unit}
    (hc : ∀ ⦃m m'⦄, machine m m' → EndsAlike fault machine (condition m) (condition' m'))
    (hb : ∀ ⦃m m'⦄, machine m m' → EndsAlike fault machine (body m) (body' m')) (budget : Nat) :
    ∀ ⦃m m'⦄, machine m m' →
      EndsAlike fault machine (iterate condition body budget m)
        (iterate condition' body' budget m') := by
  induction budget with
  | zero => exact fun _ _ hm => .error hexhausted hm
  | succ budget ih =>
      rw [iterate_succ, iterate_succ]
      refine endsAlike_andThen hc fun v => ?_
      split
      · exact endsAlike_andThen hb fun _ => ih
      · exact endsAlike_done

end Steps

mutual

/-- Statements of the same form, with related expressions and names in the same places. -/
inductive Stmt.Alike (expr : Expr → Expr → Prop) (name : Token → Token → Prop) :
    Stmt → Stmt → Prop where
  | expression {e e' : Expr} (h : expr e e') : Stmt.Alike expr name (.expression e) (.expression e')
  | print {e e' : Expr} (h : expr e e') : Stmt.Alike expr name (.print e) (.print e')
  | declare {n n' : Token} {e e' : Expr} (hn : name n n') (h : expr e e') :
      Stmt.Alike expr name (.declare n e) (.declare n' e')
  | block {body body' : List Stmt} (h : AlikePrograms expr name body body') :
      Stmt.Alike expr name (.block body) (.block body')
  | conditional {e e' : Expr} {s s' t t' : Stmt} (h : expr e e') (hs : Stmt.Alike expr name s s')
      (ht : Stmt.Alike expr name t t') : Stmt.Alike expr name (.conditional e s t) (.conditional e' s' t')
  | loop {e e' : Expr} {s s' : Stmt} (h : expr e e') (hs : Stmt.Alike expr name s s') :
      Stmt.Alike expr name (.loop e s) (.loop e' s')
  | missing : Stmt.Alike expr name .missing .missing
  | foreign (typeName : String) : Stmt.Alike expr name (.foreign typeName) (.foreign typeName)

inductive AlikePrograms (expr : Expr → Expr → Prop) (name : Token → Token → Prop) :
    List Stmt → List Stmt → Prop where
  | nil : AlikePrograms expr name [] []
  | cons {s s' : Stmt} {p p' : List Stmt} (hs : Stmt.Alike expr name s s')
      (hp : AlikePrograms expr name p p') : AlikePrograms expr name (s :: p) (s' :: p')

end

theorem AlikePrograms.length_eq {expr : Expr → Expr → Prop} {name : Token → Token → Prop}
    {p p' : List Stmt} (h : AlikePrograms expr name p p') : p.length = p'.length := by
  induction p generalizing p' with
  | nil =>
      cases h
      rfl
  | cons s p ih =>
      cases h with
      | cons _ hp => simp only [List.length_cons, ih hp]

/-- The relations of two runs, with what the single steps of statements do to related machines. -/
structure Simulation where
  expr : Expr → Expr → Prop
  name : Token → Token → Prop
  fault : Fault → Fault → Prop
  machine : Machine → Machine → Prop
  isMissing : ∀ {e e'}, expr e e' → e.isMissing = e'.isMissing
  evaluate : ∀ {e e' m m'}, expr e e' → machine m m' →
    EndsAlike fault machine (m.evaluate e) (m'.evaluate e')
  print : ∀ {m m'} (line : String), machine m m' → machine (m.print line) (m'.print line)
  define : ∀ {n n' m m'} (v : Value), name n n' → machine m m' →
    machine (m.define n.lexeme v) (m'.define n'.lexeme v)
  enter : ∀ {m m'} (size : Nat), machine m m' → machine (m.enterBlock size) (m'.enterBlock size)
  note : ∀ {f f' m m'}, fault f f' → machine m m' → machine (m.noteFault f) (m'.noteFault f')
  leave : ∀ {m m'}, machine m m' →
    Option.Rel (fun σ σ' => machine { m with scopes := σ } { m' with scopes := σ' })
      m.scopes.leave? m'.scopes.leave?
  crash : fault .crash .crash
  exhausted : fault .exhausted .exhausted
  statementType : ∀ typeName, fault (.defect (.statementType typeName))
    (.defect (.statementType typeName))

namespace Simulation

variable (S : Simulation)

/-- Runs that end alike from related machines. -/
def Runs {α : Type} (run run' : Run α) : Prop :=
  ∀ ⦃m m'⦄, S.machine m m' → EndsAlike S.fault S.machine (run m) (run' m')

variable {S}

theorem runs_printValue (v : Value) : S.Runs (printValue v) (printValue v) := by
  intro m m' hm
  unfold printValue
  split
  · exact .ok () (S.print _ hm)
  · exact .error S.crash hm

theorem runs_iterate {condition condition' : Run Value} {body body' : Run Unit}
    (hc : S.Runs condition condition') (hb : S.Runs body body') (budget : Nat) :
    S.Runs (iterate condition body budget) (iterate condition' body' budget) :=
  endsAlike_iterate S.exhausted hc hb budget

theorem runs_leaveBlock {result result' : Except Fault Unit} {m m' : Machine}
    (h : EndsAlike S.fault S.machine (result, m) (result', m')) :
    EndsAlike S.fault S.machine (m.leaveBlock result) (m'.leaveBlock result') := by
  have hm : S.machine m m' := by cases h <;> assumption
  have hleave := S.leave hm
  simp only [Machine.leaveBlock]
  generalize m.scopes.leave? = σ, m'.scopes.leave? = σ' at hleave ⊢
  cases hleave with
  | none => exact .error S.crash hm
  | some hm =>
      cases h with
      | ok _ _ => exact .ok () hm
      | error hf _ => exact .error hf hm

theorem runs_inBlock (size : Nat) {body body' : Run Unit} (h : S.Runs body body') :
    S.Runs (inBlock size body) (inBlock size body') := by
  intro m m' hm
  have hbody := h (S.enter size hm)
  simp only [inBlock]
  generalize body (m.enterBlock size) = r, body' (m'.enterBlock size) = r' at hbody ⊢
  cases hbody with
  | ok _ hm => exact runs_leaveBlock (.ok () hm)
  | error hf hm => exact runs_leaveBlock (.error hf (S.note hf hm))

mutual

theorem runs_execute (budget : Nat) (s : Stmt) {s' : Stmt} (h : Stmt.Alike S.expr S.name s s') :
    S.Runs (execute budget s) (execute budget s') := by
  match s, h with
  | .expression e, .expression he =>
      rw [execute_expression, execute_expression]
      exact endsAlike_andThen (fun _ _ hm => S.evaluate he hm) fun _ => endsAlike_done
  | .print e, .print he =>
      rw [execute_print, execute_print]
      exact endsAlike_andThen (fun _ _ hm => S.evaluate he hm) runs_printValue
  | .declare name e, .declare hname he =>
      rw [execute_declare, execute_declare, S.isMissing he]
      split
      · exact fun _ _ hm => .ok () (S.define .nil hname hm)
      · exact endsAlike_andThen (fun _ _ hm => S.evaluate he hm)
          fun v _ _ hm => .ok () (S.define v hname hm)
  | .block body, .block hbody =>
      rw [execute_block, execute_block, hbody.length_eq]
      exact runs_inBlock _ (runs_executeAll budget body hbody)
  | .conditional e s t, .conditional he hs ht =>
      rw [execute_conditional, execute_conditional]
      refine endsAlike_andThen (fun _ _ hm => S.evaluate he hm) fun v => ?_
      split
      · exact runs_execute budget s hs
      · exact runs_execute budget t ht
  | .loop e s, .loop he hs =>
      rw [execute_loop, execute_loop]
      exact runs_iterate (fun _ _ hm => S.evaluate he hm) (runs_execute budget s hs) budget
  | .missing, .missing => exact endsAlike_done
  | .foreign typeName, .foreign _ => exact fun _ _ hm => .error (S.statementType typeName) hm

/-- Programs that are alike run alike. -/
theorem runs_executeAll (budget : Nat) (p : List Stmt) {p' : List Stmt}
    (h : AlikePrograms S.expr S.name p p') :
    S.Runs (executeAll budget p) (executeAll budget p') := by
  match p, h with
  | [], .nil => exact endsAlike_done
  | s :: p, .cons hs hp =>
      rw [executeAll_cons, executeAll_cons]
      exact endsAlike_andThen (runs_execute budget s hs) fun _ => runs_executeAll budget p hp

end

end Simulation

end Scriptlet
