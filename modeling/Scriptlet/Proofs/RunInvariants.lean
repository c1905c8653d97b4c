import Scriptlet.Proofs.RunSteps

/-!
Invariants of runs. A run keeps a condition on scopes if it ends in it whenever it starts in it; how
it may end is said along with that. Where each step that a statement is made of keeps a condition,
whole runs keep it, so that an invariant is shown step by step and never statement by statement.
-/

namespace Scriptlet

/-- A value that satisfies `P`, or one of the faults in `F`. -/
def Yields {α : Type} (F : Fault → Prop) (P : α → Prop) : Except Fault α → Prop
  | .ok a => P a
  | .error fault => F fault

theorem Yields.imp {α : Type} {F : Fault → Prop} {P Q : α → Prop} {result : Except Fault α}
    (h : Yields F P result) (hPQ : ∀ a, P a → Q a) : Yields F Q result := by
  cases result with
  | ok a => exact hPQ a h
  | error fault => exact h

namespace Run

/-- From scopes with a condition, the run ends in such scopes again and yields as told. -/
def Keeps {α : Type} (scopes : Scopes → Prop) (F : Fault → Prop) (P : α → Prop) (run : Run α) :
    Prop :=
  ∀ m, scopes m.scopes → Yields F P (run m).1 ∧ scopes (run m).2.scopes

namespace Keeps

variable {α β : Type} {scopes : Scopes → Prop} {F : Fault → Prop} {P : α → Prop} {Q : β → Prop}

theorem done {P : Unit → Prop} (h : P ()) : Keeps scopes F P Run.done :=
  fun _ hm => ⟨h, hm⟩

theorem andThen {run : Run α} {next : α → Run β} (h : Keeps scopes F P run)
    (hnext : ∀ a, P a → Keeps scopes F Q (next a)) :
    Keeps scopes F Q (Run.andThen run next) := by
  intro m hm
  have hrun := h m hm
  unfold Run.andThen
  generalize run m = r at hrun ⊢
  obtain ⟨result, m'⟩ := r
  cases result with
  | error fault => exact hrun
  | ok a => exact hnext a hrun.1 m' hrun.2

/-- A loop keeps what its condition and its body keep, however often it goes round. -/
theorem iterate {V : Value → Prop} {condition : Run Value} {body : Run Unit}
    (hexhausted : F .exhausted) (hc : Keeps scopes F V condition)
    (hb : Keeps scopes F (fun _ => True) body) (budget : Nat) :
    Keeps scopes F (fun _ => True) (iterate condition body budget) := by
  induction budget with
  | zero => exact fun _ hm => ⟨hexhausted, hm⟩
  | succ budget ih =>
      rw [iterate_succ]
      refine hc.andThen fun v _ => ?_
      split
      · exact hb.andThen fun _ _ => ih
      · exact done trivial

/-- The body of a block may keep a condition of its own, in the scope that is opened for it. It has
to ensure that this scope is there to be dropped in the end. -/
theorem inBlock (size : Nat) {body : Run Unit}
    (h : ∀ σ, scopes σ → ∃ inner : Scopes → Prop, inner σ.enter ∧
      Keeps inner F (fun _ => True) body ∧
      ∀ σ', inner σ' → ∃ σ'', σ'.leave? = some σ'' ∧ scopes σ'') :
    Keeps scopes F (fun _ => True) (inBlock size body) := by
  intro m hm
  obtain ⟨inner, henter, hbody, hleave⟩ := h m.scopes hm
  have hrun := hbody (m.enterBlock size) henter
  unfold Scriptlet.inBlock
  generalize body (m.enterBlock size) = r at hrun ⊢
  obtain ⟨result, m'⟩ := r
  obtain ⟨σ, hσ, houter⟩ := hleave _ hrun.2
  cases result with
  | ok u =>
      simp only [Machine.leaveBlock, hσ]
      exact ⟨trivial, houter⟩
  | error fault =>
      simp only [Machine.leaveBlock, scopes_noteFault, hσ]
      exact ⟨hrun.1, houter⟩

end Keeps

end Run

/-- A condition on the scopes of runs, with what the single steps of statements do to it. It may
depend on where in the program a statement stands. -/
structure Invariant where
  /-- What the condition depends on. -/
  Place : Type
  scopes : Place → Scopes → Prop
  /-- The values, faults, expressions and statements that may occur. -/
  value : Value → Prop
  fault : Fault → Prop
  expr : Expr → Prop
  stmt : Place → Stmt → Prop
  evaluate : ∀ {p e σ}, expr e → scopes p σ →
    Yields fault value (Scriptlet.evaluate e σ).1 ∧ scopes p (Scriptlet.evaluate e σ).2
  nil : value .nil
  crash : value .absent → fault .crash
  exhausted : fault .exhausted
  expression : ∀ {p e}, stmt p (.expression e) → expr e
  print : ∀ {p e}, stmt p (.print e) → expr e
  declare : ∀ {p name e}, stmt p (.declare name e) → e.isMissing = false → expr e
  define : ∀ {p name e σ v}, stmt p (.declare name e) → scopes p σ → value v →
    scopes p (σ.define name.lexeme v)
  block : ∀ {p body σ}, stmt p (.block body) → scopes p σ → ∃ q, (∀ s ∈ body, stmt q s) ∧
    scopes q σ.enter ∧ ∀ σ', scopes q σ' → ∃ σ'', σ'.leave? = some σ'' ∧ scopes p σ''
  conditional : ∀ {p e s t}, stmt p (.conditional e s t) → expr e ∧ stmt p s ∧ stmt p t
  loop : ∀ {p e s}, stmt p (.loop e s) → expr e ∧ stmt p s
  foreign : ∀ {p typeName}, stmt p (.foreign typeName) → fault (.defect (.statementType typeName))

namespace Invariant

variable {I : Invariant} {p : I.Place}

theorem keeps_evaluate {e : Expr} (h : I.expr e) :
    Run.Keeps (I.scopes p) I.fault I.value (Machine.evaluate e) :=
  fun _ hm => I.evaluate h hm

theorem keeps_printValue {v : Value} (h : I.value v) :
    Run.Keeps (I.scopes p) I.fault (fun _ => True) (printValue v) := by
  intro m hm
  cases v with
  | absent => exact ⟨I.crash h, hm⟩
  | nil | bool b | number x | string s => exact ⟨trivial, hm⟩

mutual

theorem keeps_execute (budget : Nat) (s : Stmt) {p : I.Place} (h : I.stmt p s) :
    Run.Keeps (I.scopes p) I.fault (fun _ => True) (execute budget s) := by
  match s with
  | .expression e =>
      rw [execute_expression]
      exact (keeps_evaluate (I.expression h)).andThen fun _ _ => .done trivial
  | .print e =>
      rw [execute_print]
      exact (keeps_evaluate (I.print h)).andThen fun _ hv => keeps_printValue hv
  | .declare name e =>
      rw [execute_declare]
      split
      · exact fun _ hm => ⟨trivial, I.define h hm I.nil⟩
      · next he =>
        have hpresent := I.declare h (Bool.eq_false_iff.mpr he)
        exact (keeps_evaluate hpresent).andThen fun _ hv _ hm => ⟨trivial, I.define h hm hv⟩
  | .block body =>
      rw [execute_block]
      apply Run.Keeps.inBlock
      intro σ hσ
      obtain ⟨q, hbody, henter, hleave⟩ := I.block h hσ
      exact ⟨I.scopes q, henter, keeps_executeAll budget body hbody, hleave⟩
  | .conditional e s t =>
      obtain ⟨he, hs, ht⟩ := I.conditional h
      rw [execute_conditional]
      refine (keeps_evaluate he).andThen fun v _ => ?_
      split
      · exact keeps_execute budget s hs
      · exact keeps_execute budget t ht
  | .loop e s =>
      obtain ⟨he, hs⟩ := I.loop h
      rw [execute_loop]
      exact .iterate I.exhausted (keeps_evaluate he) (keeps_execute budget s hs) budget
  | .missing => exact .done trivial
  | .foreign typeName => exact fun _ hm => ⟨I.foreign h, hm⟩

/-- What every step keeps, a run of a whole program keeps. -/
theorem keeps_executeAll (budget : Nat) (program : List Stmt) {p : I.Place}
    (h : ∀ s ∈ program, I.stmt p s) :
    Run.Keeps (I.scopes p) I.fault (fun _ => True) (executeAll budget program) := by
  match program with
  | [] => exact .done trivial
  | s :: rest =>
      obtain ⟨hs, hrest⟩ := List.forall_mem_cons.mp h
      rw [executeAll_cons]
      exact (keeps_execute budget s hs).andThen fun _ _ => keeps_executeAll budget rest hrest

end

end Invariant

end Scriptlet
