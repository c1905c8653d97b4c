import Scriptlet.Evaluation.Execution

/-!
Runs as sequences of steps. A run that is followed by another gives it its value and its machine,
and a fault ends both; the run of a statement, a program or a loop is put together in this way from
the runs of its parts.
-/

namespace Scriptlet

namespace Run

def andThen {α β : Type} (run : Run α) (next : α → Run β) : Run β := fun m =>
  match run m with
  | (.error fault, m) => (.error fault, m)
  | (.ok a, m) => next a m

def done : Run Unit := fun m => (.ok (), m)

theorem andThen_done (run : Run Unit) : andThen run (fun _ => done) = run := by
  funext m
  simp only [andThen]
  obtain ⟨_ | _, m'⟩ := run m <;> rfl

theorem andThen_assoc {α β γ : Type} (run : Run α) (next : α → Run β) (last : β → Run γ) :
    andThen (andThen run next) last = andThen run fun a => andThen (next a) last := by
  funext m
  simp only [andThen]
  obtain ⟨_ | _, m'⟩ := run m <;> rfl

end Run

@[simp] theorem scopes_noteFault (fault : Fault) (m : Machine) :
    (m.noteFault fault).scopes = m.scopes := by
  cases fault <;> rfl

/-! The steps that statements are made of. -/

theorem execute_expression (budget : Nat) (e : Expr) :
    execute budget (.expression e) = Run.andThen (Machine.evaluate e) fun _ => Run.done := by
  funext m
  unfold execute Run.andThen
  obtain ⟨_ | v, m'⟩ := m.evaluate e <;> rfl

theorem execute_print (budget : Nat) (e : Expr) :
    execute budget (.print e) = Run.andThen (Machine.evaluate e) printValue := by
  funext m
  unfold execute Run.andThen
  obtain ⟨_ | v, m'⟩ := m.evaluate e <;> rfl

theorem execute_declare (budget : Nat) (name : Token) (e : Expr) :
    execute budget (.declare name e) =
      if e.isMissing then fun m => (.ok (), m.define name.lexeme .nil)
      else Run.andThen (Machine.evaluate e) fun v m => (.ok (), m.define name.lexeme v) := by
  funext m
  rw [execute]
  split
  · rfl
  · unfold Run.andThen
    obtain ⟨_ | v, m'⟩ := m.evaluate e <;> rfl

theorem execute_block (budget : Nat) (body : List Stmt) :
    execute budget (.block body) = inBlock body.length (executeAll budget body) := by
  funext m
  rw [execute]

theorem execute_loop (budget : Nat) (e : Expr) (s : Stmt) :
    execute budget (.loop e s) = iterate (Machine.evaluate e) (execute budget s) budget := by
  funext m
  rw [execute]

theorem execute_conditional (budget : Nat) (e : Expr) (s t : Stmt) :
    execute budget (.conditional e s t) = Run.andThen (Machine.evaluate e) fun v =>
      if v.isTruthy then execute budget s else execute budget t := by
  funext m
  unfold execute Run.andThen
  obtain ⟨_ | v, m'⟩ := m.evaluate e
  · rfl
  · simp only
    split <;> rfl

theorem executeAll_cons (budget : Nat) (s : Stmt) (p : List Stmt) :
    executeAll budget (s :: p) = Run.andThen (execute budget s) fun _ => executeAll budget p := by
  funext m
  unfold executeAll Run.andThen
  obtain ⟨_ | _, m'⟩ := execute budget s m <;> rfl

theorem executeAll_singleton (budget : Nat) (s : Stmt) :
    executeAll budget [s] = execute budget s := by
  rw [executeAll_cons]
  exact Run.andThen_done _

theorem iterate_succ (condition : Run Value) (body : Run Unit) (budget : Nat) :
    iterate condition body (budget + 1) = Run.andThen condition fun v =>
      if v.isTruthy then Run.andThen body fun _ => iterate condition body budget
      else Run.done := by
  funext m
  unfold Run.andThen
  rw [iterate]
  obtain ⟨_ | v, m'⟩ := condition m
  · rfl
  · simp only
    split
    · change _ = Run.andThen body (fun _ => iterate condition body budget) m'
      unfold Run.andThen
      obtain ⟨_ | _, m''⟩ := body m' <;> rfl
    · rfl

end Scriptlet
