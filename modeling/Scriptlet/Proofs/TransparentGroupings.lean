import Scriptlet.Proofs.RunSteps
import Scriptlet.Proofs.WellFormedTrees

/-!
Parentheses only tell the reader of a program how it is put together. Once it is read, a grouping
has the value of what is in it, with the same effects and faults, so all of them may be left out.
-/

namespace Scriptlet

/-- The expression with the contents of groupings in their place. -/
def Expr.ungrouped : Expr → Expr
  | .grouping inner => inner.ungrouped
  | .unary op operand => .unary op operand.ungrouped
  | .binary left op right => .binary left.ungrouped op right.ungrouped
  | .logical left op right => .logical left.ungrouped op right.ungrouped
  | .assign name value => .assign name value.ungrouped
  | .literal value => .literal value
  | .variable name => .variable name
  | .missing => .missing
  | .foreign typeName => .foreign typeName

mutual

/-- The statement with all its expressions ungrouped. -/
def Stmt.ungrouped : Stmt → Stmt
  | .expression e => .expression e.ungrouped
  | .print e => .print e.ungrouped
  | .declare name e => .declare name e.ungrouped
  | .block body => .block (ungroupedProgram body)
  | .conditional e s t => .conditional e.ungrouped s.ungrouped t.ungrouped
  | .loop e s => .loop e.ungrouped s.ungrouped
  | .missing => .missing
  | .foreign typeName => .foreign typeName

def ungroupedProgram : List Stmt → List Stmt
  | [] => []
  | s :: rest => s.ungrouped :: ungroupedProgram rest

end

theorem length_ungroupedProgram (program : List Stmt) :
    (ungroupedProgram program).length = program.length := by
  induction program with
  | nil => rfl
  | cons s rest ih => rw [ungroupedProgram, List.length_cons, List.length_cons, ih]

theorem evaluate_ungrouped (e : Expr) : evaluate e.ungrouped = evaluate e := by
  induction e with
  | literal _ | «variable» _ | missing | foreign _ => rfl
  | grouping inner ih =>
      funext σ
      rw [Expr.ungrouped, evaluate, ih]
  | unary op operand ih =>
      funext σ
      simp only [Expr.ungrouped, evaluate, ih]
  | binary left op right ihl ihr | logical left op right ihl ihr =>
      funext σ
      simp only [Expr.ungrouped, evaluate, ihl, ihr]
  | assign name value ih =>
      funext σ
      simp only [Expr.ungrouped, evaluate, ih]

theorem Machine.evaluate_ungrouped (e : Expr) :
    Machine.evaluate e.ungrouped = Machine.evaluate e := by
  funext m
  rw [Machine.evaluate, Scriptlet.evaluate_ungrouped, Machine.evaluate]

section Trees

variable {T : Token → Prop}

theorem Expr.WellFormed.isMissing_ungrouped {e : Expr} (h : e.WellFormed T) :
    e.ungrouped.isMissing = false := by
  induction e with
  | grouping inner ih => exact ih h
  | missing | foreign _ => exact h.elim
  | literal _ | «variable» _ | unary _ _ _ | binary _ _ _ _ _ | logical _ _ _ _ _ | assign _ _ _ =>
      rfl

mutual

/-- A statement runs as it does without groupings. It has to be well-formed because a declaration
without initial value is not one whose initial value is a grouping of nothing. -/
theorem execute_ungrouped (budget : Nat) (s : Stmt) (h : s = .missing ∨ s.WellFormed T) :
    execute budget s.ungrouped = execute budget s := by
  match s, h with
  | .expression e, _ =>
      rw [Stmt.ungrouped, execute_expression, execute_expression, Machine.evaluate_ungrouped]
  | .print e, _ => rw [Stmt.ungrouped, execute_print, execute_print, Machine.evaluate_ungrouped]
  | .declare name e, .inr h =>
      have hmissing : e.ungrouped.isMissing = e.isMissing := by
        obtain rfl | he := h.2.2
        · rfl
        · rw [he.isMissing_ungrouped, he.isMissing]
      rw [Stmt.ungrouped, execute_declare, execute_declare, Machine.evaluate_ungrouped, hmissing]
  | .block body, .inr h =>
      rw [Stmt.ungrouped, execute_block, execute_block, executeAll_ungrouped budget body h,
        length_ungroupedProgram]
  | .conditional e s t, .inr h =>
      rw [Stmt.ungrouped, execute_conditional, execute_conditional, Machine.evaluate_ungrouped,
        execute_ungrouped budget s (.inr h.2.1.2),
        execute_ungrouped budget t (h.2.2.imp_right And.right)]
  | .loop e s, .inr h =>
      rw [Stmt.ungrouped, execute_loop, execute_loop, Machine.evaluate_ungrouped,
        execute_ungrouped budget s (.inr h.2.2)]
  | .missing, _ | .foreign _, _ => rfl

theorem executeAll_ungrouped (budget : Nat) (program : List Stmt)
    (h : WellFormedProgram T program) :
    executeAll budget (ungroupedProgram program) = executeAll budget program := by
  match program with
  | [] => rfl
  | s :: rest =>
      rw [ungroupedProgram, executeAll_cons, executeAll_cons, execute_ungrouped budget s (.inr h.1),
        executeAll_ungrouped budget rest h.2]

end

end Trees

/-- A program that was read does without its groupings what it does with them: it ends in the same
way, with the same output, log and scopes. -/
theorem groupings_are_transparent (tokens : List Token) (budget : Nat) (m : Machine) :
    executeAll budget (ungroupedProgram (parse tokens).program) m =
      executeAll budget (parse tokens).program m := by
  have hwell : WellFormedProgram (fun _ => True) (parse tokens).program :=
    (parse_within trivial fun _ _ => trivial).1
  rw [executeAll_ungrouped budget _ hwell]

end Scriptlet
