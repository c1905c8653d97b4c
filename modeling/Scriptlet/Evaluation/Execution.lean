import Scriptlet.Evaluation.Expression

/-!
Running statements. A block runs in a scope of its own, which is dropped however the block ends.
Each loop may go round `budget` times; a loop that would go on stops the run as `exhausted`, so a
run that ends otherwise does not depend on the budget.
-/

namespace Scriptlet

/-- What is noted about blocks while a program runs. -/
inductive Trace where
  | enterBlock (depth size : Nat)
  | leaveBlock (depth : Nat)
  deriving DecidableEq, Repr

/-- The state of a run: its scopes, the lines printed and the traces noted so far. -/
structure Machine where
  scopes : Scopes := {}
  output : Array String := #[]
  log : Array Trace := #[]
  deriving DecidableEq, Inhabited

abbrev Run (α : Type) := Machine → Except Fault α × Machine

namespace Machine

def evaluate (e : Expr) : Run Value := fun m =>
  let (result, scopes) := Scriptlet.evaluate e m.scopes
  (result, { m with scopes })

def print (line : String) (m : Machine) : Machine :=
  { m with output := m.output.push line }

def define (name : String) (value : Value) (m : Machine) : Machine :=
  { m with scopes := m.scopes.define name value }

/-- Opens the scope of a block with `size` statements. -/
def enterBlock (size : Nat) (m : Machine) : Machine :=
  let scopes := m.scopes.enter
  { m with scopes, log := m.log.push (.enterBlock scopes.depth size) }

/-- An error or defect that passes through a block leaves a trace. -/
def noteFault (fault : Fault) (m : Machine) : Machine :=
  match fault with
  | .error _ | .defect _ => { m with log := m.log.push (.leaveBlock m.scopes.depth) }
  | .crash | .exhausted => m

/-- Drops the scope of a block that ended with `result`. -/
def leaveBlock (result : Except Fault Unit) : Run Unit := fun m =>
  match m.scopes.leave? with
  | some scopes => (result, { m with scopes })
  | none => (.error .crash, m)

end Machine

/-- Goes round while the condition holds, at most as often as the budget says. -/
def iterate (condition : Run Value) (body : Run Unit) : Nat → Run Unit
  | 0, m => (.error .exhausted, m)
  | budget + 1, m =>
    match condition m with
    | (.error fault, m) => (.error fault, m)
    | (.ok v, m) =>
      if v.isTruthy then
        match body m with
        | (.error fault, m) => (.error fault, m)
        | (.ok (), m) => iterate condition body budget m
      else (.ok (), m)

/-- Runs the body of a block in a new scope. -/
def inBlock (size : Nat) (body : Run Unit) : Run Unit := fun m =>
  match body (m.enterBlock size) with
  | (.ok (), m) => m.leaveBlock (.ok ())
  | (.error fault, m) => (m.noteFault fault).leaveBlock (.error fault)

def printValue (v : Value) : Run Unit := fun m =>
  match v.text? with
  | some line => (.ok (), m.print line)
  | none => (.error .crash, m)

mutual

def execute (budget : Nat) : Stmt → Run Unit
  | .expression e, m =>
    match m.evaluate e with
    | (.error fault, m) => (.error fault, m)
    | (.ok _, m) => (.ok (), m)
  | .print e, m =>
    match m.evaluate e with
    | (.error fault, m) => (.error fault, m)
    | (.ok v, m) => printValue v m
  | .declare name initial, m =>
    if initial.isMissing then (.ok (), m.define name.lexeme .nil)
    else
      match m.evaluate initial with
      | (.error fault, m) => (.error fault, m)
      | (.ok v, m) => (.ok (), m.define name.lexeme v)
  | .block body, m => inBlock body.length (fun m => executeAll budget body m) m
  | .conditional condition consequence alternative, m =>
    match m.evaluate condition with
    | (.error fault, m) => (.error fault, m)
    | (.ok v, m) =>
      if v.isTruthy then execute budget consequence m else execute budget alternative m
  | .loop condition body, m =>
    iterate (Machine.evaluate condition) (fun m => execute budget body m) budget m
  | .missing, m => (.ok (), m)
  | .foreign typeName, m => (.error (.defect (.statementType typeName)), m)

/-- Runs statements in order; the first that fails ends the run. -/
def executeAll (budget : Nat) : List Stmt → Run Unit
  | [], m => (.ok (), m)
  | s :: rest, m =>
    match execute budget s m with
    | (.error fault, m) => (.error fault, m)
    | (.ok (), m) => executeAll budget rest m

end

end Scriptlet
