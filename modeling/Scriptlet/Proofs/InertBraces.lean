import Scriptlet.Proofs.ScopeDiscipline
import Scriptlet.Proofs.Simulation

/-!
Scopes that bind nothing. Wherever an empty frame stands in the stack, lookups and assignments pass
through it, and a statement that declares nothing outside its blocks leaves it empty. So braces
around a statement that is not a declaration change nothing but the log.
-/

namespace Scriptlet

namespace Scopes

variable {σ σ' : Scopes} {mask : List Bool}

/-- The frames with an empty one put in at each place that the mask marks, from the innermost on. -/
def padFrames : List Bool → List Frame → List Frame
  | [], frames => frames
  | true :: mask, frames => {} :: padFrames mask frames
  | false :: mask, f :: frames => f :: padFrames mask frames
  | false :: _, [] => []

def pad (mask : List Bool) (σ : Scopes) : Scopes :=
  { σ with locals := padFrames mask σ.locals }

theorem findIn_padFrames (name : String) (mask : List Bool) (frames : List Frame) :
    findIn name (padFrames mask frames) = findIn name frames := by
  induction mask generalizing frames with
  | nil => rfl
  | cons marked mask ih =>
      cases marked with
      | true => exact ih frames
      | false =>
          cases frames with
          | nil => rfl
          | cons f frames => simp only [padFrames, findIn, ih]

theorem assignIn_padFrames (name : String) (v : Value) (mask : List Bool) (frames : List Frame) :
    assignIn name v (padFrames mask frames) = (assignIn name v frames).map (padFrames mask) := by
  induction mask generalizing frames with
  | nil =>
      rw [padFrames]
      cases assignIn name v frames <;> rfl
  | cons marked mask ih =>
      cases marked with
      | true =>
          have hempty : assignIn name v ({} :: padFrames mask frames) =
              (assignIn name v (padFrames mask frames)).map ({} :: ·) := rfl
          rw [padFrames, hempty, ih]
          cases assignIn name v frames <;> rfl
      | false =>
          cases frames with
          | nil => rfl
          | cons f frames =>
              simp only [padFrames, assignIn, ih]
              split
              · rfl
              · cases assignIn name v frames <;> rfl

theorem get?_pad (name : String) (mask : List Bool) (σ : Scopes) :
    (σ.pad mask).get? name = σ.get? name := by
  simp only [get?, pad, findIn_padFrames]

theorem assign?_pad (name : String) (v : Value) (mask : List Bool) (σ : Scopes) :
    (σ.pad mask).assign? name v = (σ.assign? name v).map (pad mask) := by
  simp only [assign?, pad, assignIn_padFrames]
  cases assignIn name v σ.locals with
  | some locals => rfl
  | none =>
      rw [Option.map_none, apply_ite (Option.map (pad mask))]
      rfl

/-- A declaration binds in the same frame if no empty one was put in on top. -/
theorem define_pad (name : String) (v : Value) (h : mask.head? ≠ some true) :
    (σ.pad mask).define name v = (σ.define name v).pad mask := by
  obtain ⟨locals, globals⟩ := σ
  cases mask with
  | nil => rfl
  | cons marked mask =>
      cases marked with
      | true => exact absurd rfl h
      | false => cases locals <;> rfl

theorem leave?_pad (h : σ.leave? = some σ') :
    (σ.pad (false :: mask)).leave? = some (σ'.pad mask) := by
  obtain ⟨locals, globals⟩ := σ
  cases locals with
  | nil => cases h
  | cons f frames =>
      cases h
      rfl

end Scopes

/-- Evaluation does not see the empty frames and does not touch them. -/
theorem evaluate_pad (mask : List Bool) (e : Expr) (σ : Scopes) :
    evaluate e (σ.pad mask) = ((evaluate e σ).1, (evaluate e σ).2.pad mask) := by
  induction e generalizing σ with
  | literal value | missing | foreign typeName => rfl
  | grouping inner ih => exact ih σ
  | «variable» name => simp only [evaluate, lookUp, Scopes.get?_pad]
  | unary op operand ih =>
      simp only [evaluate, ih]
      obtain ⟨_ | v, σ'⟩ := evaluate operand σ <;> rfl
  | binary left op right ihl ihr =>
      simp only [evaluate, ihl]
      obtain ⟨_ | l, σ'⟩ := evaluate left σ
      · rfl
      · simp only [ihr]
        obtain ⟨_ | r, σ''⟩ := evaluate right σ' <;> rfl
  | logical left op right ihl ihr =>
      simp only [evaluate, ihl]
      obtain ⟨_ | l, σ'⟩ := evaluate left σ
      · rfl
      · simp only
        split
        · rfl
        · exact ihr σ'
  | assign name value ih =>
      simp only [evaluate, ih]
      obtain ⟨_ | v, σ'⟩ := evaluate value σ
      · rfl
      · simp only [assignVariable, Scopes.assign?_pad]
        cases σ'.assign? name.lexeme v <;> rfl

/-- The second machine has printed the same, and its scopes are those of the first with empty frames
put in. The logs are not compared: they tell of every block. -/
structure Machine.Padded (mask : List Bool) (m m' : Machine) : Prop where
  scopes : m'.scopes = m.scopes.pad mask
  output : m'.output = m.output

/-- The second run does what the first does and leaves the empty frames that it finds in place. -/
def PaddedRuns (mask : List Bool) {α : Type} (run run' : Run α) : Prop :=
  ∀ ⦃m m'⦄, Machine.Padded mask m m' → EndsAlike (· = ·) (Machine.Padded mask) (run m) (run' m')

section Runs

open Scopes (SameOuter)

variable {mask : List Bool}

theorem padded_evaluate (e : Expr) : PaddedRuns mask (Machine.evaluate e) (Machine.evaluate e) := by
  intro m m' hm
  simp only [endsAlike_eq_iff, Machine.evaluate, hm.scopes, evaluate_pad]
  exact ⟨trivial, rfl, hm.output⟩

theorem padded_printValue (v : Value) : PaddedRuns mask (printValue v) (printValue v) := by
  intro m m' hm
  unfold printValue
  split
  · exact .ok () ⟨hm.scopes, congrArg (Array.push · _) hm.output⟩
  · exact .error rfl hm

theorem padded_define (hmask : mask.head? ≠ some true) (name : String) (v : Value) :
    PaddedRuns mask (fun m => (.ok (), m.define name v)) (fun m => (.ok (), m.define name v)) := by
  intro m m' hm
  refine .ok () ⟨?_, hm.output⟩
  simp only [Machine.define, hm.scopes, Scopes.define_pad name v hmask]

theorem inBlock_of_leave? {size : Nat} {body : Run Unit} {m : Machine} {σ : Scopes}
    (h : (body (m.enterBlock size)).2.scopes.leave? = some σ) :
    (inBlock size body m).1 = (body (m.enterBlock size)).1 ∧
      (inBlock size body m).2.scopes = σ ∧
      (inBlock size body m).2.output = (body (m.enterBlock size)).2.output := by
  unfold inBlock
  generalize body (m.enterBlock size) = r at h ⊢
  obtain ⟨fault | _, m'⟩ := r
  · have houtput : (m'.noteFault fault).output = m'.output := by cases fault <;> rfl
    simp only [Machine.leaveBlock, scopes_noteFault, h, houtput, and_self]
  · simp only [Machine.leaveBlock, h, and_self]

/-- Two blocks do alike if what is in them does. -/
theorem padded_inBlock (size size' : Nat) {body body' : Run Unit}
    (houter : ∀ m, SameOuter m.scopes (body m).2.scopes)
    (h : PaddedRuns (false :: mask) body body') :
    PaddedRuns mask (inBlock size body) (inBlock size' body') := by
  intro m m' hm
  have henter : Machine.Padded (false :: mask) (m.enterBlock size) (m'.enterBlock size') :=
    ⟨congrArg Scopes.enter hm.scopes, hm.output⟩
  obtain ⟨hresult, hpadded⟩ := endsAlike_eq_iff.mp (h henter)
  obtain ⟨σ, hleave, -⟩ := (houter (m.enterBlock size)).leave?
  obtain ⟨hrun, hscopes, houtput⟩ := inBlock_of_leave? hleave
  have hleave' : (body' (m'.enterBlock size')).2.scopes.leave? = some (σ.pad mask) := by
    rw [hpadded.scopes]
    exact Scopes.leave?_pad hleave
  obtain ⟨hrun', hscopes', houtput'⟩ := inBlock_of_leave? hleave'
  refine endsAlike_eq_iff.mpr ⟨?_, ?_, ?_⟩
  · rw [hrun', hresult, hrun]
  · rw [hscopes', hscopes]
  · rw [houtput', hpadded.output, houtput]

/-- A block around a run that leaves the new frame empty is as good as none. -/
theorem padded_block_of_padded (size : Nat) {run body : Run Unit}
    (h : PaddedRuns (true :: mask) run body) : PaddedRuns mask run (inBlock size body) := by
  intro m m' hm
  have henter : Machine.Padded (true :: mask) m (m'.enterBlock size) :=
    ⟨congrArg Scopes.enter hm.scopes, hm.output⟩
  obtain ⟨hresult, hpadded⟩ := endsAlike_eq_iff.mp (h henter)
  have hleave : (body (m'.enterBlock size)).2.scopes.leave? =
      some ((run m).2.scopes.pad mask) := by
    rw [hpadded.scopes]
    rfl
  obtain ⟨hrun, hscopes, houtput⟩ := inBlock_of_leave? hleave
  exact endsAlike_eq_iff.mpr ⟨hrun.trans hresult, hscopes, houtput.trans hpadded.output⟩

end Runs

mutual

/-- The second statement is the first with braces around some of the statements in it, or around
all of it, that are not declarations. -/
inductive Stmt.Braced : Stmt → Stmt → Prop where
  | expression (e : Expr) : Stmt.Braced (.expression e) (.expression e)
  | print (e : Expr) : Stmt.Braced (.print e) (.print e)
  | declare (name : Token) (e : Expr) : Stmt.Braced (.declare name e) (.declare name e)
  | block {body body' : List Stmt} (h : BracedPrograms body body') :
      Stmt.Braced (.block body) (.block body')
  | conditional (e : Expr) {s s' t t' : Stmt} (hs : Stmt.Braced s s') (ht : Stmt.Braced t t') :
      Stmt.Braced (.conditional e s t) (.conditional e s' t')
  | loop (e : Expr) {s s' : Stmt} (hs : Stmt.Braced s s') : Stmt.Braced (.loop e s) (.loop e s')
  | missing : Stmt.Braced .missing .missing
  | foreign (typeName : String) : Stmt.Braced (.foreign typeName) (.foreign typeName)
  | braces {s s' : Stmt} (h : Stmt.Braced s s') (hd : s.isDeclaration = false) :
      Stmt.Braced s (.block [s'])

inductive BracedPrograms : List Stmt → List Stmt → Prop where
  | nil : BracedPrograms [] []
  | cons {s s' : Stmt} {p p' : List Stmt} (hs : Stmt.Braced s s') (hp : BracedPrograms p p') :
      BracedPrograms (s :: p) (s' :: p')

end

mutual

theorem Stmt.Braced.refl (s : Stmt) : s.Braced s := by
  match s with
  | .expression e => exact .expression e
  | .print e => exact .print e
  | .declare name e => exact .declare name e
  | .block body => exact .block (BracedPrograms.refl body)
  | .conditional e s t => exact .conditional e (Stmt.Braced.refl s) (Stmt.Braced.refl t)
  | .loop e s => exact .loop e (Stmt.Braced.refl s)
  | .missing => exact .missing
  | .foreign typeName => exact .foreign typeName

theorem BracedPrograms.refl (p : List Stmt) : BracedPrograms p p := by
  match p with
  | [] => exact .nil
  | s :: p => exact .cons (Stmt.Braced.refl s) (BracedPrograms.refl p)

end

section Trees

variable {T : Token → Prop}

mutual

theorem padded_execute (budget : Nat) (mask : List Bool) {s : Stmt} (s' : Stmt)
    (hs : s = .missing ∨ s.WellFormed T) (h : Stmt.Braced s s')
    (hd : mask.head? = some true → s.declaredNames = []) :
    PaddedRuns mask (execute budget s) (execute budget s') := by
  match s', h with
  | .expression e, .expression _ =>
      rw [execute_expression]
      exact endsAlike_andThen (padded_evaluate e) fun _ => endsAlike_done
  | .print e, .print _ =>
      rw [execute_print]
      exact endsAlike_andThen (padded_evaluate e) padded_printValue
  | .declare name e, .declare _ _ =>
      have hmask : mask.head? ≠ some true := fun h => by cases hd h
      rw [execute_declare]
      split
      · exact padded_define hmask name.lexeme .nil
      · exact endsAlike_andThen (padded_evaluate e) (padded_define hmask name.lexeme)
  | .block body', @Stmt.Braced.block body _ hbody =>
      have hwell : WellFormedProgram T body := hs.resolve_left (fun h => by cases h)
      have hruns := padded_executeAll budget (false :: mask) body' hwell hbody fun h => by cases h
      rw [execute_block, execute_block]
      exact padded_inBlock _ _ (executeAll_sameOuter budget body) hruns
  | .block [s'], .braces h hnot =>
      -- the new frame stays empty because nothing is declared outside the blocks in it
      have hnone := s.declaredNames_eq_nil hs hnot
      have hruns := padded_execute budget (true :: mask) s' hs h fun _ => hnone
      rw [execute_block, executeAll_singleton]
      exact padded_block_of_padded _ hruns
  | .conditional e s' t', @Stmt.Braced.conditional _ s _ t _ hbs hbt =>
      obtain ⟨-, ⟨-, hsw⟩, htw⟩ := hs.resolve_left (fun h => by cases h)
      have hthen := padded_execute budget mask s' (.inr hsw) hbs
        fun h => (List.append_eq_nil_iff.mp (hd h)).1
      have helse := padded_execute budget mask t' (htw.imp_right And.right) hbt
        fun h => (List.append_eq_nil_iff.mp (hd h)).2
      rw [execute_conditional, execute_conditional]
      refine endsAlike_andThen (padded_evaluate e) fun v => ?_
      split
      · exact hthen
      · exact helse
  | .loop e s', @Stmt.Braced.loop _ s _ hbs =>
      obtain ⟨-, -, hsw⟩ := hs.resolve_left (fun h => by cases h)
      have hbody := padded_execute budget mask s' (.inr hsw) hbs hd
      rw [execute_loop, execute_loop]
      exact endsAlike_iterate rfl (padded_evaluate e) hbody budget
  | .missing, .missing => exact endsAlike_done
  | .foreign typeName, .foreign _ => exact fun _ _ hm => .error rfl hm

/-- A program with more braces runs alike, wherever empty frames stand in the stack. -/
theorem padded_executeAll (budget : Nat) (mask : List Bool) {p : List Stmt} (p' : List Stmt)
    (hp : WellFormedProgram T p) (h : BracedPrograms p p')
    (hd : mask.head? = some true → p.flatMap Stmt.declaredNames = []) :
    PaddedRuns mask (executeAll budget p) (executeAll budget p') := by
  match p', h with
  | [], .nil => exact endsAlike_done
  | s' :: p', @BracedPrograms.cons s _ p _ hbs hbp =>
      have hfirst := padded_execute budget mask s' (.inr hp.1) hbs
        fun h => (List.append_eq_nil_iff.mp (hd h)).1
      have hrest := padded_executeAll budget mask p' hp.2 hbp
        fun h => (List.append_eq_nil_iff.mp (hd h)).2
      rw [executeAll_cons, executeAll_cons]
      exact endsAlike_andThen hfirst fun _ => hrest

end

end Trees

/-- The runs end with the same result, have printed the same and leave the same scopes. -/
structure SameButLog (r r' : Except Fault Unit × Machine) : Prop where
  result : r'.1 = r.1
  output : r'.2.output = r.2.output
  scopes : r'.2.scopes = r.2.scopes

theorem PaddedRuns.sameButLog {run run' : Run Unit} (h : PaddedRuns [] run run') (m : Machine) :
    SameButLog (run m) (run' m) := by
  obtain ⟨hresult, hpadded⟩ := endsAlike_eq_iff.mp (h (m := m) ⟨rfl, rfl⟩)
  exact ⟨hresult, hpadded.output, hpadded.scopes⟩

/-- Braces around statements that are not declarations change neither the result of a program that
was read nor what it prints nor the scopes that it leaves. -/
theorem braces_are_inert {tokens : List Token} {program : List Stmt}
    (h : BracedPrograms (parse tokens).program program) (budget : Nat) (m : Machine) :
    SameButLog (executeAll budget (parse tokens).program m) (executeAll budget program m) := by
  have hwell : WellFormedProgram (fun _ => True) (parse tokens).program :=
    (parse_within trivial fun _ _ => trivial).1
  have hruns := padded_executeAll budget [] program hwell h fun h => by cases h
  exact hruns.sameButLog m

theorem braces_are_inert_loop :
    ∃ (tokens : List Token) (test value : Expr),
      tokens.map Token.lexeme = ["while", "(", "x", ")", "print", "y", ";"] ∧
      parse tokens = ⟨[.loop test (.print value)], []⟩ ∧
      BracedPrograms (parse tokens).program
        [.block [.loop test (.block [.print value])]] ∧
      ∀ (budget : Nat) (m : Machine),
        SameButLog (executeAll budget (parse tokens).program m)
          (executeAll budget [.block [.loop test (.block [.print value])]] m) := by
  have hread : parse [⟨.kwWhile, "while", .nil, 1⟩, ⟨.leftParen, "(", .nil, 1⟩,
      ⟨.identifier, "x", .nil, 1⟩, ⟨.rightParen, ")", .nil, 1⟩, ⟨.kwPrint, "print", .nil, 1⟩,
      ⟨.identifier, "y", .nil, 1⟩, ⟨.semicolon, ";", .nil, 1⟩] =
      ⟨[.loop (.variable ⟨.identifier, "x", .nil, 1⟩)
        (.print (.variable ⟨.identifier, "y", .nil, 1⟩))], []⟩ := by
    cbv
  have hbraced := fun (test value : Expr) =>
    BracedPrograms.cons (.braces (.loop test (.braces (.print value) rfl)) rfl) .nil
  refine ⟨_, _, _, rfl, hread, ?_, ?_⟩
  · rw [hread]
    exact hbraced _ _
  · refine braces_are_inert ?_
    rw [hread]
    exact hbraced _ _

end Scriptlet
