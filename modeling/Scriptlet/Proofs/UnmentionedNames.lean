import Scriptlet.Proofs.ScopeDiscipline
import Scriptlet.Proofs.Simulation

/-!
Names that a program does not mention. Every operation on scopes looks at the bindings of one name
only, frame by frame, and changes no others. So two runs of a program from scopes that differ in a
name which does not stand in it do the same, and neither of them touches this name in any frame.
-/

namespace Scriptlet

/-- The names that stand in an expression, to be read or assigned. -/
def Expr.mentionedNames : Expr → List String
  | .grouping inner => inner.mentionedNames
  | .unary _ operand => operand.mentionedNames
  | .binary left _ right | .logical left _ right => left.mentionedNames ++ right.mentionedNames
  | .variable name => [name.lexeme]
  | .assign name value => name.lexeme :: value.mentionedNames
  | .literal _ | .missing | .foreign _ => []

mutual

/-- The names that stand in a statement, to be declared, read or assigned. -/
def Stmt.mentionedNames : Stmt → List String
  | .expression e | .print e => e.mentionedNames
  | .declare name e => name.lexeme :: e.mentionedNames
  | .block body => namesMentionedIn body
  | .conditional e s t => e.mentionedNames ++ (s.mentionedNames ++ t.mentionedNames)
  | .loop e s => e.mentionedNames ++ s.mentionedNames
  | .missing | .foreign _ => []

def namesMentionedIn : List Stmt → List String
  | [] => []
  | s :: rest => s.mentionedNames ++ namesMentionedIn rest

end

theorem Expr.assignedNames_subset (e : Expr) : e.assignedNames ⊆ e.mentionedNames := by
  induction e with
  | literal _ | «variable» _ | missing | foreign _ => exact List.nil_subset _
  | grouping inner ih | unary op inner ih => exact ih
  | binary left op right ihl ihr | logical left op right ihl ihr =>
      exact List.append_subset.mpr
        ⟨fun _ h => List.mem_append_left _ (ihl h), fun _ h => List.mem_append_right _ (ihr h)⟩
  | assign name value ih => exact List.cons_subset_cons _ ih

/-! Scopes by name: what becomes of the bindings of one name in all frames. -/

theorem Frame.find?_put_self (name : String) (v : Value) (bindings : List (String × Value)) :
    find? name (put name v bindings) = some v := by
  induction bindings with
  | nil => simp [put, find?]
  | cons b rest ih =>
      simp only [put]
      split
      · next hb => simp [find?, hb]
      · next hb => simp [find?, hb, ih]

theorem Frame.get?_set_self (f : Frame) (name : String) (v : Value) :
    (f.set name v).get? name = some v :=
  find?_put_self name v f.bindings

namespace Scopes

variable {σ σ' : Scopes} {x : String}

/-- What each frame binds a name to, the innermost first and the global one last. -/
def column (σ : Scopes) (name : String) : List (Option Value) :=
  σ.frames.map (·.get? name)

/-- Puts a value in the place of the first one. -/
def replaceFirst (v : Value) : List (Option Value) → Option (List (Option Value))
  | [] => none
  | some _ :: rest => some (some v :: rest)
  | none :: rest => (replaceFirst v rest).map (none :: ·)

theorem length_column (σ : Scopes) (name : String) : (σ.column name).length = σ.depth + 1 := by
  rw [column, List.length_map, length_frames]

theorem findIn_eq_findSome? (name : String) (frames : List Frame) :
    findIn name frames = (frames.map (·.get? name)).findSome? id := by
  induction frames with
  | nil => rfl
  | cons f rest ih =>
      simp only [findIn, ih, List.map_cons, List.findSome?_cons, id]
      cases f.get? name <;> rfl

/-- A name is looked up in its column. -/
theorem get?_eq_findSome? (σ : Scopes) (name : String) :
    σ.get? name = (σ.column name).findSome? id := by
  rw [column, frames, List.map_append, List.findSome?_append, ← findIn_eq_findSome?,
    ← findIn_eq_findSome?]
  simp only [get?, findIn]
  cases findIn name σ.locals <;> cases σ.globals.get? name <;> rfl

theorem map_get?_assignIn_self (name : String) (v : Value) (frames : List Frame) :
    (assignIn name v frames).map (List.map (·.get? name)) =
      replaceFirst v (frames.map (·.get? name)) := by
  induction frames with
  | nil => rfl
  | cons f rest ih =>
      rw [assignIn, List.map_cons]
      split
      · next hb =>
        obtain ⟨w, hw⟩ := Option.isSome_iff_exists.mp hb
        rw [hw, replaceFirst, Option.map_some, List.map_cons, Frame.get?_set_self]
      · next hb =>
        have hnone : f.get? name = none := by simpa [Frame.binds] using hb
        rw [hnone, replaceFirst, ← ih, Option.map_map, Option.map_map]
        congr 1
        funext fs
        simp [hnone]

theorem assignIn_append (name : String) (v : Value) (front back : List Frame) :
    assignIn name v (front ++ back) =
      ((assignIn name v front).map (· ++ back)).or ((assignIn name v back).map (front ++ ·)) := by
  induction front with
  | nil => simp [assignIn]
  | cons f rest ih =>
      rw [List.cons_append, assignIn, assignIn, ih]
      split
      · rfl
      · cases assignIn name v rest <;> cases assignIn name v back <;> rfl

/-- An assignment treats the global frame as the last one of the stack. -/
theorem map_frames_assign? (name : String) (v : Value) (σ : Scopes) :
    (σ.assign? name v).map frames = assignIn name v σ.frames := by
  rw [assign?, frames, assignIn_append, assignIn]
  cases assignIn name v σ.locals with
  | some locals => rfl
  | none =>
      cases σ.globals.binds name <;> rfl

/-- An assignment puts its value in the place of the first one in the column of its name. -/
theorem map_column_assign? (name : String) (v : Value) (σ : Scopes) :
    (σ.assign? name v).map (·.column name) = replaceFirst v (σ.column name) := by
  rw [column, ← map_get?_assignIn_self, ← map_frames_assign?, Option.map_map]
  rfl

theorem column_define_self (name : String) (v : Value) (σ : Scopes) :
    (σ.define name v).column name = some v :: (σ.column name).tail := by
  obtain ⟨locals, globals⟩ := σ
  cases locals with
  | nil => exact congrArg (· :: []) (Frame.get?_set_self globals name v)
  | cons f rest => exact congrArg (· :: _) (Frame.get?_set_self f name v)

theorem column_define_of_ne {name : String} (h : x ≠ name) (v : Value) (σ : Scopes) :
    (σ.define name v).column x = σ.column x := by
  obtain ⟨locals, globals⟩ := σ
  cases locals with
  | nil => exact congrArg (· :: []) (Frame.get?_set_of_ne h v globals)
  | cons f rest => exact congrArg (· :: _) (Frame.get?_set_of_ne h v f)

theorem column_enter (name : String) (σ : Scopes) :
    σ.enter.column name = none :: σ.column name := rfl

theorem leave?_of_depth_pos (h : 0 < σ.depth) :
    ∃ τ, σ.leave? = some τ ∧ τ.depth + 1 = σ.depth ∧
      ∀ name, τ.column name = (σ.column name).tail := by
  obtain ⟨locals, globals⟩ := σ
  cases locals with
  | nil => cases h
  | cons f rest => exact ⟨_, rfl, rfl, fun _ => rfl⟩

/-- The scopes have as many frames as each other, which differ in the bindings of `x` at most. -/
structure DifferOnlyIn (x : String) (σ σ' : Scopes) : Prop where
  depth : σ'.depth = σ.depth
  column : ∀ name, name ≠ x → σ'.column name = σ.column name

namespace DifferOnlyIn

theorem get?_eq (h : DifferOnlyIn x σ σ') {name : String} (hname : name ≠ x) :
    σ'.get? name = σ.get? name := by
  rw [get?_eq_findSome?, h.column name hname, get?_eq_findSome?]

theorem define (h : DifferOnlyIn x σ σ') {name : String} (hname : name ≠ x) (v : Value) :
    DifferOnlyIn x (σ.define name v) (σ'.define name v) := by
  refine ⟨by rw [depth_define, depth_define, h.depth], fun y hy => ?_⟩
  by_cases heq : y = name
  · rw [heq, column_define_self, column_define_self, h.column name hname]
  · rw [column_define_of_ne heq, column_define_of_ne heq, h.column y hy]

/-- An assignment to another name succeeds in both or in none. -/
theorem assign? (h : DifferOnlyIn x σ σ') {name : String} (hname : name ≠ x) (v : Value) :
    Option.Rel (DifferOnlyIn x) (σ.assign? name v) (σ'.assign? name v) := by
  have hself := (map_column_assign? name v σ').trans
    ((congrArg (replaceFirst v) (h.column name hname)).trans (map_column_assign? name v σ).symm)
  cases hσ : σ.assign? name v with
  | none =>
      rw [hσ] at hself
      rw [Option.map_eq_none_iff.mp hself]
      exact .none
  | some τ =>
      rw [hσ] at hself
      obtain ⟨τ', hσ', hcolumn⟩ := Option.map_eq_some_iff.mp hself
      rw [hσ']
      refine .some ⟨?_, fun y hy => ?_⟩
      · have hlength := congrArg List.length hcolumn
        rwa [length_column, length_column, Nat.add_right_cancel_iff] at hlength
      · by_cases heq : y = name
        · rw [heq, hcolumn]
        · exact (map_get?_assign? heq hσ').trans
            ((h.column y hy).trans (map_get?_assign? heq hσ).symm)

theorem enter (h : DifferOnlyIn x σ σ') : DifferOnlyIn x σ.enter σ'.enter := by
  refine ⟨congrArg Nat.succ h.depth, fun y hy => ?_⟩
  rw [column_enter, h.column y hy, column_enter]

end DifferOnlyIn

end Scopes

open Scopes (DifferOnlyIn)

section Evaluation

variable {x : String} {σ σ' : Scopes}

theorem lookUp_differOnlyIn {name : Token} (hname : name.lexeme ≠ x) (h : DifferOnlyIn x σ σ') :
    lookUp name σ' = lookUp name σ := by
  rw [lookUp, h.get?_eq hname, lookUp]

theorem assignVariable_differOnlyIn {name : Token} (hname : name.lexeme ≠ x) (v : Value)
    (h : DifferOnlyIn x σ σ') :
    EndsAlike (· = ·) (DifferOnlyIn x) (assignVariable name v σ) (assignVariable name v σ') := by
  have hrel := h.assign? hname v
  unfold assignVariable
  generalize σ.assign? name.lexeme v = r, σ'.assign? name.lexeme v = r' at hrel ⊢
  cases hrel with
  | none => exact .error rfl h
  | some h => exact .ok v h

/-- An expression has the same value or fault in scopes that differ in a name it does not mention,
and leaves scopes that differ in this name only. -/
theorem evaluate_differOnlyIn {e : Expr} (hx : x ∉ e.mentionedNames) (h : DifferOnlyIn x σ σ') :
    EndsAlike (· = ·) (DifferOnlyIn x) (evaluate e σ) (evaluate e σ') := by
  induction e generalizing σ σ' with
  | literal value | missing | foreign typeName => exact endsAlike_eq_iff.mpr ⟨rfl, h⟩
  | grouping inner ih => exact ih hx h
  | «variable» name =>
      have hname : name.lexeme ≠ x := fun heq => hx (heq ▸ List.mem_singleton_self _)
      exact endsAlike_eq_iff.mpr ⟨lookUp_differOnlyIn hname h, h⟩
  | unary op operand ih =>
      have hrun := ih hx h
      simp only [evaluate]
      generalize evaluate operand σ = r, evaluate operand σ' = r' at hrun ⊢
      cases hrun with
      | error hf h => exact .error hf h
      | ok v h => exact endsAlike_eq_iff.mpr ⟨rfl, h⟩
  | binary left op right ihl ihr =>
      simp only [Expr.mentionedNames, List.mem_append, not_or] at hx
      have hleft := ihl hx.1 h
      simp only [evaluate]
      generalize evaluate left σ = r, evaluate left σ' = r' at hleft ⊢
      cases hleft with
      | error hf h => exact .error hf h
      | @ok l τ τ' h =>
          have hright := ihr hx.2 h
          simp only
          generalize evaluate right τ = r, evaluate right τ' = r' at hright ⊢
          cases hright with
          | error hf h => exact .error hf h
          | ok v h => exact endsAlike_eq_iff.mpr ⟨rfl, h⟩
  | logical left op right ihl ihr =>
      simp only [Expr.mentionedNames, List.mem_append, not_or] at hx
      have hleft := ihl hx.1 h
      simp only [evaluate]
      generalize evaluate left σ = r, evaluate left σ' = r' at hleft ⊢
      cases hleft with
      | error hf h => exact .error hf h
      | ok l h =>
          simp only
          split
          · exact .ok l h
          · exact ihr hx.2 h
  | assign name value ih =>
      simp only [Expr.mentionedNames, List.mem_cons, not_or] at hx
      have hrun := ih hx.2 h
      simp only [evaluate]
      generalize evaluate value σ = r, evaluate value σ' = r' at hrun ⊢
      cases hrun with
      | error hf h => exact .error hf h
      | ok v h => exact assignVariable_differOnlyIn (Ne.symm hx.1) v h

end Evaluation

/-- The machines have shown the same, and their scopes differ in `x` only, whose bindings are
`here` in the first and `there` in the second. -/
structure Machine.Apart (x : String) (here there : List (Option Value)) (m m' : Machine) :
    Prop where
  scopes : DifferOnlyIn x m.scopes m'.scopes
  here : m.scopes.column x = here
  there : m'.scopes.column x = there
  output : m'.output = m.output
  log : m'.log = m.log

/-- The runs do the same in machines that are apart, and leave the bindings of `x` in both. -/
def ApartRuns (x : String) {α : Type} (run run' : Run α) : Prop :=
  ∀ here there ⦃m m'⦄, Machine.Apart x here there m m' →
    EndsAlike (· = ·) (Machine.Apart x here there) (run m) (run' m')

section Runs

variable {x : String}

theorem apart_evaluate {e : Expr} (hx : x ∉ e.mentionedNames) :
    ApartRuns x (Machine.evaluate e) (Machine.evaluate e) := by
  intro here there m m' hm
  have hassigned : x ∉ e.assignedNames := fun h => hx (e.assignedNames_subset h)
  obtain ⟨hresult, hscopes⟩ := endsAlike_eq_iff.mp (evaluate_differOnlyIn hx hm.scopes)
  exact endsAlike_eq_iff.mpr ⟨hresult, hscopes,
    (map_get?_evaluate e hassigned m.scopes).trans hm.here,
    (map_get?_evaluate e hassigned m'.scopes).trans hm.there, hm.output, hm.log⟩

theorem apart_printValue (v : Value) : ApartRuns x (printValue v) (printValue v) := by
  intro here there m m' hm
  unfold printValue
  split
  · exact .ok () { hm with output := congrArg (Array.push · _) hm.output }
  · exact .error rfl hm

theorem apart_define {name : String} (hname : name ≠ x) (v : Value) :
    ApartRuns x (fun m => (.ok (), m.define name v)) (fun m => (.ok (), m.define name v)) := by
  intro here there m m' hm
  refine .ok () { hm with scopes := hm.scopes.define hname v, here := ?_, there := ?_ }
  · exact (Scopes.column_define_of_ne (Ne.symm hname) v _).trans hm.here
  · exact (Scopes.column_define_of_ne (Ne.symm hname) v _).trans hm.there

theorem Machine.Apart.enterBlock {here there : List (Option Value)} {m m' : Machine}
    (h : Machine.Apart x here there m m') (size : Nat) :
    Machine.Apart x (none :: here) (none :: there) (m.enterBlock size) (m'.enterBlock size) where
  scopes := h.scopes.enter
  here := congrArg (none :: ·) h.here
  there := congrArg (none :: ·) h.there
  output := h.output
  log := by simp only [Machine.enterBlock, h.log, h.scopes.enter.depth]

theorem Machine.Apart.noteFault {here there : List (Option Value)} {m m' : Machine}
    (h : Machine.Apart x here there m m') (fault : Fault) :
    Machine.Apart x here there (m.noteFault fault) (m'.noteFault fault) := by
  cases fault with
  | crash | exhausted => exact h
  | error _ | defect _ =>
      exact { h with log := by simp only [Machine.noteFault, h.log, h.scopes.depth] }

/-- What a block bound `x` to goes with its frame: nothing. -/
theorem Machine.Apart.leaveBlock {here there : List (Option Value)} {m m' : Machine}
    (h : Machine.Apart x (none :: here) (none :: there) m m') (hdepth : 0 < m.scopes.depth)
    (result : Except Fault Unit) :
    EndsAlike (· = ·) (Machine.Apart x here there) (m.leaveBlock result)
      (m'.leaveBlock result) := by
  obtain ⟨τ, hleave, hτ, hcolumn⟩ := Scopes.leave?_of_depth_pos hdepth
  obtain ⟨τ', hleave', hτ', hcolumn'⟩ := Scopes.leave?_of_depth_pos (h.scopes.depth ▸ hdepth)
  simp only [Machine.leaveBlock, hleave, hleave', endsAlike_eq_iff]
  refine ⟨trivial, ⟨?_, ?_⟩, ?_, ?_, h.output, h.log⟩
  · exact Nat.succ.inj (hτ'.trans (h.scopes.depth.trans hτ.symm))
  · intro name hname
    rw [hcolumn', h.scopes.column name hname, hcolumn]
  · rw [hcolumn, h.here, List.tail_cons]
  · rw [hcolumn', h.there, List.tail_cons]

theorem Machine.Apart.depth_pos {bound : Option Value} {here there : List (Option Value)}
    {m m' : Machine} (h : Machine.Apart x (bound :: here) there m m') (hhere : here ≠ []) :
    0 < m.scopes.depth := by
  have hlength := Scopes.length_column m.scopes x
  rw [h.here, List.length_cons, Nat.add_right_cancel_iff] at hlength
  exact hlength ▸ List.length_pos_iff.mpr hhere

theorem apart_inBlock (size : Nat) {body body' : Run Unit} (h : ApartRuns x body body') :
    ApartRuns x (inBlock size body) (inBlock size body') := by
  intro here there m m' hm
  have hhere : here ≠ [] := by
    rw [← hm.here, ← List.length_pos_iff, Scopes.length_column]
    exact Nat.succ_pos _
  have hbody := h _ _ (hm.enterBlock size)
  unfold inBlock
  generalize body (m.enterBlock size) = r, body' (m'.enterBlock size) = r' at hbody ⊢
  cases hbody with
  | ok _ hm => exact hm.leaveBlock (hm.depth_pos hhere) (.ok ())
  | @error fault _ _ _ hf hm =>
      cases hf
      have hnoted := hm.noteFault fault
      exact hnoted.leaveBlock (hnoted.depth_pos hhere) (.error fault)

mutual

theorem apart_execute (budget : Nat) (s : Stmt) (hx : x ∉ s.mentionedNames) :
    ApartRuns x (execute budget s) (execute budget s) := by
  intro here there
  match s with
  | .expression e =>
      rw [execute_expression]
      exact endsAlike_andThen (apart_evaluate hx here there) fun _ => endsAlike_done
  | .print e =>
      rw [execute_print]
      exact endsAlike_andThen (apart_evaluate hx here there)
        fun v => apart_printValue v here there
  | .declare name e =>
      simp only [Stmt.mentionedNames, List.mem_cons, not_or] at hx
      have hdefine := fun v => apart_define (Ne.symm hx.1) v here there
      rw [execute_declare]
      split
      · exact hdefine .nil
      · exact endsAlike_andThen (apart_evaluate hx.2 here there) hdefine
  | .block body =>
      rw [execute_block]
      exact apart_inBlock _ (apart_executeAll budget body hx) here there
  | .conditional e s t =>
      simp only [Stmt.mentionedNames, List.mem_append, not_or] at hx
      rw [execute_conditional]
      refine endsAlike_andThen (apart_evaluate hx.1 here there) fun v => ?_
      split
      · exact apart_execute budget s hx.2.1 here there
      · exact apart_execute budget t hx.2.2 here there
  | .loop e s =>
      simp only [Stmt.mentionedNames, List.mem_append, not_or] at hx
      rw [execute_loop]
      exact endsAlike_iterate rfl (apart_evaluate hx.1 here there)
        (apart_execute budget s hx.2 here there) budget
  | .missing => exact endsAlike_done
  | .foreign typeName => exact fun _ _ hm => .error rfl hm

theorem apart_executeAll (budget : Nat) (program : List Stmt)
    (hx : x ∉ namesMentionedIn program) :
    ApartRuns x (executeAll budget program) (executeAll budget program) := by
  intro here there
  match program with
  | [] => exact endsAlike_done
  | s :: rest =>
      simp only [namesMentionedIn, List.mem_append, not_or] at hx
      rw [executeAll_cons]
      exact endsAlike_andThen (apart_execute budget s hx.1 here there)
        fun _ => apart_executeAll budget rest hx.2 here there

end

end Runs

/-- The runs, started from `m` and `m'`, end in the same way, have shown the same and leave scopes
that differ in `x` only, each with the bindings of `x` that it found. -/
structure SameButName (x : String) (m m' : Machine) (r r' : Except Fault Unit × Machine) :
    Prop where
  result : r'.1 = r.1
  output : r'.2.output = r.2.output
  log : r'.2.log = r.2.log
  scopes : DifferOnlyIn x r.2.scopes r'.2.scopes
  here : r.2.scopes.column x = m.scopes.column x
  there : r'.2.scopes.column x = m'.scopes.column x

/-- A name that a program does not mention has no part in its run: it changes nothing of what the
program does from scopes that differ in this name only, and no binding of it is changed. -/
theorem unmentioned_name_stays_out {x : String} {program : List Stmt}
    (hx : x ∉ namesMentionedIn program) {m : Machine} {σ' : Scopes}
    (h : DifferOnlyIn x m.scopes σ') (budget : Nat) :
    SameButName x m { m with scopes := σ' } (executeAll budget program m)
      (executeAll budget program { m with scopes := σ' }) := by
  have hstart : Machine.Apart x (m.scopes.column x) (σ'.column x) m { m with scopes := σ' } :=
    ⟨h, rfl, rfl, rfl, rfl⟩
  obtain ⟨hresult, hend⟩ := endsAlike_eq_iff.mp (apart_executeAll budget program hx _ _ hstart)
  exact ⟨hresult, hend.output, hend.log, hend.scopes, hend.here, hend.there⟩

theorem unmentioned_name_stays_out_shadowed :
    ∃ (program : List Stmt) (m : Machine) (σ' : Scopes),
      namesMentionedIn program = ["y", "y"] ∧ DifferOnlyIn "x" m.scopes σ' ∧
      m.scopes.column "x" = [some .nil, none] ∧ σ'.column "x" = [none, some (.bool true)] ∧
      (executeAll 1 program m).2.output = #["false"] ∧
      ∀ budget, SameButName "x" m { m with scopes := σ' } (executeAll budget program m)
        (executeAll budget program { m with scopes := σ' }) := by
  let y : Token := ⟨.identifier, "y", .nil, 1⟩
  have hdiffer : DifferOnlyIn "x" ⟨[⟨[("x", .nil)]⟩], {}⟩ ⟨[{}], ⟨[("x", .bool true)]⟩⟩ := by
    refine ⟨rfl, fun name hname => ?_⟩
    simp [Scopes.column, Scopes.frames, Frame.get?, Frame.find?, Ne.symm hname]
  exact ⟨[.block [.declare y (.literal (.bool false)), .print (.variable y)]],
    { scopes := ⟨[⟨[("x", .nil)]⟩], {}⟩ }, _, rfl, hdiffer, rfl, rfl, rfl,
    unmentioned_name_stays_out (by decide) hdiffer⟩

end Scriptlet
