import Scriptlet.Proofs.RunInvariants

/-!
The names that scopes bind, frame by frame. Evaluating an expression changes values only. A
statement, whatever it is and however it ends, leaves as many frames as it found and binds names
in the innermost one at most, so a block always finds its own frame on top when it ends.
-/

namespace Scriptlet

def Frame.names (f : Frame) : List String := f.bindings.map Prod.fst

namespace Scopes

/-- The names bound by the frames above the global one, the innermost first. -/
def shape (σ : Scopes) : List (List String) := σ.locals.map Frame.names

/-- All frames, the innermost first and the global one last. -/
def frames (σ : Scopes) : List Frame := σ.locals ++ [σ.globals]

/-- The names that each frame binds. -/
def names (σ : Scopes) : List (List String) := σ.frames.map Frame.names

/-- The frame in which a declaration binds its name. -/
def innermost (σ : Scopes) : Frame := σ.locals.headD σ.globals

end Scopes

/-- The names of the declarations in a statement that no block encloses. -/
def Stmt.declaredNames : Stmt → List String
  | .declare name _ => [name.lexeme]
  | .conditional _ consequence alternative =>
    consequence.declaredNames ++ alternative.declaredNames
  | .loop _ body => body.declaredNames
  | .expression _ | .print _ | .block _ | .missing | .foreign _ => []

/-- The names that an expression assigns to. -/
def Expr.assignedNames : Expr → List String
  | .grouping inner => inner.assignedNames
  | .unary _ operand => operand.assignedNames
  | .binary left _ right | .logical left _ right => left.assignedNames ++ right.assignedNames
  | .assign name value => name.lexeme :: value.assignedNames
  | .literal _ | .variable _ | .missing | .foreign _ => []

namespace Frame

variable {f : Frame} {name : String} {v : Value}

theorem find?_isSome_iff {bindings : List (String × Value)} :
    (find? name bindings).isSome = true ↔ name ∈ bindings.map Prod.fst := by
  induction bindings with
  | nil => simp [find?]
  | cons b rest ih =>
      simp only [find?, List.map_cons, List.mem_cons]
      split
      · next hb => simp [hb]
      · next hb => simp [ih, Ne.symm hb]

theorem binds_iff : f.binds name = true ↔ name ∈ f.names :=
  find?_isSome_iff

theorem map_fst_put {bindings : List (String × Value)} :
    (put name v bindings).map Prod.fst =
      if name ∈ bindings.map Prod.fst then bindings.map Prod.fst
      else bindings.map Prod.fst ++ [name] := by
  induction bindings with
  | nil => rfl
  | cons b rest ih =>
      simp only [put]
      split
      · next hb => simp [hb]
      · next hb =>
        simp only [List.map_cons, ih, List.mem_cons, Ne.symm hb, false_or]
        split <;> rfl

theorem names_set :
    (f.set name v).names = if name ∈ f.names then f.names else f.names ++ [name] :=
  map_fst_put

theorem mem_names_set {x : String} : x ∈ (f.set name v).names ↔ x ∈ f.names ∨ x = name := by
  rw [names_set]
  split
  · next hmem =>
    constructor
    · exact .inl
    · intro h
      obtain h | rfl := h
      · exact h
      · exact hmem
  · simp

theorem names_set_of_binds (h : f.binds name = true) : (f.set name v).names = f.names := by
  rw [names_set, if_pos (binds_iff.mp h)]

end Frame

namespace Scopes

variable {σ σ' : Scopes} {name : String} {v : Value}

theorem length_shape : σ.shape.length = σ.depth := List.length_map _

theorem names_eq : σ.names = σ.shape ++ [σ.globals.names] := by
  simp [names, frames, shape]

theorem shape_eq : σ.shape = σ.names.dropLast := by
  rw [names_eq, List.dropLast_concat]

theorem names_eq_cons : σ.names = σ.innermost.names :: σ.names.tail := by
  obtain ⟨locals, globals⟩ := σ
  cases locals <;> rfl

theorem length_names : σ.names.length = σ.depth + 1 := by
  rw [names_eq, List.length_append, length_shape]
  rfl

theorem map_names_assignIn {frames frames' : List Frame}
    (h : assignIn name v frames = some frames') :
    frames'.map Frame.names = frames.map Frame.names := by
  induction frames generalizing frames' with
  | nil => cases h
  | cons f rest ih =>
      simp only [assignIn] at h
      split at h
      · next hb =>
        cases h
        rw [List.map_cons, Frame.names_set_of_binds hb, List.map_cons]
      · obtain ⟨rest', hrest, rfl⟩ := Option.map_eq_some_iff.mp h
        rw [List.map_cons, ih hrest, List.map_cons]

/-- An assignment binds no new name, in no frame. -/
theorem names_assign? (h : σ.assign? name v = some σ') : σ'.names = σ.names := by
  rw [names_eq, names_eq, shape, shape]
  simp only [assign?] at h
  split at h
  · next hlocals =>
    cases h
    rw [map_names_assignIn hlocals]
  · split at h
    · next hb =>
      cases h
      rw [Frame.names_set_of_binds hb]
    · cases h

/-- A name is looked up and assigned in one frame: the one at a place counted from the innermost
frame or, without a place, the global one. -/
def Selects (σ : Scopes) (name : String) : Option Nat → Prop
  | some i => ∃ f v, σ.locals[i]? = some f ∧ f.get? name = some v ∧ σ.get? name = some v ∧
      ∀ w, σ.assign? name w = some { σ with locals := σ.locals.set i (f.set name w) }
  | none => σ.get? name = σ.globals.get? name ∧
      ∀ w, σ.assign? name w =
        if σ.globals.binds name then some { σ with globals := σ.globals.set name w } else none

theorem findIn_of_findIdx? {frames : List Frame} {i : Nat}
    (h : frames.findIdx? (·.binds name) = some i) :
    ∃ f v, frames[i]? = some f ∧ f.get? name = some v ∧ findIn name frames = some v ∧
      ∀ w, assignIn name w frames = some (frames.set i (f.set name w)) := by
  induction frames generalizing i with
  | nil => cases h
  | cons f rest ih =>
      rw [List.findIdx?_cons] at h
      split at h
      · next hb =>
        cases h
        obtain ⟨v, hv⟩ := Option.isSome_iff_exists.mp hb
        exact ⟨f, v, rfl, hv, by simp only [findIn, hv], fun w => by simp only [assignIn, hb]; rfl⟩
      · next hb =>
        obtain ⟨j, hj, rfl⟩ := Option.map_eq_some_iff.mp h
        obtain ⟨g, v, hg, hv, hfind, hassign⟩ := ih hj
        have hnone : f.get? name = none := by simpa [Frame.binds] using hb
        refine ⟨g, v, hg, hv, by simp only [findIn, hnone, hfind], fun w => ?_⟩
        simp only [assignIn, hb, hassign]
        rfl

theorem findIn_of_findIdx?_none {frames : List Frame}
    (h : frames.findIdx? (·.binds name) = none) :
    findIn name frames = none ∧ ∀ w, assignIn name w frames = none := by
  induction frames with
  | nil => exact ⟨rfl, fun _ => rfl⟩
  | cons f rest ih =>
      rw [List.findIdx?_cons] at h
      split at h
      · cases h
      · next hb =>
        obtain ⟨hfind, hassign⟩ := ih (Option.map_eq_none_iff.mp h)
        have hnone : f.get? name = none := by simpa [Frame.binds] using hb
        exact ⟨by simp only [findIn, hnone, hfind], fun w => by simp [assignIn, hb, hassign]⟩

/-- The frame that is selected is the innermost one that binds the name. -/
theorem selects_findIdx? (σ : Scopes) (name : String) :
    σ.Selects name (σ.locals.findIdx? (·.binds name)) := by
  cases h : σ.locals.findIdx? (·.binds name) with
  | none =>
      obtain ⟨hfind, hassign⟩ := findIn_of_findIdx?_none h
      exact ⟨by simp only [get?, hfind], fun w => by simp only [assign?, hassign]⟩
  | some i =>
      obtain ⟨f, v, hf, hv, hfind, hassign⟩ := findIn_of_findIdx? h
      exact ⟨f, v, hf, hv, by simp only [get?, hfind], fun w => by simp only [assign?, hassign]⟩

theorem assign?_eq_none_iff : σ.assign? name v = none ↔ σ.get? name = none := by
  have hselects := σ.selects_findIdx? name
  cases h : σ.locals.findIdx? (·.binds name) with
  | none =>
      rw [h] at hselects
      rw [hselects.2, hselects.1, Frame.binds]
      cases σ.globals.get? name <;> simp
  | some i =>
      rw [h] at hselects
      obtain ⟨f, w, -, -, hget, hassign⟩ := hselects
      rw [hassign, hget]
      simp

theorem names_define_tail : (σ.define name v).names.tail = σ.names.tail := by
  obtain ⟨locals, globals⟩ := σ
  cases locals <;> rfl

theorem depth_define : (σ.define name v).depth = σ.depth := by
  obtain ⟨locals, globals⟩ := σ
  cases locals <;> rfl

theorem innermost_define : (σ.define name v).innermost = σ.innermost.set name v := by
  obtain ⟨locals, globals⟩ := σ
  cases locals <;> rfl

/-- Both have the same frames, of which only the innermost may bind other names. -/
def SameOuter (σ σ' : Scopes) : Prop := σ'.names.tail = σ.names.tail

theorem SameOuter.depth (h : SameOuter σ σ') : σ'.depth = σ.depth := by
  have hlength := congrArg List.length h
  rw [List.length_tail, List.length_tail, length_names, length_names] at hlength
  exact hlength

/-- The frame that a block opened is there to be dropped, and what is left is as it was. -/
theorem SameOuter.leave? (h : SameOuter σ.enter σ') :
    ∃ σ'', σ'.leave? = some σ'' ∧ σ''.globals = σ'.globals ∧ σ''.locals = σ'.locals.tail ∧
      σ''.names = σ.names := by
  have hdepth := h.depth
  obtain ⟨locals, globals⟩ := σ'
  cases locals with
  | nil => cases hdepth
  | cons f rest => exact ⟨⟨rest, globals⟩, rfl, rfl, rfl, h⟩

/-- The innermost frame may have got names behind those that it had, all of them among those
`added`. -/
structure Extends (added : List String) (σ σ' : Scopes) : Prop where
  outer : SameOuter σ σ'
  inner : ∃ new, new ⊆ added ∧ σ'.innermost.names = σ.innermost.names ++ new

namespace Extends

variable {σ'' : Scopes} {added : List String}

theorem of_names_eq (h : σ'.names = σ.names) : Extends added σ σ' := by
  refine ⟨congrArg List.tail h, [], List.nil_subset _, ?_⟩
  rw [names_eq_cons, names_eq_cons (σ := σ)] at h
  rw [(List.cons.inj h).1, List.append_nil]

theorem refl (σ : Scopes) : Extends added σ σ := .of_names_eq rfl

theorem trans (h : Extends added σ σ') (h' : Extends added σ' σ'') : Extends added σ σ'' := by
  obtain ⟨new, hnew, hinner⟩ := h.inner
  obtain ⟨new', hnew', hinner'⟩ := h'.inner
  refine ⟨h'.outer.trans h.outer, new ++ new', List.append_subset.mpr ⟨hnew, hnew'⟩, ?_⟩
  rw [hinner', hinner, List.append_assoc]

theorem define (hname : name ∈ added) (σ : Scopes) (v : Value) :
    Extends added σ (σ.define name v) := by
  refine ⟨names_define_tail, ?_⟩
  rw [innermost_define, Frame.names_set]
  split
  · exact ⟨[], List.nil_subset _, (List.append_nil _).symm⟩
  · exact ⟨[name], List.cons_subset.mpr ⟨hname, List.nil_subset _⟩, rfl⟩

/-- Where no names may be added, none are. -/
theorem names_eq (h : Extends [] σ σ') : σ'.names = σ.names := by
  obtain ⟨new, hnew, hinner⟩ := h.inner
  rw [names_eq_cons, hinner, List.subset_nil.mp hnew, List.append_nil, h.outer, ← names_eq_cons]

end Extends

end Scopes

/-- Evaluation changes the scopes only by the assignments in the expression. -/
theorem evaluate_keeps {β : Type} (f : Scopes → β) {e : Expr}
    (h : ∀ (name : Token) (v : Value) (σ : Scopes), name.lexeme ∈ e.assignedNames →
      f (assignVariable name v σ).2 = f σ) (σ : Scopes) : f (evaluate e σ).2 = f σ := by
  induction e generalizing σ with
  | literal value | «variable» name | missing | foreign typeName => rfl
  | grouping inner ih => exact ih h σ
  | unary op operand ih =>
      have hv := ih h σ
      simp only [evaluate]
      split <;> next heq => rwa [heq] at hv
  | binary left op right ihl ihr =>
      have hl := ihl (fun name v σ hname => h name v σ (List.mem_append_left _ hname)) σ
      have hright := ihr fun name v σ hname => h name v σ (List.mem_append_right _ hname)
      simp only [evaluate]
      split
      · next heq => rwa [heq] at hl
      · next σ' heq =>
        rw [heq] at hl
        have hr := hright σ'
        split <;>
          next heq =>
            rw [heq] at hr
            exact hr.trans hl
  | logical left op right ihl ihr =>
      have hl := ihl (fun name v σ hname => h name v σ (List.mem_append_left _ hname)) σ
      have hright := ihr fun name v σ hname => h name v σ (List.mem_append_right _ hname)
      simp only [evaluate]
      split
      · next heq => rwa [heq] at hl
      · next σ' heq =>
        rw [heq] at hl
        split
        · exact hl
        · exact (hright σ').trans hl
  | assign name value ih =>
      have hv := ih (fun name v σ hname => h name v σ (List.mem_cons_of_mem _ hname)) σ
      simp only [evaluate]
      split
      · next heq => rwa [heq] at hv
      · next v σ' heq =>
        rw [heq] at hv
        exact (h name v σ' List.mem_cons_self).trans hv

theorem names_evaluate (e : Expr) (σ : Scopes) : (evaluate e σ).2.names = σ.names := by
  apply evaluate_keeps Scopes.names
  intro name v σ _
  unfold assignVariable
  split
  · next h => exact Scopes.names_assign? h
  · rfl

theorem shape_evaluate (e : Expr) (σ : Scopes) : (evaluate e σ).2.shape = σ.shape := by
  rw [Scopes.shape_eq, names_evaluate, ← Scopes.shape_eq]

theorem depth_evaluate (e : Expr) (σ : Scopes) : (evaluate e σ).2.depth = σ.depth := by
  rw [← Scopes.length_shape, shape_evaluate, Scopes.length_shape]

/-! Runs of statements. -/

open Scopes (SameOuter Extends)

/-- The frames of a run, told by the scopes that the innermost block started from and by the names
that it may declare. -/
def Invariant.declarations : Invariant where
  Place := Scopes × List String
  scopes p σ := Extends p.2 p.1 σ
  value _ := True
  fault _ := True
  expr _ := True
  stmt p s := s.declaredNames ⊆ p.2
  evaluate := by
    intro p e σ _ hσ
    refine ⟨?_, hσ.trans (.of_names_eq (names_evaluate e σ))⟩
    cases (Scriptlet.evaluate e σ).1 <;> trivial
  nil := trivial
  crash := id
  exhausted := trivial
  expression := fun _ => trivial
  print := fun _ => trivial
  declare := fun _ _ => trivial
  define := by
    intro p name e σ v hs hσ _
    exact hσ.trans (.define (List.cons_subset.mp hs).1 σ v)
  block := by
    intro p body σ _ hσ
    refine ⟨(σ.enter, body.flatMap Stmt.declaredNames), ?_, .refl _, fun σ' hσ' => ?_⟩
    · intro s hs x hx
      exact List.mem_flatMap.mpr ⟨s, hs, hx⟩
    · obtain ⟨σ'', hleave, -, -, hnames⟩ := hσ'.outer.leave?
      exact ⟨σ'', hleave, hσ.trans (.of_names_eq hnames)⟩
  conditional := fun hs => ⟨trivial, List.append_subset.mp hs⟩
  loop := fun hs => ⟨trivial, hs⟩
  foreign := fun _ => trivial

/-- Whatever the statement and however its run ends, it adds to the innermost frame no names but
those that it declares outside its blocks. -/
theorem extends_execute (budget : Nat) (s : Stmt) (m : Machine) :
    Extends s.declaredNames m.scopes (execute budget s m).2.scopes := by
  have hkeeps := Invariant.keeps_execute (I := .declarations) budget s
    (p := (m.scopes, s.declaredNames)) (List.Subset.refl _)
  exact (hkeeps m (.refl _)).2

theorem execute_sameOuter (budget : Nat) (s : Stmt) (m : Machine) :
    SameOuter m.scopes (execute budget s m).2.scopes :=
  (extends_execute budget s m).outer

theorem executeAll_sameOuter (budget : Nat) (program : List Stmt) (m : Machine) :
    SameOuter m.scopes (executeAll budget program m).2.scopes := by
  have hkeeps := Invariant.keeps_executeAll (I := .declarations) budget program
    (p := (m.scopes, program.flatMap Stmt.declaredNames))
    fun s hs x hx => List.mem_flatMap.mpr ⟨s, hs, hx⟩
  exact (hkeeps m (.refl _)).2.outer

/-- A block ends as its body does, in the frames that it started from. -/
theorem inBlock_eq {size : Nat} {body : Run Unit} {m m' : Machine} {result : Except Fault Unit}
    (hbody : body (m.enterBlock size) = (result, m'))
    (h : SameOuter m.scopes.enter m'.scopes) :
    ∃ m'', inBlock size body m = (result, m'') ∧
      m''.scopes = ⟨m'.scopes.locals.tail, m'.scopes.globals⟩ := by
  obtain ⟨σ, hleave, hglobals, hlocals, -⟩ := h.leave?
  have hσ : σ = ⟨m'.scopes.locals.tail, m'.scopes.globals⟩ := by rw [← hlocals, ← hglobals]
  cases result with
  | ok u =>
      refine ⟨{ m' with scopes := σ }, ?_, hσ⟩
      simp [inBlock, hbody, Machine.leaveBlock, hleave]
  | error fault =>
      refine ⟨{ m'.noteFault fault with scopes := σ }, ?_, hσ⟩
      simp [inBlock, hbody, Machine.leaveBlock, hleave]

end Scriptlet
