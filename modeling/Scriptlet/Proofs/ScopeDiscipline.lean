import Scriptlet.Proofs.BlockEvents
import Scriptlet.Proofs.WellFormedTrees

/-!
What runs do to the frames they find, whatever the tree and however the run ends. A statement
leaves all frames in place and adds to the innermost one no names but those that it declares
outside its blocks; an expression binds no name at all and changes the value of no name that it
does not assign.
-/

namespace Scriptlet

theorem Frame.find?_put_of_ne {x name : String} (h : x ≠ name) (v : Value)
    (bindings : List (String × Value)) :
    find? x (put name v bindings) = find? x bindings := by
  induction bindings with
  | nil => simp [put, find?, Ne.symm h]
  | cons b rest ih =>
      simp only [put]
      split
      · next hb => simp [find?, hb, Ne.symm h]
      · simp only [find?, ih]

theorem Frame.get?_set_of_ne {x name : String} (h : x ≠ name) (v : Value) (f : Frame) :
    (f.set name v).get? x = f.get? x :=
  find?_put_of_ne h v f.bindings

namespace Scopes

variable {σ σ' : Scopes} {added : List String}

theorem length_frames : σ.frames.length = σ.depth + 1 := by
  simp [frames, depth]

/-- Both have the same frames and bind the same names in all but the innermost one, which has lost
none and gained only some of those `added`. -/
structure Gains (added : List String) (σ σ' : Scopes) : Prop where
  length : σ'.frames.length = σ.frames.length
  outer : σ'.names.tail = σ.names.tail
  kept : ∀ x ∈ σ.innermost.names, x ∈ σ'.innermost.names
  gained : ∀ x ∈ σ'.innermost.names, x ∈ σ.innermost.names ∨ x ∈ added

theorem Extends.gains (h : Extends added σ σ') : Gains added σ σ' := by
  obtain ⟨new, hnew, hinner⟩ := h.inner
  refine ⟨?_, h.outer, fun x hx => ?_, fun x hx => ?_⟩
  · rw [length_frames, length_frames, h.outer.depth]
  · rw [hinner]
    exact List.mem_append_left new hx
  · rw [hinner, List.mem_append] at hx
    exact hx.imp_right (hnew ·)

theorem map_get?_assignIn {x name : String} (hx : x ≠ name) {v : Value}
    {frames frames' : List Frame} (h : assignIn name v frames = some frames') :
    frames'.map (·.get? x) = frames.map (·.get? x) := by
  induction frames generalizing frames' with
  | nil => cases h
  | cons f rest ih =>
      simp only [assignIn] at h
      split at h
      · cases h
        rw [List.map_cons, Frame.get?_set_of_ne hx, List.map_cons]
      · obtain ⟨rest', hrest, rfl⟩ := Option.map_eq_some_iff.mp h
        rw [List.map_cons, ih hrest, List.map_cons]

/-- An assignment changes the value of no other name. -/
theorem map_get?_assign? {x name : String} (hx : x ≠ name) {v : Value}
    (h : σ.assign? name v = some σ') :
    σ'.frames.map (·.get? x) = σ.frames.map (·.get? x) := by
  simp only [assign?] at h
  split at h
  · next hlocals =>
    cases h
    simp only [frames, List.map_append, map_get?_assignIn hx hlocals]
  · split at h
    · cases h
      simp only [frames, List.map_append, List.map_cons, Frame.get?_set_of_ne hx]
    · cases h

end Scopes

theorem map_get?_assignVariable {x : String} {name : Token} (hx : x ≠ name.lexeme) (v : Value)
    (σ : Scopes) :
    (assignVariable name v σ).2.frames.map (·.get? x) = σ.frames.map (·.get? x) := by
  unfold assignVariable
  split
  · next h => exact Scopes.map_get?_assign? hx h
  · rfl

/-- A name that an expression does not assign has the same value afterwards, in every frame. -/
theorem map_get?_evaluate {x : String} (e : Expr) (hx : x ∉ e.assignedNames) (σ : Scopes) :
    (evaluate e σ).2.frames.map (·.get? x) = σ.frames.map (·.get? x) := by
  apply evaluate_keeps (fun σ => σ.frames.map (·.get? x))
  intro name v σ hname
  have hne : x ≠ name.lexeme := fun heq => hx (heq ▸ hname)
  exact map_get?_assignVariable hne v σ

section Trees

variable {T : Token → Prop}

/-- In a well-formed tree, all declarations that no block encloses are bare ones. -/
theorem Stmt.declaredNames_eq_nil (s : Stmt) (h : s = .missing ∨ s.WellFormed T)
    (hd : s.isDeclaration = false) : s.declaredNames = [] := by
  match s, h with
  | .expression _, _ | .print _, _ | .block _, _ | .missing, _ | .foreign _, _ => rfl
  | .declare _ _, _ => cases hd
  | .conditional _ s t, .inr ⟨_, ⟨hs, hsw⟩, ht⟩ =>
      rw [declaredNames, s.declaredNames_eq_nil (.inr hsw) hs, List.nil_append]
      obtain rfl | ⟨ht, htw⟩ := ht
      · rfl
      · exact t.declaredNames_eq_nil (.inr htw) ht
  | .loop _ s, .inr ⟨_, hs, hsw⟩ => exact s.declaredNames_eq_nil (.inr hsw) hs

/-- A statement other than a declaration binds no name in the scopes around it. -/
theorem shape_execute (budget : Nat) (s : Stmt) (h : s.IsBranch T) (m : Machine) :
    (execute budget s m).2.scopes.shape = m.scopes.shape := by
  have hextends := extends_execute budget s m
  rw [s.declaredNames_eq_nil (.inr h.2) h.1] at hextends
  rw [Scopes.shape_eq, hextends.names_eq, ← Scopes.shape_eq]

end Trees

open Scopes (Gains)

/-- Whatever the statement and however its run ends, it leaves the frames that it found, drops none
of them on the way, and binds in the innermost one at most the names that it declares outside its
blocks. An expression binds nothing and changes values of names that it assigns only. -/
theorem scopes_kept_on_every_exit (budget : Nat) :
    (∀ (s : Stmt) (m : Machine),
      Gains s.declaredNames m.scopes (execute budget s m).2.scopes ∧
        Logs (s.blockEvents budget m) m (execute budget s m).2 ∧
        Nested m.scopes.depth (s.blockEvents budget m) ∧
        ∀ k result, .leave k result ∈ s.blockEvents budget m → m.scopes.depth < k) ∧
    ∀ (e : Expr) (σ : Scopes),
      (evaluate e σ).2.names = σ.names ∧
        ∀ x ∉ e.assignedNames,
          (evaluate e σ).2.frames.map (·.get? x) = σ.frames.map (·.get? x) := by
  constructor
  · intro s m
    have hrecords := records_execute budget s m
    have hnested := hrecords.recorded.nested
    exact ⟨(extends_execute budget s m).gains, hrecords.logs, hnested,
      fun _ _ => hnested.lt_of_leave_mem⟩
  · intro e σ
    exact ⟨names_evaluate e σ, fun _ hx => map_get?_evaluate e hx σ⟩

end Scriptlet
