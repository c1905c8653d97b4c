import Mathlib.Data.List.Forall2
import Scriptlet.Proofs.ScopeDiscipline
import Scriptlet.Proofs.SessionSafety

/-!
Scoping is lexical: the frame in which a name is found while a program runs is the one that the
text of the program tells. It is carried by one invariant: each frame binds the names that its
block has declared so far.
-/

namespace Scriptlet

open List (Forall₂)

def Stmt.declares (name : String) : Stmt → Bool
  | .declare n _ => n.lexeme = name
  | _ => false

/-- The innermost block around a place, counted from the inside, that declares the name in front of
the place. -/
def Position.resolve (name : String) (Γ : Position) : Option Nat :=
  Γ.findIdx? fun front => front.any (Stmt.declares name)

/-- The frames bind exactly the names that the blocks around a place have declared in front of
it. -/
def Fits (shape : List (List String)) (Γ : Position) : Prop :=
  Forall₂ (fun names front => ∀ x, x ∈ names ↔ front.any (Stmt.declares x) = true) shape Γ

namespace Fits

variable {σ : Scopes} {shape : List (List String)} {Γ : Position}

theorem depth_eq (h : Fits σ.shape Γ) : σ.depth = Γ.length := by
  rw [← Scopes.length_shape, h.length_eq]

/-- The innermost frame that binds a name is that of the innermost block that declares it. -/
theorem findIdx?_eq (h : Fits σ.shape Γ) (name : String) :
    σ.locals.findIdx? (·.binds name) = Γ.resolve name := by
  obtain ⟨locals, globals⟩ := σ
  induction locals generalizing Γ with
  | nil =>
      cases h
      rfl
  | cons f rest ih =>
      cases h with
      | @cons _ front _ outer hf hrest =>
          have hb : f.binds name = front.any (Stmt.declares name) := by
            rw [Bool.eq_iff_iff, Frame.binds_iff]
            exact hf name
          have hrest := ih hrest
          simp only [Position.resolve, List.findIdx?_cons, hb] at hrest ⊢
          rw [hrest]

theorem enter (h : Fits shape Γ) : Fits ([] :: shape) ([] :: Γ) :=
  .cons (fun x => by simp) h

theorem pass_of_isDeclaration {s : Stmt} (hs : s.isDeclaration = false) (h : Fits shape Γ) :
    Fits shape (Γ.pass s) := by
  cases h with
  | nil => exact .nil
  | cons hf hrest =>
      have hs : ∀ x, s.declares x = false := by
        cases s with
        | declare name e => cases hs
        | _ => exact fun _ => rfl
      refine .cons (fun x => ?_) hrest
      simp [hf x, hs x]

theorem pass_declare {name : Token} {e : Expr} {v : Value} (h : Fits σ.shape Γ) :
    Fits (σ.define name.lexeme v).shape (Γ.pass (.declare name e)) := by
  obtain ⟨locals, globals⟩ := σ
  cases locals with
  | nil =>
      cases h
      exact .nil
  | cons f rest =>
      cases h with
      | cons hf hrest =>
          refine .cons (fun x => ?_) hrest
          rw [Frame.mem_names_set, hf x, @eq_comm _ x]
          simp [Stmt.declares]

end Fits

section Execution

variable {T : Token → Prop}

/-- Behind a statement the frames fit the position behind it. -/
theorem fits_execute {budget : Nat} {s : Stmt} (h : s.WellFormed T) {Γ : Position}
    {m m' : Machine} (hm : Fits m.scopes.shape Γ) (hrun : execute budget s m = (.ok (), m')) :
    Fits m'.scopes.shape (Γ.pass s) := by
  cases hs : s.isDeclaration with
  | false =>
      have hshape := shape_execute budget s ⟨hs, h⟩ m
      rw [hrun] at hshape
      exact .pass_of_isDeclaration hs (hshape ▸ hm)
  | true =>
      cases s with
      | declare name e =>
          have he : (m.evaluate e).2.scopes.shape = m.scopes.shape := shape_evaluate e m.scopes
          simp only [execute] at hrun
          split at hrun
          · cases hrun
            exact hm.pass_declare
          · split at hrun
            · cases hrun
            · next heq =>
              cases hrun
              rw [heq] at he
              exact Fits.pass_declare (he ▸ hm)
      | _ => cases hs

/-- At each visit the frames fit the position of the occurrence. -/
def AllFit (visits : List Visit) : Prop := ∀ v ∈ visits, Fits v.scopes.shape v.position

theorem AllFit.nil : AllFit [] := List.forall_mem_nil _

theorem AllFit.append {visits later : List Visit} (h : AllFit visits) (h' : AllFit later) :
    AllFit (visits ++ later) :=
  List.forall_mem_append.mpr ⟨h, h'⟩

theorem AllFit.afterwards {α S : Type} {next : α → S → List Visit} {r : Except Fault α × S}
    (h : ∀ a s, r = (.ok a, s) → AllFit (next a s)) : AllFit (afterwards next r) := by
  obtain ⟨result, s⟩ := r
  cases result with
  | ok a => exact h a s rfl
  | error fault => exact .nil

theorem allFit_evaluate {Γ : Position} (e : Expr) {σ : Scopes} (h : Fits σ.shape Γ) :
    AllFit (e.visits Γ σ) := by
  induction e generalizing σ with
  | literal value | missing | foreign typeName => exact .nil
  | grouping inner ih => exact ih h
  | unary op operand ih => exact ih h
  | «variable» name => exact List.forall_mem_singleton.mpr h
  | binary left op right ihl ihr =>
      refine (ihl h).append (.afterwards fun l σ' heq => ?_)
      have hshape := shape_evaluate left σ
      rw [heq] at hshape
      exact ihr (hshape ▸ h)
  | logical left op right ihl ihr =>
      refine (ihl h).append (.afterwards fun l σ' heq => ?_)
      have hshape := shape_evaluate left σ
      rw [heq] at hshape
      split
      · exact .nil
      · exact ihr (hshape ▸ h)
  | assign name value ih =>
      refine (ih h).append (.afterwards fun v σ' heq => ?_)
      have hshape := shape_evaluate value σ
      rw [heq] at hshape
      exact List.forall_mem_singleton.mpr (hshape ▸ h)

theorem allFit_iterate {condition : Run Value} {body : Run Unit}
    {atCondition atBody : Machine → List Visit} {Γ : Position}
    (hc : ∀ m, (condition m).2.scopes.shape = m.scopes.shape)
    (hb : ∀ m, (body m).2.scopes.shape = m.scopes.shape)
    (hc' : ∀ m, Fits m.scopes.shape Γ → AllFit (atCondition m))
    (hb' : ∀ m, Fits m.scopes.shape Γ → AllFit (atBody m)) (budget : Nat) {m : Machine}
    (hm : Fits m.scopes.shape Γ) :
    AllFit (iterateVisits condition body atCondition atBody budget m) := by
  induction budget generalizing m with
  | zero => exact .nil
  | succ budget ih =>
      refine (hc' m hm).append (.afterwards fun v m₁ hcondition => ?_)
      have hm₁ := hc m
      rw [hcondition] at hm₁
      split
      · refine (hb' m₁ (hm₁ ▸ hm)).append (.afterwards fun _ m₂ hbody => ?_)
        have hm₂ := hb m₁
        rw [hbody] at hm₂
        exact ih (hm₂ ▸ hm₁ ▸ hm)
      · exact .nil

mutual

theorem allFit_execute (budget : Nat) {Γ : Position} (s : Stmt) (h : s = .missing ∨ s.WellFormed T)
    {m : Machine} (hm : Fits m.scopes.shape Γ) : AllFit (s.visits budget Γ m) := by
  match s with
  | .expression e => exact allFit_evaluate e hm
  | .print e => exact allFit_evaluate e hm
  | .declare name e => exact allFit_evaluate e hm
  | .block body =>
      obtain h | h := h
      · cases h
      exact allFit_executeAll budget body h hm.enter
  | .conditional e s t =>
      obtain h | ⟨-, ⟨-, hs⟩, ht⟩ := h
      · cases h
      have ht : t = .missing ∨ t.WellFormed T := ht.imp id And.right
      refine (allFit_evaluate e hm).append (.afterwards fun v m' heq => ?_)
      have hshape : (m.evaluate e).2.scopes.shape = m.scopes.shape := shape_evaluate e m.scopes
      rw [heq] at hshape
      split
      · exact allFit_execute budget s (.inr hs) (hshape ▸ hm)
      · exact allFit_execute budget t ht (hshape ▸ hm)
  | .loop e s =>
      obtain h | ⟨-, hs⟩ := h
      · cases h
      exact allFit_iterate (fun m => shape_evaluate e m.scopes) (shape_execute budget s hs)
        (fun _ hm => allFit_evaluate e hm)
        (fun _ hm => allFit_execute budget s (.inr hs.2) hm) budget hm
  | .missing => exact .nil
  | .foreign typeName => exact .nil

theorem allFit_executeAll (budget : Nat) {Γ : Position} (program : List Stmt)
    (h : WellFormedProgram T program) {m : Machine} (hm : Fits m.scopes.shape Γ) :
    AllFit (programVisits budget Γ program m) := by
  match program with
  | [] => exact .nil
  | s :: rest =>
      refine (allFit_execute budget s (.inr h.1) hm).append (.afterwards fun _ m' heq => ?_)
      exact allFit_executeAll budget rest h.2 (fits_execute h.1 hm heq)

end

end Execution

/-- What lookup finds at an occurrence is what the position of the occurrence tells. -/
structure Visit.IsLexical (v : Visit) : Prop where
  /-- There is one frame for each block around the occurrence. -/
  depth : v.scopes.depth = v.position.length
  /-- The frame selected is that of the innermost block that has declared the name. -/
  selects : v.scopes.Selects v.name.lexeme (v.position.resolve v.name.lexeme)
  /-- Only a name that no block has declared can be unbound. -/
  unbound : v.isUnbound = true ↔
    v.position.resolve v.name.lexeme = none ∧ v.scopes.globals.binds v.name.lexeme = false

theorem Visit.isLexical_of_fits {v : Visit} (h : Fits v.scopes.shape v.position) :
    v.IsLexical := by
  have hselects := v.scopes.selects_findIdx? v.name.lexeme
  rw [h.findIdx?_eq] at hselects
  refine ⟨h.depth_eq, hselects, ?_⟩
  cases hplace : v.position.resolve v.name.lexeme with
  | none =>
      rw [hplace] at hselects
      simp [Visit.isUnbound, hselects.1, Frame.binds]
  | some i =>
      rw [hplace] at hselects
      obtain ⟨f, w, -, -, hget, -⟩ := hselects
      simp [Visit.isUnbound, hget]

theorem undefinedName?_eq_some_iff {α : Type} {result : Except Fault α} {name : Token} :
    undefinedName? result = some name ↔ result = .error (.error ⟨name, .undefinedVariable⟩) := by
  unfold undefinedName?
  cases result with
  | ok a => simp
  | error fault =>
      simp only [Except.error.injEq]
      unfold Fault.undefinedName?
      split
      · simp
      · next hfault =>
        constructor
        · intro h
          cases h
        · intro h
          exact (hfault name h).elim

/-- Wherever a run of a source text looks up or assigns a name, it does so in the frame that the
position of the name in the program tells, and it fails with an undefined variable exactly where a
name that is declared in no block around it is not global either. -/
theorem scoping_is_lexical (budget : Nat) (source : List Char) (globals : Frame) :
    (∀ v ∈ programVisits budget [] (parse (scan source).tokens).program { scopes := { globals } },
      v.IsLexical) ∧
    ∀ name : Token,
      (executeAll budget (parse (scan source).tokens).program { scopes := { globals } }).1 =
          .error (.error ⟨name, .undefinedVariable⟩) ↔
        ∃ v, (programVisits budget [] (parse (scan source).tokens).program
            { scopes := { globals } }).find? Visit.isUnbound = some v ∧ v.name = name := by
  have hfit := allFit_executeAll budget (Γ := []) _ (wellFormed_parse_scan source)
    (m := { scopes := { globals } }) .nil
  have hexplains := explains_executeAll budget [] (parse (scan source).tokens).program
    { scopes := { globals } }
  constructor
  · exact fun v hv => Visit.isLexical_of_fits (hfit v hv)
  · intro name
    rw [← undefinedName?_eq_some_iff, hexplains, Option.map_eq_some_iff]

end Scriptlet
