import Scriptlet.Proofs.ScannedTokens
import Scriptlet.Proofs.ScopeShape
import Scriptlet.Proofs.WellFormedTrees

/-!
Running well-formed trees. A run never stops with a defect: it ends normally, with a runtime error
at one of the operators or names of the tree, or because a loop used up its budget. It crashes only
where it comes upon an absent value, and no run makes one. Where all values that variables hold are
values of the language, they stay so.
-/

namespace Scriptlet

/-- The value is one of the language: nil, a truth value, a number or a string. -/
def Value.IsPresent (v : Value) : Prop := v ≠ .absent

/-- All values in the frame satisfy `V`. -/
def Frame.Holds (V : Value → Prop) (f : Frame) : Prop := ∀ b ∈ f.bindings, V b.2

structure Scopes.Holds (V : Value → Prop) (σ : Scopes) : Prop where
  locals : ∀ f ∈ σ.locals, f.Holds V
  globals : σ.globals.Holds V

/-- Variables hold values of the language only. -/
abbrev Scopes.Present (σ : Scopes) : Prop := σ.Holds Value.IsPresent

section Values

variable {V : Value → Prop} {name : String} {v : Value}

namespace Frame

theorem find?_holds {bindings : List (String × Value)} (h : ∀ b ∈ bindings, V b.2)
    (hv : find? name bindings = some v) : V v := by
  induction bindings with
  | nil => cases hv
  | cons b rest ih =>
      obtain ⟨hb, hrest⟩ := List.forall_mem_cons.mp h
      simp only [find?] at hv
      split at hv
      · cases hv
        exact hb
      · exact ih hrest hv

theorem put_holds {bindings : List (String × Value)} (h : ∀ b ∈ bindings, V b.2) (hv : V v) :
    ∀ b ∈ put name v bindings, V b.2 := by
  induction bindings with
  | nil => exact List.forall_mem_singleton.mpr hv
  | cons b rest ih =>
      obtain ⟨hb, hrest⟩ := List.forall_mem_cons.mp h
      simp only [put]
      split
      · exact List.forall_mem_cons.mpr ⟨hv, hrest⟩
      · exact List.forall_mem_cons.mpr ⟨hb, ih hrest⟩

theorem Holds.set {f : Frame} (h : f.Holds V) (hv : V v) : (f.set name v).Holds V :=
  put_holds h hv

end Frame

namespace Scopes

variable {σ : Scopes}

theorem findIn_holds {frames : List Frame} (h : ∀ f ∈ frames, f.Holds V)
    (hv : findIn name frames = some v) : V v := by
  induction frames with
  | nil => cases hv
  | cons f rest ih =>
      obtain ⟨hf, hrest⟩ := List.forall_mem_cons.mp h
      simp only [findIn] at hv
      split at hv
      · next hget =>
        cases hv
        exact Frame.find?_holds hf hget
      · exact ih hrest hv

theorem assignIn_holds {frames frames' : List Frame} (h : ∀ f ∈ frames, f.Holds V) (hv : V v)
    (ha : assignIn name v frames = some frames') : ∀ f ∈ frames', f.Holds V := by
  induction frames generalizing frames' with
  | nil => cases ha
  | cons f rest ih =>
      obtain ⟨hf, hrest⟩ := List.forall_mem_cons.mp h
      simp only [assignIn] at ha
      split at ha
      · cases ha
        exact List.forall_mem_cons.mpr ⟨hf.set hv, hrest⟩
      · obtain ⟨rest', hr, rfl⟩ := Option.map_eq_some_iff.mp ha
        exact List.forall_mem_cons.mpr ⟨hf, ih hrest hr⟩

namespace Holds

theorem get? (h : σ.Holds V) (hv : σ.get? name = some v) : V v := by
  simp only [Scopes.get?] at hv
  split at hv
  · next hfind =>
    cases hv
    exact findIn_holds h.locals hfind
  · exact Frame.find?_holds h.globals hv

theorem define (h : σ.Holds V) (hv : V v) : (σ.define name v).Holds V := by
  obtain ⟨locals, globals⟩ := σ
  cases locals with
  | nil => exact ⟨h.locals, h.globals.set hv⟩
  | cons f rest =>
      obtain ⟨hf, hrest⟩ := List.forall_mem_cons.mp h.locals
      exact ⟨List.forall_mem_cons.mpr ⟨hf.set hv, hrest⟩, h.globals⟩

theorem assign? {σ' : Scopes} (h : σ.Holds V) (hv : V v) (ha : σ.assign? name v = some σ') :
    σ'.Holds V := by
  simp only [Scopes.assign?] at ha
  split at ha
  · next hassign =>
    cases ha
    exact ⟨assignIn_holds h.locals hv hassign, h.globals⟩
  · split at ha
    · cases ha
      exact ⟨h.locals, h.globals.set hv⟩
    · cases ha

theorem enter (h : σ.Holds V) : σ.enter.Holds V :=
  ⟨List.forall_mem_cons.mpr ⟨List.forall_mem_nil _, h.locals⟩, h.globals⟩

theorem leave? {depth : Nat} (h : σ.Holds V) (hdepth : σ.depth = depth + 1) :
    ∃ σ', σ.leave? = some σ' ∧ σ'.depth = depth ∧ σ'.Holds V := by
  obtain ⟨locals, globals⟩ := σ
  cases locals with
  | nil => cases hdepth
  | cons f rest =>
      exact ⟨⟨rest, globals⟩, rfl, Nat.succ.inj hdepth, (List.forall_mem_cons.mp h.locals).2,
        h.globals⟩

end Holds

end Scopes

end Values

/-- The operators that refuse operands of a wrong kind. -/
def checksOperands : TokenKind → Bool
  | .minus | .plus | .slash | .star | .greater | .greaterEqual | .less | .lessEqual => true
  | _ => false

/-- A type error at an operator or an undefined variable at a name, each of them in `T`. -/
def RuntimeError.RaisedAt (T : Token → Prop) (e : RuntimeError) : Prop :=
  T e.token ∧
    match e.kind with
    | .typeError => checksOperands e.token.kind = true
    | .undefinedVariable => e.token.kind = .identifier

/-- The faults that a run of a well-formed tree may end with, if its values satisfy `V`. -/
def Fault.Arises (T : Token → Prop) (V : Value → Prop) : Fault → Prop
  | .error e => e.RaisedAt T
  | .exhausted => True
  | .crash => V .absent
  | .defect _ => False

section Evaluation

variable {T : Token → Prop} {V : Value → Prop}

theorem Literal.ComesFrom.yields_value (hT : ∀ t, T t → t.LiteralFits) {l : Literal}
    (h : l.ComesFrom T) : Yields (Fault.Arises T V) Value.IsPresent l.value := by
  cases h with
  | nil => exact Value.noConfusion
  | bool b => exact Value.noConfusion
  | token ht hk =>
      have hfits := hT _ ht
      obtain hk | hk := hk <;> simp only [Token.LiteralFits, hk] at hfits <;>
        obtain ⟨x, hx⟩ := hfits <;> rw [hx] <;> exact Value.noConfusion

theorem yields_applyUnary {op : Token} (hop : op.kind = .bang ∨ op.kind = .minus) (ht : T op)
    (v : Value) : Yields (Fault.Arises T V) Value.IsPresent (applyUnary op v) := by
  obtain hk | hk := hop <;> simp only [applyUnary, hk]
  · exact Value.noConfusion
  · split
    · exact Value.noConfusion
    · exact ⟨ht, by rw [hk]; rfl⟩

theorem yields_arithmetic {k : TokenKind} (h : checksOperands k = true) (hk : k ≠ .plus)
    (x y : Float) : Yields (Fault.Arises T V) Value.IsPresent (arithmetic k x y) := by
  unfold arithmetic
  split
  case h_8 => simp_all [checksOperands]
  all_goals exact Value.noConfusion

theorem yields_applyBinary {op : Token} (hop : isBinaryOperator op.kind = true) (ht : T op)
    (l r : Value) : Yields (Fault.Arises T V) Value.IsPresent (applyBinary op l r) := by
  unfold applyBinary
  split
  · exact Value.noConfusion
  · exact Value.noConfusion
  · next hk =>
    split
    · exact Value.noConfusion
    · exact Value.noConfusion
    · exact ⟨ht, by rw [hk]; rfl⟩
  · next hequal hnotEqual hplus =>
    have hchecks : checksOperands op.kind = true := by
      cases hk : op.kind <;> simp_all [isBinaryOperator, checksOperands]
    split
    · exact yields_arithmetic hchecks hplus _ _
    · exact ⟨ht, hchecks⟩

/-- An expression has a value or fails at one of its operators or names. Its value is one that it
found in a variable, or one of the language. -/
theorem evaluate_holds (hT : ∀ t, T t → t.LiteralFits) (hV : ∀ v : Value, v.IsPresent → V v)
    {e : Expr} (h : e.WellFormed T) {σ : Scopes} (hσ : σ.Holds V) :
    Yields (Fault.Arises T V) V (evaluate e σ).1 ∧ (evaluate e σ).2.Holds V := by
  induction e generalizing σ with
  | literal value => exact ⟨(Literal.ComesFrom.yields_value hT h).imp hV, hσ⟩
  | missing | foreign typeName => exact h.elim
  | grouping inner ih => exact ih h hσ
  | «variable» name =>
      refine ⟨?_, hσ⟩
      simp only [evaluate, lookUp]
      split
      · next hget => exact hσ.get? hget
      · exact ⟨h.2, h.1⟩
  | unary op operand ih =>
      obtain ⟨hop, ht, hoperand⟩ := h
      have hv := ih hoperand hσ
      simp only [evaluate]
      split
      · next heq => rwa [heq] at hv
      · next v σ' heq =>
        rw [heq] at hv
        exact ⟨(yields_applyUnary hop ht v).imp hV, hv.2⟩
  | binary left op right ihl ihr =>
      obtain ⟨hop, ht, hleft, hright⟩ := h
      have hl := ihl hleft hσ
      simp only [evaluate]
      split
      · next heq => rwa [heq] at hl
      · next l σ' heq =>
        rw [heq] at hl
        have hr := ihr hright hl.2
        split
        · next heq => rwa [heq] at hr
        · next r σ'' heq =>
          rw [heq] at hr
          exact ⟨(yields_applyBinary hop ht l r).imp hV, hr.2⟩
  | logical left op right ihl ihr =>
      obtain ⟨-, -, hleft, hright⟩ := h
      have hl := ihl hleft hσ
      simp only [evaluate]
      split
      · next heq => rwa [heq] at hl
      · next heq =>
        rw [heq] at hl
        split
        · exact hl
        · exact ihr hright hl.2
  | assign name value ih =>
      obtain ⟨hk, ht, hvalue⟩ := h
      have hv := ih hvalue hσ
      simp only [evaluate]
      split
      · next heq => rwa [heq] at hv
      · next v σ' heq =>
        rw [heq] at hv
        obtain ⟨hv, hσ'⟩ := hv
        unfold assignVariable
        split
        · next hassign => exact ⟨hv, hσ'.assign? hv hassign⟩
        · exact ⟨⟨ht, hk⟩, hσ'⟩

/-- The values of a run of a well-formed tree. How many frames there are is kept along with them,
since a block has to find its own in the end. -/
def Invariant.values (hT : ∀ t, T t → t.LiteralFits) (hV : ∀ v : Value, v.IsPresent → V v) :
    Invariant where
  Place := Nat
  scopes depth σ := σ.depth = depth ∧ σ.Holds V
  value := V
  fault := Fault.Arises T V
  expr := Expr.WellFormed T
  stmt _ s := s = .missing ∨ s.WellFormed T
  evaluate := by
    intro depth e σ he hσ
    obtain ⟨hyields, hholds⟩ := evaluate_holds hT hV he hσ.2
    exact ⟨hyields, (depth_evaluate e σ).trans hσ.1, hholds⟩
  nil := hV .nil Value.noConfusion
  crash := id
  exhausted := trivial
  expression := fun hs => hs.resolve_left Stmt.noConfusion
  print := fun hs => hs.resolve_left Stmt.noConfusion
  declare := by
    intro _ name e hs he
    obtain ⟨-, -, rfl | hwell⟩ := hs.resolve_left Stmt.noConfusion
    · cases he
    · exact hwell
  define := fun _ hσ hv => ⟨Scopes.depth_define.trans hσ.1, hσ.2.define hv⟩
  block := by
    intro depth body σ hs hσ
    have hbody := WellFormedProgram.forall_mem (hs.resolve_left Stmt.noConfusion)
    exact ⟨depth + 1, fun s hmem => .inr (hbody s hmem), ⟨congrArg (· + 1) hσ.1, hσ.2.enter⟩,
      fun σ' hσ' => hσ'.2.leave? hσ'.1⟩
  conditional := by
    intro _ e s t hs
    obtain ⟨he, ⟨-, hs⟩, ht⟩ := hs.resolve_left Stmt.noConfusion
    exact ⟨he, .inr hs, ht.imp id And.right⟩
  loop := by
    intro _ e s hs
    obtain ⟨he, -, hs⟩ := hs.resolve_left Stmt.noConfusion
    exact ⟨he, .inr hs⟩
  foreign := fun hs => (hs.resolve_left Stmt.noConfusion).elim

/-- A run of a well-formed tree from values with `V` has no others in the end, and no faults but
those told. -/
theorem executeAll_holds (hT : ∀ t, T t → t.LiteralFits) (hV : ∀ v : Value, v.IsPresent → V v)
    (budget : Nat) {program : List Stmt} (h : WellFormedProgram T program) {m : Machine}
    (hm : m.scopes.Holds V) :
    Yields (Fault.Arises T V) (fun _ => True) (executeAll budget program m).1 ∧
      (executeAll budget program m).2.scopes.Holds V := by
  have hkeeps := Invariant.keeps_executeAll (I := .values hT hV) budget program
    (p := m.scopes.depth) fun s hs => .inr (h.forall_mem s hs)
  obtain ⟨hyields, -, hholds⟩ := hkeeps m ⟨rfl, hm⟩
  exact ⟨hyields, hholds⟩

end Evaluation

end Scriptlet
