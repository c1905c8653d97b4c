import Scriptlet.Proofs.ReadingByPosition

/-!
Walks of the reader, step by step. A reader in front of some tokens keeps its record in order: it
has been at positions of the list only, its calls have brought it forward, and its errors are where
their tokens are. What the walk of a rule has to do is stated against what the rule gives.
-/

namespace Scriptlet

/-- A token list cut at its first end token. -/
structure Cut where
  body : List Token
  stop : Token
  behind : List Token
  noEnd : ∀ t ∈ body, t.kind ≠ .endOfFile
  isEnd : stop.kind = .endOfFile

def Cut.tokens (c : Cut) : List Token := c.body ++ c.stop :: c.behind

def PlacedError.isExpected (e : PlacedError) : Bool :=
  match e.error.fault with
  | .expected _ => true
  | .invalidTarget => false

/-- The positions at which something else was expected. -/
def expectedPositions (errors : List PlacedError) : List Int :=
  (errors.filter PlacedError.isExpected).map PlacedError.position

theorem expectedPositions_append (errors : List PlacedError) (e : PlacedError) :
    expectedPositions (errors ++ [e]) =
      expectedPositions errors ++ if e.isExpected then [e.position] else [] := by
  simp only [expectedPositions, List.filter_append, List.map_append]
  cases he : e.isExpected <;> simp [he]

/-- The first position comes first; only at the end may the two be the same. -/
def ComesBefore (last p q : Int) : Prop := p ≤ q ∧ (p < last → p < q)

theorem ComesBefore.trans_le {last p q q' : Int} (h : ComesBefore last p q) (hq : q ≤ q') :
    ComesBefore last p q' := by
  obtain ⟨hle, hlt⟩ := h
  exact ⟨by omega, fun hp => by have := hlt hp; omega⟩

namespace Reader

/-- The errors reported so far. -/
def reported (r : Reader) : List SyntaxError := r.errors.map PlacedError.error

/-- The reader with one more error. -/
def withError (r : Reader) (e : PlacedError) : Reader := { r with errors := r.errors ++ [e] }

theorem reported_withError (r : Reader) (e : PlacedError) :
    (r.withError e).reported = r.reported ++ [e.error] := List.map_append

/-- The reader behind the token at its position. -/
def step (r : Reader) : Reader :=
  { r with cursor := r.cursor.forward, trail := r.trail ++ [r.cursor.position + 1] }

/-- The reader with a call noted that ends at its position. -/
def withCall (r : Reader) (start : Int) : Reader :=
  { r with calls := r.calls ++ [(start, r.cursor.position)] }

theorem reported_step (r : Reader) : r.step.reported = r.reported := rfl

theorem reported_append_nil (r : Reader) : r.reported = r.reported ++ [] :=
  (List.append_nil _).symm

/-- What the reader has noted is in order. -/
structure Orderly (c : Cut) (r : Reader) : Prop where
  trail : ∀ p ∈ r.trail, 0 ≤ p ∧ p ≤ c.body.length
  calls : ∀ call ∈ r.calls, 0 ≤ call.1 ∧ call.1 < call.2 ∧ call.2 ≤ c.body.length
  placed : ∀ e ∈ r.errors,
    0 ≤ e.position ∧ c.tokens[e.position.toNat]? = some e.error.token
  ordered : (expectedPositions r.errors).Pairwise (ComesBefore c.body.length)
  passed : ∀ p ∈ expectedPositions r.errors, ComesBefore c.body.length p r.cursor.position

/-- The reader stands in front of `s`, with an orderly record. -/
structure Faces (c : Cut) (s : List Token) (r : Reader) : Prop extends Orderly c r where
  items : r.cursor.items = c.tokens.toArray
  suffix : s <:+ c.body
  position : r.cursor.position + s.length = c.body.length

end Reader

section Runs

variable {α β : Type} {r r' : Reader}

theorem Walk.run_bind {x : Walk α} {f : α → Walk β} {a : α} (h : x.run r = some (a, r')) :
    (x >>= f).run r = (f a).run r' := by
  rw [StateT.run_bind, h]
  rfl

theorem Walk.run_get {f : Reader → Walk β} : ((get : Walk Reader) >>= f).run r = (f r).run r := rfl

theorem Rule.run_bind {x : Rule α} {f : α → Rule β} {a : α}
    (h : x.run.run r = some (.ok a, r')) : (x >>= f).run.run r = (f a).run.run r' := by
  rw [ExceptT.run_bind, Walk.run_bind h]

theorem Rule.run_bind_congr {x y : Rule α} {f : α → Rule β}
    (h : x.run.run r = y.run.run r') : (x >>= f).run.run r = (y >>= f).run.run r' := by
  rw [ExceptT.run_bind, ExceptT.run_bind, StateT.run_bind, StateT.run_bind, h]

theorem Rule.run_bind_error {x : Rule α} {f : α → Rule β} {e : PlacedError}
    (h : x.run.run r = some (.error e, r')) : (x >>= f).run.run r = some (.error e, r') := by
  rw [ExceptT.run_bind, Walk.run_bind h]
  rfl

theorem Rule.run_liftM {w : Walk α} {a : α} (h : w.run r = some (a, r')) :
    (liftM w : Rule α).run.run r = some (.ok a, r') := by
  show (ExceptT.lift w).run.run r = _
  rw [ExceptT.run_lift, map_eq_pure_bind, Walk.run_bind h]
  rfl

theorem Rule.run_lift {w : Walk α} {f : α → Rule β} {a : α} (h : w.run r = some (a, r')) :
    ((liftM w : Rule α) >>= f).run.run r = (f a).run.run r' := by
  exact Rule.run_bind (Rule.run_liftM h)

theorem Walk.run_position {f : Int → Rule β} :
    ((liftM Walk.position : Rule Int) >>= f).run.run r = (f r.cursor.position).run.run r :=
  Rule.run_lift rfl

end Runs

open Reader

section Primitives

variable {c : Cut} {r : Reader} {t : Token} {s : List Token}

theorem Reader.Faces.position_nonneg (h : r.Faces c s) : 0 ≤ r.cursor.position := by
  have hposition := h.position
  have hlength := h.suffix.length_le
  omega

theorem Reader.Faces.getElem? (h : r.Faces c s) :
    c.tokens[r.cursor.position.toNat]? = some (s.head?.getD c.stop) := by
  obtain ⟨front, hfront⟩ := h.suffix
  have hlength : front.length + s.length = c.body.length := by
    rw [← hfront, List.length_append]
  have hposition : r.cursor.position.toNat = front.length := by
    have := h.position
    omega
  rw [hposition, Cut.tokens, ← hfront, List.append_assoc,
    List.getElem?_append_right (Nat.le_refl _), Nat.sub_self]
  cases s <;> rfl

theorem Reader.Faces.peek? (h : r.Faces c s) : r.cursor.peek? = some (s.head?.getD c.stop) := by
  have hnonneg : ¬ r.cursor.position < 0 := Int.not_lt.mpr h.position_nonneg
  rw [Cursor.peek?, Cursor.at?, if_neg hnonneg, h.items, List.getElem?_toArray]
  exact h.getElem?

theorem Reader.Faces.atKind (h : r.Faces c s) (kinds : List TokenKind) :
    r.cursor.atKind kinds = kinds.contains (s.head?.getD c.stop).kind := by
  rw [Cursor.atKind, h.peek?]

theorem Reader.Faces.tail_suffix (h : r.Faces c (t :: s)) : s <:+ c.body :=
  (List.suffix_cons t s).trans h.suffix

theorem Reader.Faces.ne_endOfFile (h : r.Faces c (t :: s)) : t.kind ≠ .endOfFile :=
  c.noEnd t (h.suffix.subset List.mem_cons_self)

theorem Reader.Faces.atEnd (h : r.Faces c s) : r.cursor.atKind [.endOfFile] = s.isEmpty := by
  rw [h.atKind]
  cases s with
  | nil => simp [c.isEnd]
  | cons t s => simp [h.ne_endOfFile]

theorem Reader.Faces.length_pos (h : r.Faces c (t :: s)) : r.cursor.position < c.body.length := by
  have hposition := h.position
  simp only [List.length_cons] at hposition
  omega

theorem Reader.Faces.step (h : r.Faces c (t :: s)) : r.step.Faces c s where
  trail := by
    intro p hp
    have hlt := h.length_pos
    have hnonneg := h.position_nonneg
    obtain hp | hp := List.mem_append.mp hp
    · exact h.trail p hp
    · obtain rfl := List.mem_singleton.mp hp
      omega
  calls := h.calls
  placed := h.placed
  ordered := h.ordered
  passed := by
    intro p hp
    exact (h.passed p hp).trans_le (Int.le_add_one (Int.le_refl _))
  items := h.items
  suffix := h.tail_suffix
  position := by
    have hposition := h.position
    simp only [List.length_cons] at hposition
    simp only [Reader.step, Cursor.forward]
    omega

theorem Reader.Faces.reportTarget (h : r.Faces c s) {place : Int}
    (hplace : 0 ≤ place) (ht : c.tokens[place.toNat]? = some t) :
    (r.withError ⟨place, ⟨t, .invalidTarget⟩⟩).Faces c s := by
  have hsame : expectedPositions (r.errors ++ [⟨place, ⟨t, .invalidTarget⟩⟩]) =
      expectedPositions r.errors := by
    rw [expectedPositions_append]
    exact List.append_nil _
  exact {
    trail := h.trail
    calls := h.calls
    placed := List.forall_mem_append.mpr ⟨h.placed, List.forall_mem_singleton.mpr ⟨hplace, ht⟩⟩
    ordered := hsame ▸ h.ordered
    passed := hsame ▸ h.passed
    items := h.items
    suffix := h.suffix
    position := h.position }

/-- The reader `r'`, which has gone on from in front of `s`, with the error that was found there. -/
theorem Reader.Faces.refuse {r' : Reader} {s' : List Token} (h : r.Faces c s)
    (h' : r'.Faces c s') (herrors : r'.errors = r.errors)
    (hbefore : ComesBefore c.body.length r.cursor.position r'.cursor.position)
    (what : Expectation) :
    (r'.withError ⟨r.cursor.position, errorAt c.stop what s⟩).Faces c s' where
  trail := h'.trail
  calls := h'.calls
  placed := List.forall_mem_append.mpr
    ⟨h'.placed, List.forall_mem_singleton.mpr ⟨h.position_nonneg, h.getElem?⟩⟩
  ordered := by
    rw [Reader.withError, expectedPositions_append]
    refine List.pairwise_append.mpr ⟨h'.ordered, List.pairwise_singleton _ _, ?_⟩
    intro p hp q hq
    obtain rfl := List.mem_singleton.mp hq
    exact h.passed p (herrors ▸ hp)
  passed := by
    rw [Reader.withError, expectedPositions_append]
    exact List.forall_mem_append.mpr ⟨h'.passed, List.forall_mem_singleton.mpr hbefore⟩
  items := h'.items
  suffix := h'.suffix
  position := h'.position

theorem Reader.Faces.withCall (h : r.Faces c s) {start : Int} (hstart : 0 ≤ start)
    (hlt : start < r.cursor.position) : (r.withCall start).Faces c s where
  trail := h.trail
  calls := by
    have hposition := h.position
    exact List.forall_mem_append.mpr
      ⟨h.calls, List.forall_mem_singleton.mpr ⟨hstart, hlt, by omega⟩⟩
  placed := h.placed
  ordered := h.ordered
  passed := h.passed
  items := h.items
  suffix := h.suffix
  position := h.position

theorem Reader.Faces.previous? (h : r.Faces c (t :: s)) : r.step.cursor.previous? = some t := by
  have hback : r.cursor.position + 1 - 1 = r.cursor.position := by omega
  have hpeek := h.peek?
  simp only [Reader.step, Cursor.forward, Cursor.previous?, Cursor.at?, hback]
  exact hpeek

theorem Walk.run_isAtEnd (h : r.Faces c s) : Walk.isAtEnd.run r = some (s.isEmpty, r) := by
  rw [← h.atEnd]
  rfl

theorem Walk.run_previous (h : r.cursor.previous? = some t) :
    Walk.previous.run r = some (t, r) := by
  rw [Walk.previous, Walk.run_get, h]
  rfl

theorem Walk.run_accept (h : r.Faces c (t :: s)) (kinds : List TokenKind) :
    (Walk.accept kinds).run r =
      if kinds.contains t.kind then some (true, r.step) else some (false, r) := by
  have hkind : r.cursor.atKind kinds = kinds.contains t.kind := h.atKind kinds
  rw [Walk.accept, Walk.run_bind (Walk.run_isAtEnd h)]
  simp only [List.isEmpty_cons, Bool.false_eq_true, if_false]
  rw [Walk.run_get, Cursor.acceptKind, hkind]
  cases kinds.contains t.kind <;> rfl

theorem Walk.run_accept_end (h : r.Faces c []) (kinds : List TokenKind) :
    (Walk.accept kinds).run r = some (false, r) := by
  rw [Walk.accept, Walk.run_bind (Walk.run_isAtEnd h)]
  rfl

theorem Walk.run_check (h : r.Faces c s) (kind : TokenKind) :
    (Walk.check kind).run r = some (s.head?.any (·.kind = kind), r) := by
  rw [Walk.check, Walk.run_bind (Walk.run_isAtEnd h), Walk.run_get,
    h.atKind]
  cases s with
  | nil => rfl
  | cons t s => simp

theorem Walk.run_advance (hend : r.cursor.atKind [.endOfFile] = false)
    (hpeek : r.cursor.peek? = some t) : Walk.advance.run r = some (some t, r.step) := by
  have hrun : Walk.isAtEnd.run r = some (false, r) := by
    rw [← hend]
    rfl
  rw [Walk.advance, Walk.run_bind hrun]
  simp only [Bool.false_eq_true, if_false]
  rw [Walk.run_get, Cursor.advance, hpeek]
  rfl

theorem Walk.run_advance_end (h : r.Faces c []) :
    Walk.advance.run r = some (some c.stop, r) := by
  have hpeek := h.peek?
  rw [Walk.advance, Walk.run_bind (Walk.run_isAtEnd h)]
  simp only [List.isEmpty_nil, if_true]
  rw [Walk.run_get, hpeek]
  rfl

theorem Walk.run_peek (h : r.Faces c s) :
    Walk.peek.run r = some (s.head?.getD c.stop, r) := by
  rw [Walk.peek, Walk.run_get, h.peek?]
  rfl

theorem Walk.run_refuse {α : Type} (h : r.Faces c s) (what : Expectation) :
    (Walk.refuse what : Rule α).run.run r =
      some (.error ⟨r.cursor.position, errorAt c.stop what s⟩, r) := by
  rw [Walk.refuse, Rule.run_lift (Walk.run_peek h), Walk.run_position]
  rfl

theorem Rule.run_accept {α : Type} {x y : Rule α} (h : r.Faces c (t :: s))
    (kinds : List TokenKind) :
    ((liftM (Walk.accept kinds) : Rule Bool) >>= fun b => if b = true then x else y).run.run r =
      if kinds.contains t.kind then x.run.run r.step else y.run.run r := by
  have hrun := Walk.run_accept h kinds
  cases hk : kinds.contains t.kind with
  | true | false =>
      rw [hk] at hrun
      exact Rule.run_lift hrun

theorem Rule.run_accept_end {α : Type} {x y : Rule α} (h : r.Faces c [])
    (kinds : List TokenKind) :
    ((liftM (Walk.accept kinds) : Rule Bool) >>= fun b => if b = true then x else y).run.run r =
      y.run.run r :=
  Rule.run_lift (Walk.run_accept_end h kinds)

theorem Rule.run_check {α : Type} {x y : Rule α} (h : r.Faces c s) (kind : TokenKind) :
    ((liftM (Walk.check kind) : Rule Bool) >>= fun b => if b = true then x else y).run.run r =
      if s.head?.any (·.kind = kind) then x.run.run r else y.run.run r := by
  rw [Rule.run_lift (Walk.run_check h kind)]
  cases s.head?.any (·.kind = kind) <;> rfl

theorem Rule.run_previous {α : Type} {f : Token → Rule α} (h : r.Faces c (t :: s)) :
    ((liftM Walk.previous : Rule Token) >>= f).run.run r.step = (f t).run.run r.step :=
  Rule.run_lift (Walk.run_previous h.previous?)

end Primitives

/-- The walk of a rule does what the rule says: it ends, with the value or the error of the rule,
in front of the tokens that the rule leaves, having reported the errors that the rule reports. Of
these there are fewer than tokens used up, and one that stops the rule may be added to them. -/
inductive Cut.Agrees {α : Type} {bound : Nat} (c : Cut) (r : Reader) (x : Rule α) :
    Parsed α bound → Prop where
  | done {v : α} {rest : List Token} {reports : List SyntaxError} {shorter : rest.length < bound}
      {r' : Reader} (run : x.run.run r = some (.ok v, r')) (faces : r'.Faces c rest)
      (reported : r'.reported = r.reported ++ reports)
      (count : reports.length + rest.length < bound) :
      Agrees c r x (.done v rest reports shorter)
  | failed {what : Expectation} {rest : List Token} {reports : List SyntaxError}
      {within : rest.length ≤ bound} {r' : Reader}
      (run : x.run.run r = some (.error ⟨r'.cursor.position, errorAt c.stop what rest⟩, r'))
      (faces : r'.Faces c rest) (reported : r'.reported = r.reported ++ reports)
      (count : reports.length + rest.length ≤ bound)
      (room : reports.length < bound ∨ bound = 0) :
      Agrees c r x (.failed what rest reports within)

namespace Cut.Agrees

variable {α β : Type} {bound wider : Nat} {c : Cut} {r r' : Reader} {x y : Rule α}

theorem congr {p : Parsed α bound} (h : c.Agrees r x p) (hrun : y.run.run r = x.run.run r) :
    c.Agrees r y p := by
  cases h with
  | done run faces reported count => exact .done (hrun.trans run) faces reported count
  | failed run faces reported count room =>
      exact .failed (hrun.trans run) faces reported count room

/-- A walk that goes on with another one after some errors. -/
theorem behind {p : Parsed α bound} (h : c.Agrees r' x p) (hrun : y.run.run r = x.run.run r')
    {reports : List SyntaxError} (hreported : r'.reported = r.reported ++ reports)
    (hcount : reports.length + bound ≤ wider) (hroom : reports.length < wider)
    (hb : bound ≤ wider) :
    c.Agrees r y (p.after reports hb) := by
  cases h with
  | done run faces reported count =>
      refine .done (hrun.trans run) faces ?_ ?_
      · rw [reported, hreported, List.append_assoc]
      · rw [List.length_append]
        omega
  | failed run faces reported count room =>
      refine .failed (hrun.trans run) faces ?_ ?_ ?_
      · rw [reported, hreported, List.append_assoc]
      · rw [List.length_append]
        omega
      · rw [List.length_append]
        omega

/-- A walk that goes on with another one behind the token in front of it. -/
theorem behind_step {p : Parsed α bound} (h : c.Agrees r.step x p)
    (hrun : y.run.run r = x.run.run r.step) (hb : bound ≤ bound + 1) :
    c.Agrees r y (p.after [] hb) := by
  have hreported : r.step.reported = r.reported ++ [] := (List.append_nil _).symm
  exact h.behind hrun hreported (by simp) (by simp) hb

theorem andThen {p : Parsed α bound} (h : c.Agrees r x p) {f : α → Rule β}
    {next : α → (rest : List Token) → Parsed β rest.length}
    (hf : ∀ v rest r', rest.length < bound → r'.Faces c rest → c.Agrees r' (f v) (next v rest)) :
    c.Agrees r (x >>= f) (p.andThen next) := by
  cases h with
  | @done v rest reports shorter r' run faces reported count =>
      exact (hf v rest r' shorter faces).behind (Rule.run_bind run) reported (by omega) (by omega)
        (Nat.le_of_lt shorter)
  | failed run faces reported count room =>
      exact .failed (Rule.run_bind_error run) faces reported count room

theorem map {p : Parsed α bound} (h : c.Agrees r x p) (f : α → β) :
    c.Agrees r (x >>= fun v => pure (f v)) (p.map f) := by
  cases h with
  | done run faces reported count =>
      exact .done (Rule.run_bind run) faces reported count
  | failed run faces reported count room =>
      exact .failed (Rule.run_bind_error run) faces reported count room

end Cut.Agrees

end Scriptlet
