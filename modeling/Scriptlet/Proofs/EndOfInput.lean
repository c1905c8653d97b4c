import Scriptlet.Proofs.ReaderProgress

/-!
The end of the input is the first end token. A reader that starts in front of it never looks at what
is behind it: with other tokens there, every rule takes the same steps, from the same positions to
the same positions, and so do the skips after errors.
-/

namespace Scriptlet

/-- The list cut right behind its first end token. -/
def throughEnd (tokens : List Token) : List Token :=
  tokens.take (tokens.findIdx (·.kind = .endOfFile) + 1)

namespace Reader

/-- The reader with other tokens behind the first end token. -/
def exchange (c : Cut) (behind : List Token) (r : Reader) : Reader :=
  { r with cursor := ⟨(c.body ++ c.stop :: behind).toArray, r.cursor.position⟩ }

/-- The reader has not moved past the first end token. -/
structure Inside (c : Cut) (r : Reader) : Prop where
  items : r.cursor.items = c.tokens.toArray
  nonneg : 0 ≤ r.cursor.position
  le : r.cursor.position ≤ c.body.length

variable {c : Cut} {behind : List Token} {r : Reader}

theorem getElem?_append_cons_of_le {body : List Token} {stop : Token} {i : Nat}
    (h : i ≤ body.length) (behind behind' : List Token) :
    (body ++ stop :: behind)[i]? = (body ++ stop :: behind')[i]? := by
  obtain hlt | rfl := Nat.lt_or_eq_of_le h
  · rw [List.getElem?_append_left hlt, List.getElem?_append_left hlt]
  · rw [List.getElem?_append_right (Nat.le_refl _), List.getElem?_append_right (Nat.le_refl _),
      Nat.sub_self]
    rfl

theorem Inside.at?_exchange (h : r.Inside c) {i : Int} (hi : i ≤ c.body.length) :
    (r.exchange c behind).cursor.at? i = r.cursor.at? i := by
  simp only [Cursor.at?, exchange, h.items, Cut.tokens, List.getElem?_toArray]
  split
  · rfl
  · exact getElem?_append_cons_of_le (by omega) _ _

theorem Inside.peek?_exchange (h : r.Inside c) :
    (r.exchange c behind).cursor.peek? = r.cursor.peek? :=
  h.at?_exchange h.le

theorem Inside.previous?_exchange (h : r.Inside c) :
    (r.exchange c behind).cursor.previous? = r.cursor.previous? :=
  h.at?_exchange (Int.le_trans (Int.sub_le_self _ (by decide)) h.le)

theorem Inside.atKind_exchange (h : r.Inside c) (kinds : List TokenKind) :
    (r.exchange c behind).cursor.atKind kinds = r.cursor.atKind kinds := by
  rw [Cursor.atKind, h.peek?_exchange, Cursor.atKind]

theorem Inside.exists_peek? (h : r.Inside c) : ∃ t, r.cursor.peek? = some t := by
  have hlt : r.cursor.position.toNat < c.tokens.length := by
    have hle := h.le
    simp only [Cut.tokens, List.length_append, List.length_cons]
    omega
  refine ⟨c.tokens[r.cursor.position.toNat], ?_⟩
  rw [Cursor.peek?, Cursor.at?, if_neg (Int.not_lt.mpr h.nonneg), h.items, List.getElem?_toArray,
    List.getElem?_eq_getElem hlt]

/-- A reader that is not at the end may take a step. -/
theorem Inside.step (h : r.Inside c) (hend : r.cursor.atKind [.endOfFile] = false) :
    r.step.Inside c := by
  have hne : r.cursor.position ≠ c.body.length := by
    intro heq
    have hpeek : r.cursor.peek? = some c.stop := by
      simp [Cursor.peek?, Cursor.at?, heq, h.items, Cut.tokens]
    rw [Cursor.atKind, hpeek] at hend
    simp [c.isEnd] at hend
  have hnonneg := h.nonneg
  have hle := h.le
  refine ⟨h.items, ?_, ?_⟩ <;> simp only [Reader.step, Cursor.forward] <;> omega

end Reader

/-- The walk does not depend on what is behind the first end token, and does not get there. -/
structure Walk.Blind {α : Type} (c : Cut) (behind : List Token) (w : Walk α) : Prop where
  inside : ∀ {r r' : Reader} {a : α}, r.Inside c → w.run r = some (a, r') → r'.Inside c
  exchange : ∀ {r : Reader}, r.Inside c →
    w.run (r.exchange c behind) = (w.run r).map fun p => (p.1, p.2.exchange c behind)

abbrev Rule.Blind {α : Type} (c : Cut) (behind : List Token) (x : Rule α) : Prop :=
  Walk.Blind c behind x.run

section Blind

variable {α β : Type} {c : Cut} {behind : List Token}

namespace Walk.Blind

theorem pure (a : α) : Walk.Blind c behind (Pure.pure a) where
  inside := by
    intro r r' b h hrun
    cases hrun
    exact h
  exchange := fun _ => rfl

theorem stuck : Walk.Blind c behind (Walk.stuck : Walk α) where
  inside := by
    intro r r' a _ hrun
    cases hrun
  exchange := fun _ => rfl

theorem bind {w : Walk α} {f : α → Walk β} (hw : Walk.Blind c behind w)
    (hf : ∀ a, Walk.Blind c behind (f a)) : Walk.Blind c behind (w >>= f) where
  inside := by
    intro r r' b h hrun
    rw [StateT.run_bind] at hrun
    obtain ⟨⟨a, r₁⟩, hfirst, hrest⟩ := Option.bind_eq_some_iff.mp hrun
    exact (hf a).inside (hw.inside h hfirst) hrest
  exchange := by
    intro r h
    rw [StateT.run_bind, StateT.run_bind, hw.exchange h]
    cases hfirst : w.run r with
    | none => rfl
    | some p => exact (hf p.1).exchange (hw.inside h hfirst)

/-- A walk that only looks. -/
theorem look {f : Reader → α} (hf : ∀ r : Reader, r.Inside c → f (r.exchange c behind) = f r) :
    Walk.Blind c behind (fun r => some (f r, r)) where
  inside := by
    intro r r' a h hrun
    cases hrun
    exact h
  exchange := by
    intro r h
    exact congrArg (fun a => some (a, r.exchange c behind)) (hf r h)

theorem isAtEnd : Walk.Blind c behind Walk.isAtEnd :=
  look fun _ h => h.atKind_exchange [.endOfFile]

theorem position : Walk.Blind c behind Walk.position := look fun _ _ => rfl

theorem found (t : Option Token) : Walk.Blind c behind (Walk.found t) := by
  cases t with
  | none => exact stuck
  | some t => exact pure t

theorem peek : Walk.Blind c behind Walk.peek :=
  bind (w := fun r => some (r.cursor.peek?, r)) (look fun _ h => h.peek?_exchange) found

theorem previous : Walk.Blind c behind Walk.previous :=
  bind (w := fun r => some (r.cursor.previous?, r)) (look fun _ h => h.previous?_exchange) found

theorem check (kind : TokenKind) : Walk.Blind c behind (Walk.check kind) :=
  bind isAtEnd fun b => look (f := fun r => !b && r.cursor.atKind [kind])
    fun _ h => congrArg (!b && ·) (h.atKind_exchange [kind])

theorem report (e : PlacedError) : Walk.Blind c behind (Walk.report e) where
  inside := by
    intro r r' _ h hrun
    cases hrun
    exact ⟨h.items, h.nonneg, h.le⟩
  exchange := fun _ => rfl

theorem noteCall (start : Int) : Walk.Blind c behind (Walk.noteCall start) where
  inside := by
    intro r r' _ h hrun
    cases hrun
    exact ⟨h.items, h.nonneg, h.le⟩
  exchange := fun _ => rfl

/-- A walk that takes a step or stays where it is, as what it sees tells. -/
theorem move {f : Reader → Bool × α}
    (hf : ∀ r : Reader, r.Inside c → f (r.exchange c behind) = f r)
    (hstep : ∀ r : Reader, (f r).1 = true → r.cursor.atKind [.endOfFile] = false) :
    Walk.Blind c behind fun r => some ((f r).2, if (f r).1 then r.step else r) where
  inside := by
    intro r r' a h hrun
    cases hrun
    split
    · next hmove => exact h.step (hstep r hmove)
    · exact h
  exchange := by
    intro r h
    change some ((f (r.exchange c behind)).2, if (f (r.exchange c behind)).1 then _ else _) = _
    rw [hf r h]
    cases hmove : (f r).1 <;> simp [StateT.run, hmove, Reader.step, Reader.exchange, Cursor.forward]

theorem accept (kinds : List TokenKind) : Walk.Blind c behind (Walk.accept kinds) := by
  have hrun : Walk.accept kinds = fun r =>
      some (!r.cursor.atKind [.endOfFile] && r.cursor.atKind kinds,
        if !r.cursor.atKind [.endOfFile] && r.cursor.atKind kinds then r.step else r) := by
    funext r
    have hread : Walk.isAtEnd.run r = some (r.cursor.atKind [.endOfFile], r) := rfl
    rw [Walk.accept]
    change (Walk.isAtEnd >>= _).run r = _
    rw [Walk.run_bind hread]
    cases r.cursor.atKind [.endOfFile] with
    | true => rfl
    | false =>
        rw [if_neg Bool.false_ne_true, Walk.run_get, Cursor.acceptKind]
        cases r.cursor.atKind kinds <;> rfl
  rw [hrun]
  refine move (f := fun r => (!r.cursor.atKind [.endOfFile] && r.cursor.atKind kinds,
    !r.cursor.atKind [.endOfFile] && r.cursor.atKind kinds)) ?_ ?_
  · intro r h
    simp only [h.atKind_exchange]
  · intro r hmove
    simpa using (Bool.and_eq_true_iff.mp hmove).1

theorem advance : Walk.Blind c behind Walk.advance := by
  have hrun : ∀ r : Reader, r.cursor.atKind [.endOfFile] = true →
      Walk.advance.run r = some (r.cursor.peek?, r) := by
    intro r hend
    have hread : Walk.isAtEnd.run r = some (true, r) := by
      rw [← hend]
      rfl
    rw [Walk.advance, Walk.run_bind hread]
    rfl
  constructor
  · intro r r' a h hadvance
    cases hend : r.cursor.atKind [.endOfFile] with
    | true =>
        rw [hrun r hend] at hadvance
        cases hadvance
        exact h
    | false =>
        obtain ⟨t, hpeek⟩ := h.exists_peek?
        rw [Walk.run_advance hend hpeek] at hadvance
        cases hadvance
        exact h.step hend
  · intro r h
    have hkind : (r.exchange c behind).cursor.atKind [.endOfFile] = r.cursor.atKind [.endOfFile] :=
      h.atKind_exchange [.endOfFile]
    cases hend : r.cursor.atKind [.endOfFile] with
    | true =>
        rw [hrun r hend, hrun _ (hkind.trans hend), h.peek?_exchange]
        rfl
    | false =>
        obtain ⟨t, hpeek⟩ := h.exists_peek?
        rw [Walk.run_advance hend hpeek,
          Walk.run_advance (hkind.trans hend) (h.peek?_exchange.trans hpeek)]
        rfl

theorem skip (depth : Nat) : Walk.Blind c behind (Walk.skip depth) := by
  induction depth with
  | zero => exact stuck
  | succ depth ih =>
      rw [Walk.skip]
      apply isAtEnd.bind
      intro atEnd
      split
      · exact pure ()
      · apply previous.bind
        intro t
        split
        · exact pure ()
        · refine bind (w := fun r => some (r.cursor.atKind starters, r))
            (f := fun b => if b = true then Pure.pure () else Walk.advance >>= fun _ =>
              Walk.skip depth) (look fun _ h => h.atKind_exchange starters) fun b => ?_
          split
          · exact pure ()
          · exact advance.bind fun _ => ih

theorem synchronize (depth : Nat) : Walk.Blind c behind (Walk.synchronize depth) :=
  advance.bind fun _ => skip depth

end Walk.Blind

namespace Rule.Blind

theorem pure (a : α) : Rule.Blind c behind (Pure.pure a) :=
  Walk.Blind.pure (.ok a : Except PlacedError α)

theorem throw (e : PlacedError) : Rule.Blind c behind (MonadExcept.throw e : Rule α) :=
  Walk.Blind.pure (.error e : Except PlacedError α)

theorem lift {w : Walk α} (h : Walk.Blind c behind w) : Rule.Blind c behind (liftM w) :=
  h.bind fun a => pure a

theorem bind {x : Rule α} {f : α → Rule β} (hx : Rule.Blind c behind x)
    (hf : ∀ a, Rule.Blind c behind (f a)) : Rule.Blind c behind (x >>= f) := by
  apply Walk.Blind.bind hx
  intro result
  cases result with
  | ok a => exact hf a
  | error e => exact throw e

/-- A rule that goes on in one of two ways. -/
theorem choose {w : Walk Bool} (hw : Walk.Blind c behind w) {x y : Rule α}
    (hx : Rule.Blind c behind x) (hy : Rule.Blind c behind y) :
    Rule.Blind c behind ((liftM w : Rule Bool) >>= fun b => if b = true then x else y) := by
  apply (lift hw).bind
  intro b
  split
  · exact hx
  · exact hy

theorem refuse (what : Expectation) : Rule.Blind c behind (Walk.refuse what : Rule α) :=
  (lift .peek).bind fun _ => (lift .position).bind fun _ => throw _

theorem consume (kind : TokenKind) (what : Expectation) :
    Rule.Blind c behind (Walk.consume kind what) :=
  choose (.check kind) (lift .advance) (refuse what)

theorem assign (target : Expr) (equals : Token) (place : Int) (value : Expr) :
    Rule.Blind c behind (Walk.assign target equals place value) := by
  unfold Walk.assign
  split
  · exact pure _
  · exact (lift (.report _)).bind fun _ => pure _

mutual

theorem assignment (depth : Nat) : Rule.Blind c behind (Walk.assignment depth) := by
  cases depth with
  | zero => exact lift .stuck
  | succ depth =>
      rw [Walk.assignment]
      refine (chain depth .disjunction).bind fun target => choose (.accept _) ?_ (pure _)
      exact (lift .previous).bind fun _ => (lift .position).bind fun _ =>
        (assignment depth).bind fun value => assign target _ _ value

theorem operand (depth : Nat) (l : Level) : Rule.Blind c behind (Walk.operand depth l) := by
  cases depth with
  | zero => exact lift .stuck
  | succ depth =>
      rw [Walk.operand]
      split
      · exact chain depth _
      · exact unary depth

theorem chain (depth : Nat) (l : Level) : Rule.Blind c behind (Walk.chain depth l) := by
  cases depth with
  | zero => exact lift .stuck
  | succ depth =>
      rw [Walk.chain]
      exact (operand depth l).bind fun first => extend depth l first

theorem extend (depth : Nat) (l : Level) (left : Expr) :
    Rule.Blind c behind (Walk.extend depth l left) := by
  cases depth with
  | zero => exact lift .stuck
  | succ depth =>
      rw [Walk.extend]
      refine choose (.accept _) ?_ (pure _)
      exact (lift .previous).bind fun op => (operand depth l).bind fun right =>
        extend depth l (l.node left op right)

theorem unary (depth : Nat) : Rule.Blind c behind (Walk.unary depth) := by
  cases depth with
  | zero => exact lift .stuck
  | succ depth =>
      rw [Walk.unary]
      refine choose (.accept _) ?_ (primary depth)
      exact (lift .previous).bind fun _ => (unary depth).bind fun _ => pure _

theorem primary (depth : Nat) : Rule.Blind c behind (Walk.primary depth) := by
  cases depth with
  | zero => exact lift .stuck
  | succ depth =>
      rw [Walk.primary]
      refine choose (.accept _) (pure _) ?_
      refine choose (.accept _) (pure _) ?_
      refine choose (.accept _) (pure _) ?_
      refine choose (.accept _) ((lift .previous).bind fun _ => pure _) ?_
      refine choose (.accept _) ((lift .previous).bind fun _ => pure _) ?_
      refine choose (.accept _) ?_ (refuse .expression)
      exact (assignment depth).bind fun _ => (consume _ _).bind fun _ => pure _

end

theorem terminated (depth : Nat) (what : Expectation) :
    Rule.Blind c behind (Walk.terminated depth what) :=
  (assignment depth).bind fun _ => (consume _ _).bind fun _ => pure _

theorem expressionStatement (depth : Nat) :
    Rule.Blind c behind (Walk.expressionStatement depth) :=
  (terminated depth _).bind fun _ => pure _

theorem variableDeclaration (depth : Nat) :
    Rule.Blind c behind (Walk.variableDeclaration depth) := by
  have hinitial : Rule.Blind c behind (Walk.initialValue depth) :=
    choose (.accept _) (assignment depth) (pure _)
  exact (consume _ _).bind fun name => hinitial.bind fun _ => (consume _ _).bind fun _ =>
    (lift (.found name)).bind fun _ => pure _

theorem condition (depth : Nat) (what : Expectation) :
    Rule.Blind c behind (Walk.condition depth what) :=
  (consume _ _).bind fun _ => (assignment depth).bind fun _ => (consume _ _).bind fun _ => pure _

theorem forInitial (depth : Nat) : Rule.Blind c behind (Walk.forInitial depth) :=
  choose (.accept _) (pure _) (choose (.accept _) (variableDeclaration depth)
    (expressionStatement depth))

theorem clause (depth : Nat) (closing : TokenKind) (what : Expectation) :
    Rule.Blind c behind (Walk.clause depth closing what) := by
  have hoptional : Rule.Blind c behind (Walk.optional depth closing) :=
    choose (.check _) (pure _) (assignment depth)
  exact hoptional.bind fun _ => (consume _ _).bind fun _ => pure _

theorem forClauses (depth : Nat) : Rule.Blind c behind (Walk.forClauses depth) :=
  (consume _ _).bind fun _ => (forInitial depth).bind fun _ => (clause depth _ _).bind fun _ =>
    (clause depth _ _).bind fun _ => pure _

mutual

theorem statement (depth : Nat) : Rule.Blind c behind (Walk.statement depth) := by
  cases depth with
  | zero => exact lift .stuck
  | succ depth =>
      rw [Walk.statement]
      refine choose (.accept _) ?_ ?_
      · exact (forClauses depth).bind fun _ => (statement depth).bind fun _ => pure _
      refine choose (.accept _) ?_ ?_
      · refine (condition depth _).bind fun _ => (statement depth).bind fun _ => ?_
        exact choose (.accept _) ((statement depth).bind fun _ => pure _) (pure _)
      refine choose (.accept _) ?_ ?_
      · exact (terminated depth _).bind fun _ => pure _
      refine choose (.accept _) ?_ ?_
      · exact (condition depth _).bind fun _ => (statement depth).bind fun _ => pure _
      refine choose (.accept _) ?_ (expressionStatement depth)
      exact (lift (declarations depth true)).bind fun _ =>
        (consume _ _).bind fun _ => pure _

theorem declaration (depth : Nat) : Walk.Blind c behind (Walk.declaration depth) := by
  cases depth with
  | zero => exact .stuck
  | succ depth =>
      rw [Walk.declaration]
      refine Walk.Blind.position.bind fun start => ?_
      have hdeclared : Rule.Blind c behind (do
          if ← Walk.accept [.kwVar] then Walk.variableDeclaration depth
          else Walk.statement depth) :=
        choose (.accept _) (variableDeclaration depth) (statement depth)
      refine Walk.Blind.bind hdeclared fun result => ?_
      cases result with
      | ok s => exact (Walk.Blind.noteCall start).bind fun _ => .pure _
      | error e =>
          exact (Walk.Blind.report e).bind fun _ => (Walk.Blind.synchronize depth).bind fun _ =>
            (Walk.Blind.noteCall start).bind fun _ => .pure _

theorem declarations (depth : Nat) (inBlock : Bool) :
    Walk.Blind c behind (Walk.declarations depth inBlock) := by
  cases depth with
  | zero => exact .stuck
  | succ depth =>
      rw [Walk.declarations]
      refine (Walk.Blind.check _).bind fun closed => Walk.Blind.isAtEnd.bind fun atEnd => ?_
      split
      · exact .pure _
      · exact (declaration depth).bind fun _ => (declarations depth inBlock).bind fun _ => .pure _

end

end Rule.Blind

end Blind

/-! Lists that are read alike. -/

theorem throughEnd_eq (tokens : List Token) :
    throughEnd tokens = tokens ∧ (∀ t ∈ tokens, t.kind ≠ .endOfFile) ∨
      throughEnd tokens = beforeEnd tokens ++ [endToken tokens] := by
  cases hfind : tokens.find? (·.kind = .endOfFile) with
  | none =>
      have hnoEnd : ∀ t ∈ tokens, t.kind ≠ .endOfFile := by
        intro t ht hk
        exact List.find?_eq_none.mp hfind t ht (decide_eq_true hk)
      have hlength : tokens.findIdx (·.kind = .endOfFile) = tokens.length :=
        List.findIdx_eq_length.mpr fun t ht => decide_eq_false (hnoEnd t ht)
      refine .inl ⟨?_, hnoEnd⟩
      rw [throughEnd, hlength, List.take_of_length_le (Nat.le_succ _)]
  | some stop =>
      obtain ⟨hk, front, back, rfl, hfront⟩ := List.find?_eq_some_iff_append.mp hfind
      have hstop : stop.kind = .endOfFile := of_decide_eq_true hk
      have hnoEnd : ∀ t ∈ front, t.kind ≠ .endOfFile := by
        intro t ht
        simpa using hfront t ht
      have hindex : (front ++ stop :: back).findIdx (·.kind = .endOfFile) = front.length :=
        Cut.findIdx_tokens ⟨front, stop, back, hnoEnd, hstop⟩
      have hbefore : beforeEnd (front ++ stop :: back) = front := by
        rw [beforeEnd_append hnoEnd, beforeEnd, List.takeWhile_cons_of_neg (by simp [hstop]),
          List.append_nil]
      have hend : endToken (front ++ stop :: back) = stop := by
        rw [endToken, hfind]
        rfl
      refine .inr ?_
      rw [throughEnd, hbefore, hend, hindex, List.take_length_add_append]
      rfl

theorem withEnd_throughEnd (tokens : List Token) :
    withEnd (throughEnd tokens) = beforeEnd tokens ++ [endToken tokens] := by
  obtain ⟨c, -, hbody, hstop⟩ := exists_cut tokens
  obtain ⟨hsame, hnoEnd⟩ | hcut := throughEnd_eq tokens
  · rw [hsame, withEnd_of_noEnd hnoEnd, beforeEnd_eq_self hnoEnd]
  · rw [hcut, ← hbody, ← hstop, withEnd, List.getLast?_concat]
    simp [c.isEnd]

theorem parse_throughEnd (tokens : List Token) : parse (throughEnd tokens) = parse tokens := by
  obtain ⟨c, -, hbody, hstop⟩ := exists_cut tokens
  obtain ⟨hsame, -⟩ | hcut := throughEnd_eq tokens
  · rw [hsame]
  · rw [hcut, ← hbody, ← hstop, IsEnd.parse_eq ⟨c.noEnd, c.isEnd⟩, parse_eq_declarations, hbody,
      hstop]

/-- What a reader has done, whatever it was reading: its place, the positions it has been at, its
calls and its errors. -/
def Reader.deeds (r : Reader) : Int × List Int × List (Int × Int) × List PlacedError :=
  (r.cursor.position, r.trail, r.calls, r.errors)

theorem program_throughEnd (depth : Nat) (tokens : List Token) :
    (Walk.program depth (throughEnd tokens)).map (fun p => (p.1, p.2.deeds)) =
      (Walk.program depth tokens).map fun p => (p.1, p.2.deeds) := by
  obtain ⟨c, htokens, hbody, hstop⟩ := exists_cut tokens
  have hstart : Reader.Inside c ⟨⟨c.tokens.toArray, 0⟩, [0], [], []⟩ :=
    ⟨rfl, Int.le_refl _, Int.natCast_nonneg _⟩
  have hblind : Walk.Blind c [] (Walk.declarations depth false) :=
    Rule.Blind.declarations depth false
  have hrun := hblind.exchange hstart
  rw [Walk.program, withEnd_throughEnd, ← hbody, ← hstop, Walk.program, ← htokens]
  refine (congrArg (Option.map _) hrun).trans ?_
  rw [Option.map_map]
  rfl

/-- Nothing behind the first end token is looked at: reading takes the same steps and gives the same
statements and errors without it. A list that has no end token is read as if one stood behind it, on
the line of its last token. -/
theorem reading_stops_at_first_end :
    (∀ tokens : List Token, parse (throughEnd tokens) = parse tokens ∧
      ∀ depth, (Walk.program depth (throughEnd tokens)).map (fun p => (p.1, p.2.deeds)) =
        (Walk.program depth tokens).map fun p => (p.1, p.2.deeds)) ∧
    ∀ (tokens : List Token) (last : Token), tokens.getLast? = some last →
      (∀ t ∈ tokens, t.kind ≠ .endOfFile) →
      parse (tokens ++ [⟨.endOfFile, "", .nil, last.line⟩]) = parse tokens ∧
        ∀ depth, Walk.program depth (tokens ++ [⟨.endOfFile, "", .nil, last.line⟩]) =
          Walk.program depth tokens := by
  refine ⟨fun tokens => ⟨parse_throughEnd tokens, (program_throughEnd · tokens)⟩, ?_⟩
  intro tokens last hlast hnoEnd
  have hnone : tokens.find? (·.kind = .endOfFile) = none :=
    List.find?_eq_none.mpr fun t ht hk => hnoEnd t ht (of_decide_eq_true hk)
  have hend : endToken tokens = ⟨.endOfFile, "", .nil, last.line⟩ := by
    rw [endToken, hnone, hlast]
    rfl
  have hclosed : IsEnd tokens ⟨.endOfFile, "", .nil, last.line⟩ := ⟨hnoEnd, rfl⟩
  have hwithEnd : withEnd (tokens ++ [⟨.endOfFile, "", .nil, last.line⟩]) = withEnd tokens := by
    rw [withEnd_of_noEnd hnoEnd, hend, withEnd, List.getLast?_concat]
    rfl
  constructor
  · rw [hclosed.parse_eq, parse_eq_declarations, beforeEnd_eq_self hnoEnd, hend]
  · intro depth
    rw [Walk.program, hwithEnd, Walk.program]

theorem reading_stops_at_first_end_between :
    ∃ (tokens : List Token) (last : Token), tokens.map Token.lexeme = ["print", "x"] ∧
      tokens.getLast? = some last ∧ (∀ t ∈ tokens, t.kind ≠ .endOfFile) ∧
      parse (tokens ++ [⟨.endOfFile, "", .nil, last.line⟩]) = parse tokens ∧
      parse (throughEnd (tokens ++ ⟨.endOfFile, "", .nil, last.line⟩ :: tokens)) =
        parse (tokens ++ ⟨.endOfFile, "", .nil, last.line⟩ :: tokens) := by
  have hnoEnd : ∀ t ∈ [(⟨.kwPrint, "print", .nil, 1⟩ : Token), ⟨.identifier, "x", .nil, 2⟩],
      t.kind ≠ .endOfFile := by decide
  exact ⟨_, _, rfl, rfl, hnoEnd, (reading_stops_at_first_end.2 _ _ rfl hnoEnd).1,
    (reading_stops_at_first_end.1 _).1⟩

end Scriptlet
