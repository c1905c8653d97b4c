import Scriptlet.Proofs.InertBraces
import Scriptlet.Proofs.ParserSoundness

/-!
The meaning of `for` statements. What is read for one is a loop in a block, whose body is often a
block once more. It runs as the loop that one would expect: a single scope is opened for the first
clause, and the condition, the body and the increment of all rounds run in it. The clauses are those
that are written between the parentheses of the statement.
-/

namespace Scriptlet

open Scriptlet.Derivation (ForHead)

/-- Runs in one more scope, which is dropped however the run ends. -/
def Run.inScope (run : Run Unit) : Run Unit := fun m =>
  let ended := run { m with scopes := m.scopes.enter }
  let scopes := ended.2.scopes
  (ended.1, { ended.2 with scopes := ⟨scopes.locals.tail, scopes.globals⟩ })

namespace ForClauses

/-- A condition that is left out holds. -/
def test (clauses : ForClauses) : Run Value :=
  if clauses.condition.isMissing then fun m => (.ok (.bool true), m)
  else Machine.evaluate clauses.condition

def step (clauses : ForClauses) : Run Unit :=
  if clauses.increment.isMissing then Run.done
  else Run.andThen (Machine.evaluate clauses.increment) fun _ => Run.done

/-- The rounds of the loop, all in the scopes that they find. -/
def rounds (clauses : ForClauses) (body : Run Unit) : Nat → Run Unit
  | 0 => fun m => (.error .exhausted, m)
  | budget + 1 =>
    Run.andThen clauses.test fun v =>
      if v.isTruthy then
        Run.andThen body fun _ => Run.andThen clauses.step fun _ => clauses.rounds body budget
      else Run.done

/-- The loop with the given clauses. If there is a first clause, it opens the scope of the loop. -/
def run (clauses : ForClauses) (body : Run Unit) (budget : Nat) : Run Unit :=
  if clauses.initial.isMissing then clauses.rounds body budget
  else
    Run.inScope (Run.andThen (execute budget clauses.initial) fun _ => clauses.rounds body budget)

end ForClauses

theorem ForClauses.rounds_eq_iterate (clauses : ForClauses) (body : Run Unit) (budget : Nat) :
    clauses.rounds body budget =
      iterate clauses.test (Run.andThen body fun _ => clauses.step) budget := by
  induction budget with
  | zero => rfl
  | succ budget ih => simp only [rounds, iterate_succ, ih, Run.andThen_assoc]

section Runs

open Scopes (SameOuter)

variable {T : Token → Prop} {mask : List Bool} {clauses : ForClauses} {body : Stmt}

theorem evaluate_test (clauses : ForClauses) :
    Machine.evaluate (if clauses.condition.isMissing then .literal (.bool true)
      else clauses.condition) = clauses.test := by
  unfold ForClauses.test
  split <;> rfl

/-- The frame of the block around body and increment stays empty in every round, since a body is
never a bare declaration. -/
theorem padded_round (budget : Nat) (hbody : body.IsBranch T) :
    PaddedRuns mask (Run.andThen (execute budget body) fun _ => clauses.step)
      (execute budget (if clauses.increment.isMissing then body
        else .block [body, .expression clauses.increment])) := by
  obtain ⟨hnot, hwell⟩ := hbody
  have hnone := body.declaredNames_eq_nil (.inr hwell) hnot
  have hrun (mask : List Bool) := padded_execute budget mask body (.inr hwell) (.refl body)
    fun _ => hnone
  unfold ForClauses.step
  split
  · rw [Run.andThen_done]
    exact hrun mask
  · rw [execute_block, executeAll_cons, executeAll_singleton, execute_expression]
    refine padded_block_of_padded _ (endsAlike_andThen (hrun (true :: mask)) fun _ => ?_)
    exact endsAlike_andThen (padded_evaluate clauses.increment) fun _ => endsAlike_done

theorem padded_rounds (budget : Nat) (hbody : body.IsBranch T) :
    PaddedRuns mask (clauses.rounds (execute budget body) budget)
      (execute budget (.loop
        (if clauses.condition.isMissing then .literal (.bool true) else clauses.condition)
        (if clauses.increment.isMissing then body
          else .block [body, .expression clauses.increment]))) := by
  have htest : PaddedRuns mask clauses.test clauses.test := by
    rw [← evaluate_test]
    exact padded_evaluate _
  rw [clauses.rounds_eq_iterate, execute_loop, evaluate_test]
  exact endsAlike_iterate rfl htest (padded_round budget hbody) budget

theorem padded_inScope (size : Nat) {run run' : Run Unit}
    (houter : ∀ m, SameOuter m.scopes (run' m).2.scopes) (h : PaddedRuns [] run run') :
    PaddedRuns [] run.inScope (inBlock size run') := by
  intro m m' hm
  have henter : Machine.Padded [] { m with scopes := m.scopes.enter } (m'.enterBlock size) :=
    ⟨congrArg Scopes.enter hm.scopes, hm.output⟩
  obtain ⟨hresult, hpadded⟩ := endsAlike_eq_iff.mp (h henter)
  obtain ⟨σ, hleave, hglobals, hlocals, -⟩ := (houter (m'.enterBlock size)).leave?
  obtain ⟨hrun, hscopes, houtput⟩ := inBlock_of_leave? hleave
  have hσ : σ = ⟨(run' (m'.enterBlock size)).2.scopes.locals.tail,
      (run' (m'.enterBlock size)).2.scopes.globals⟩ := by
    rw [← hlocals, ← hglobals]
  refine endsAlike_eq_iff.mpr ⟨hrun.trans hresult, ?_, houtput.trans hpadded.output⟩
  rw [hscopes, hσ, hpadded.scopes]
  rfl

/-- What a `for` statement is read as runs as its loop. -/
theorem padded_loop (budget : Nat) (hclauses : clauses.WellFormed T) (hbody : body.IsBranch T) :
    PaddedRuns [] (clauses.run (execute budget body) budget)
      (execute budget (clauses.loop body)) := by
  have hrounds := @padded_rounds T [] clauses body budget hbody
  have hinitial := padded_execute budget [] clauses.initial hclauses.initial (.refl _)
    fun h => by cases h
  unfold ForClauses.run ForClauses.loop
  simp only
  split
  · exact hrounds
  · rw [execute_block]
    refine padded_inScope _ (executeAll_sameOuter budget _) ?_
    rw [executeAll_cons, executeAll_singleton]
    exact endsAlike_andThen hinitial fun _ => hrounds

end Runs

/-! The clauses as they are written, with or without something to report in them. -/

/-- What stands in a place that may be left empty, up to the token that closes the place. -/
inductive StandsBefore (closing : TokenKind) :
    List Token → Expr → List Token → List SyntaxError → Prop where
  | absent {t : Token} {r : List Token} (ht : t.kind = closing) :
      StandsBefore closing (t :: r) .missing r []
  | present {s r : List Token} {e : Expr} {t : Token} {reports : List SyntaxError}
      (he : (expression s).Gives e (t :: r) reports) (ht : t.kind = closing) :
      StandsBefore closing s e r reports

/-- What stands in the first place: nothing, a declaration or an expression. -/
inductive StandsFirst : List Token → Stmt → List Token → List SyntaxError → Prop where
  | absent {t : Token} {r : List Token} (ht : t.kind = .semicolon) :
      StandsFirst (t :: r) .missing r []
  | declaration {t : Token} {s r : List Token} {st : Stmt} {reports : List SyntaxError}
      (ht : t.kind = .kwVar) (hst : (variableDeclaration s).Gives st r reports) :
      StandsFirst (t :: s) st r reports
  | expression {s r : List Token} {e : Expr} {t : Token} {reports : List SyntaxError}
      (he : (expression s).Gives e (t :: r) reports) (ht : t.kind = .semicolon) :
      StandsFirst s (.expression e) r reports

/-- The clauses are what stands in the three places behind `for` and a parenthesis, in front of
the last tokens given. -/
inductive ForClauses.StandIn : ForClauses → List Token → List Token → List SyntaxError → Prop where
  | places {keyword opening : Token} {s r₁ r₂ r₃ : List Token} {clauses : ForClauses}
      {first second third : List SyntaxError} (hkeyword : keyword.kind = .kwFor)
      (hopening : opening.kind = .leftParen)
      (hinitial : StandsFirst s clauses.initial r₁ first)
      (hcondition : StandsBefore .semicolon r₁ clauses.condition r₂ second)
      (hincrement : StandsBefore .rightParen r₂ clauses.increment r₃ third) :
      ForClauses.StandIn clauses (keyword :: opening :: s) r₃ (first ++ (second ++ third))

section Places

variable {s r : List Token} {reports : List SyntaxError}

theorem expression_before {closing : TokenKind} {what : Expectation} {e : Expr}
    (h : ((expression s).andThen fun e rest => (expect closing what rest).map fun _ => e).Gives
      e r reports) :
    ∃ t, (expression s).Gives e (t :: r) reports ∧ t.kind = closing := by
  simp only [Parsed.andThen_gives, Parsed.map_gives, expect_gives] at h
  obtain ⟨_, _, _, _, he, ⟨t, ⟨⟨rfl, ht⟩, rfl⟩, rfl⟩, rfl⟩ := h
  rw [List.append_nil]
  exact ⟨t, he, ht⟩

theorem clause_standsBefore {closing : TokenKind} {what : Expectation} {e : Expr}
    (h : (clause closing what s).Gives e r reports) : StandsBefore closing s e r reports := by
  cases s with
  | nil => exact absurd h.1 (Nat.not_lt_zero _)
  | cons t s =>
      simp only [clause] at h
      split at h
      · next ht =>
        obtain ⟨rfl, rfl, rfl⟩ := Parsed.done_gives.mp h
        exact .absent ht
      · obtain ⟨u, he, hu⟩ := expression_before h
        exact .present he hu

theorem forInitial_standsFirst {st : Stmt} (h : (forInitial s).Gives st r reports) :
    StandsFirst s st r reports := by
  cases s with
  | nil => exact absurd h.1 (Nat.not_lt_zero _)
  | cons t s =>
      simp only [forInitial] at h
      split at h
      · next ht =>
        obtain ⟨rfl, rfl, rfl⟩ := Parsed.done_gives.mp h
        exact .absent ht
      · next ht =>
        obtain ⟨_, hst, rfl⟩ := Parsed.after_gives.mp h
        exact .declaration ht hst
      · obtain ⟨e, he, rfl⟩ := Parsed.map_gives.mp h
        obtain ⟨u, he, hu⟩ := expression_before he
        exact .expression he hu

theorem forClauses_standIn {keyword : Token} (hkeyword : keyword.kind = .kwFor)
    {clauses : ForClauses} (h : (forClauses s).Gives clauses r reports) :
    clauses.StandIn (keyword :: s) r reports := by
  simp only [forClauses, Parsed.andThen_gives, Parsed.map_gives, expect_gives] at h
  obtain ⟨opening, _, _, _, ⟨⟨rfl, hopening⟩, rfl⟩, ⟨_, _, _, _, hinitial, ⟨_, _, _, _, hcondition,
    ⟨_, hincrement, rfl⟩, rfl⟩, rfl⟩, rfl⟩ := h
  rw [List.nil_append]
  exact .places hkeyword hopening (forInitial_standsFirst hinitial)
    (clause_standsBefore hcondition) (clause_standsBefore hincrement)

end Places

/-- What a `for` statement was read as runs as the loop with the clauses that were read. -/
theorem sameButLog_loop {stop : Token} {s r rest : List Token} {clauses : ForClauses} {body : Stmt}
    {early late : List SyntaxError} (hclauses : (forClauses s).Gives clauses r early)
    (hbody : (statement stop r).Gives body rest late) (budget : Nat) (m : Machine) :
    SameButLog (clauses.run (execute budget body) budget m)
      (execute budget (clauses.loop body) m) := by
  obtain ⟨_, hclauses⟩ := hclauses
  obtain ⟨_, hbody⟩ := hbody
  have hcw := @forClauses_within (fun _ => True) s fun _ _ => trivial
  have hbw := @statement_within (fun _ => True) stop trivial r fun _ _ => trivial
  rw [hclauses] at hcw
  rw [hbody] at hbw
  exact (padded_loop budget hcw.1 hbw.1).sameButLog m

/-- A head as it is written, in front of any statement that can be read, gives the loop that the
head stands for, and this runs as the loop with the clauses of the head and that statement as its
body: with the same result, the same lines printed and the same scopes in the end. So does every
`for` statement that can be read, with the clauses that stand in it; if there is nothing to report
in front of its body, they are those of a written head. -/
theorem for_runs_as_loop (stop : Token) :
    (∀ (head : ForHead) {r rest : List Token} {body : Stmt} {late : List SyntaxError},
      (statement stop r).Gives body rest late →
        (statement stop (head.tokens ++ r)).Gives (head.loop body) rest late ∧
        ∀ (budget : Nat) (m : Machine),
          SameButLog (head.clauses.run (execute budget body) budget m)
            (execute budget (head.loop body) m)) ∧
    ∀ {keyword : Token} {s rest : List Token} {tree : Stmt} {reports : List SyntaxError},
      keyword.kind = .kwFor → (statement stop (keyword :: s)).Gives tree rest reports →
        ∃ clauses r early late body, clauses.StandIn (keyword :: s) r early ∧
          (statement stop r).Gives body rest late ∧ early ++ late = reports ∧
          (early = [] →
            ∃ head : ForHead, head.clauses = clauses ∧ keyword :: s = head.tokens ++ r) ∧
          ∀ (budget : Nat) (m : Machine),
            SameButLog (clauses.run (execute budget body) budget m) (execute budget tree m) := by
  constructor
  · intro head r rest body late hbody
    obtain ⟨s, htokens, hclauses⟩ := head.reads r
    rw [← head.loop_clauses, htokens]
    refine ⟨(statement_gives_for head.keyword.2).mpr ?_, sameButLog_loop hclauses hbody⟩
    exact ⟨head.clauses, r, [], late, body, hclauses, hbody, rfl, rfl⟩
  · intro keyword s rest tree reports hkeyword hread
    obtain ⟨clauses, r, early, late, body, hclauses, hbody, rfl, hreports⟩ :=
      (statement_gives_for hkeyword).mp hread
    refine ⟨clauses, r, early, late, body, forClauses_standIn hkeyword hclauses, hbody, hreports,
      ?_, sameButLog_loop hclauses hbody⟩
    rintro rfl
    exact forClauses_sound ⟨keyword, hkeyword⟩ hclauses

/-- An expression that is a single name. -/
def nameAlone (name : String) : Derivation.Assignment :=
  .operators (.chain (.chain (.chain (.chain (.chain (.chain
    (.name ⟨⟨.identifier, name, .nil, 1⟩, rfl⟩) .nil) .nil) .nil) .nil) .nil) .nil)

/-- The head `for (var i = x; i; y)`. -/
def headWithAll : ForHead where
  keyword := ⟨⟨.kwFor, "for", .nil, 1⟩, rfl⟩
  opening := ⟨⟨.leftParen, "(", .nil, 1⟩, rfl⟩
  initial := .declaration ⟨⟨⟨.kwVar, "var", .nil, 1⟩, rfl⟩, ⟨⟨.identifier, "i", .nil, 1⟩, rfl⟩,
    some (⟨⟨.equal, "=", .nil, 1⟩, rfl⟩, nameAlone "x"), ⟨⟨.semicolon, ";", .nil, 1⟩, rfl⟩⟩
  condition := some (nameAlone "i")
  semicolon := ⟨⟨.semicolon, ";", .nil, 1⟩, rfl⟩
  increment := some (nameAlone "y")
  closing := ⟨⟨.rightParen, ")", .nil, 1⟩, rfl⟩

theorem for_runs_as_loop_print :
    ∃ i x y : Token, ∃ s : List Token,
      s.map Token.lexeme =
        ["for", "(", "var", "i", "=", "x", ";", "i", ";", "y", ")", "print", "i", ";"] ∧
      (statement ⟨.endOfFile, "", .nil, 1⟩ s).Gives
        (.block [.declare i (.variable x), .loop (.variable i)
          (.block [.print (.variable i), .expression (.variable y)])]) [] [] ∧
      ∀ (budget : Nat) (m : Machine),
        SameButLog
          (ForClauses.run ⟨.declare i (.variable x), .variable i, .variable y⟩
            (execute budget (.print (.variable i))) budget m)
          (execute budget (.block [.declare i (.variable x), .loop (.variable i)
            (.block [.print (.variable i), .expression (.variable y)])]) m) := by
  have hbody : (statement ⟨.endOfFile, "", .nil, 1⟩ [⟨.kwPrint, "print", .nil, 1⟩,
      ⟨.identifier, "i", .nil, 1⟩, ⟨.semicolon, ";", .nil, 1⟩]).Gives
      (.print (.variable ⟨.identifier, "i", .nil, 1⟩)) [] [] :=
    ⟨Tokens.nil_lt_cons _ _, by cbv⟩
  exact ⟨⟨.identifier, "i", .nil, 1⟩, ⟨.identifier, "x", .nil, 1⟩, ⟨.identifier, "y", .nil, 1⟩,
    headWithAll.tokens ++ _, rfl, (for_runs_as_loop _).1 headWithAll hbody⟩

end Scriptlet
