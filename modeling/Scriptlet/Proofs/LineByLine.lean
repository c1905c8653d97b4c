import Scriptlet.Proofs.AlikeReading
import Scriptlet.Proofs.GrammarAcceptance
import Scriptlet.Proofs.LineNumbers
import Scriptlet.Session

/-!
Running texts one after another and running them as one text. Two texts without errors, joined by
a newline, read as the program of the first followed by that of the second, whose tokens stand
further down; the joined text then shows what the two runs show, one behind the other.
-/

namespace Scriptlet

open List (Forall₂)

/-- The second token is the first one, `n` lines further down. -/
def IsBelow (n : Int) (t t' : Token) : Prop := t' = t.below n

theorem keepsMeaning_isBelow (n : Int) : KeepsMeaning (IsBelow n) where
  kind := by
    intro t t' h
    rw [h]
    rfl
  literal := by
    intro t t' h
    rw [h]
    rfl
  lexeme := by
    intro t t' h _
    rw [h]
    rfl

theorem forall₂_isBelow (n : Int) (tokens : List Token) :
    Forall₂ (IsBelow n) tokens (tokens.map (Token.below n)) := by
  induction tokens with
  | nil => exact .nil
  | cons t tokens ih => exact .cons rfl ih

/-- A text without lexical and syntax errors. -/
structure ErrorFree (source : List Char) : Prop where
  lexical : (scan source).errors = []
  syntactic : (parse (scan source).tokens).errors = []

theorem noElse_of_errors {front : List Token} {last : Token} (hend : IsEnd front last)
    (h : (parse (front ++ [last])).errors = []) : Derivation.NoElse front := by
  obtain ⟨ds, hds, -⟩ := exists_derivation_of_parse h
  have hnil : Derivation.NoElse [] := fun t ht => by cases ht
  have hnoElse := ds.noElse hnil
  rwa [List.append_nil, hds, hend.beforeEnd_eq] at hnoElse

theorem noElse_alike {R : Token → Token → Prop} (hR : KeepsMeaning R) {s s' : List Token}
    (h : Forall₂ R s s') (hs : Derivation.NoElse s) : Derivation.NoElse s' := by
  cases h with
  | nil => exact hs
  | cons ht _ => exact Derivation.noElse_cons _ (hR.kind ht ▸ hs _ rfl)

theorem kinds_alike {R : Token → Token → Prop} (hR : KeepsMeaning R) {s s' : List Token}
    (h : Forall₂ R s s') {k : TokenKind} (hs : ∀ t ∈ s, t.kind ≠ k) : ∀ t ∈ s', t.kind ≠ k := by
  induction h with
  | nil => exact hs
  | cons ht _ ih =>
      obtain ⟨hhead, htail⟩ := List.forall_mem_cons.mp hs
      exact List.forall_mem_cons.mpr ⟨hR.kind ht ▸ hhead, ih htail⟩

/-- Behind a program without errors, tokens that mean the same as those of a second one read as
that program. -/
theorem parse_append_alike {R : Token → Token → Prop} (hR : KeepsMeaning R)
    {front back back' : List Token} {first last last' : Token} (hfront : IsEnd front first)
    (hback : IsEnd back last) (ha : (parse (front ++ [first])).errors = [])
    (hb : (parse (back ++ [last])).errors = []) (h : Forall₂ R back back') (hlast : R last last') :
    (parse (front ++ back' ++ [last'])).errors = [] ∧
      ∃ later, (parse (front ++ back' ++ [last'])).program =
          (parse (front ++ [first])).program ++ later ∧
        AlikeProgramsIn R (parse (back ++ [last])).program later := by
  have hjoined : IsEnd (front ++ back') last' :=
    ⟨List.forall_mem_append.mpr ⟨hfront.front, kinds_alike hR h hback.front⟩,
      (hR.kind hlast).symm.trans hback.last⟩
  -- The first program has a derivation, so reading goes on behind it as if it started there.
  obtain ⟨ds, hds, nearest, hprogram⟩ := exists_derivation_of_parse ha
  rw [hfront.beforeEnd_eq] at hds
  have hextends := ds.extends last' false nearest (noElse_alike hR h (noElse_of_errors hback hb))
  have hlater := declarations_alike hR hlast false back h
  rw [hds] at hextends
  rw [hback.parse_eq] at hb ⊢
  rw [hjoined.parse_eq]
  have hnone : (declarations last false back).reports = [] := hb
  have hreports := hlater.reports
  rw [hnone] at hreports
  refine ⟨?_, (declarations last' false back').program, ?_, hlater.program⟩
  · rw [hextends.reports_eq, List.forall₂_nil_left_iff.mp hreports]
  · rw [hextends.program_eq, hprogram]

/-- Joined texts read as the first program followed by the second one, whose tokens have moved
down by the lines in front of them. -/
theorem parse_append_newline {a b : List Char} (ha : ErrorFree a) (hb : ErrorFree b) :
    ErrorFree (a ++ '\n' :: b) ∧
      ∃ later, (parse (scan (a ++ '\n' :: b)).tokens).program =
          (parse (scan a).tokens).program ++ later ∧
        AlikeProgramsIn (IsBelow (1 + a.count '\n')) (parse (scan b).tokens).program later := by
  obtain ⟨front, first, hfrontTokens, hfront, hfirst⟩ := exists_end_scan a
  obtain ⟨back, last, hbackTokens, hback, hlast⟩ := exists_end_scan b
  obtain ⟨htokens, herrors⟩ := scan_append_newline b (Scan.noOpenString_of_errors ha.lexical)
  have hjoined : (scan (a ++ '\n' :: b)).tokens =
      front ++ back.map (Token.below (1 + a.count '\n')) ++ [last.below (1 + a.count '\n')] := by
    rw [htokens, hfrontTokens, hbackTokens, List.dropLast_concat, List.map_append,
      List.append_assoc]
    rfl
  have hparse := parse_append_alike (keepsMeaning_isBelow (1 + a.count '\n')) ⟨hfront, hfirst⟩
    ⟨hback, hlast⟩ (hfrontTokens ▸ ha.syntactic) (hbackTokens ▸ hb.syntactic)
    (forall₂_isBelow _ back) rfl
  rw [← hjoined, ← hfrontTokens, ← hbackTokens] at hparse
  refine ⟨⟨?_, hparse.1⟩, hparse.2⟩
  rw [herrors, ha.lexical, hb.lexical]
  rfl

theorem executeAll_append (budget : Nat) (p q : List Stmt) (m : Machine) :
    executeAll budget (p ++ q) m =
      match executeAll budget p m with
      | (.error fault, m) => (.error fault, m)
      | (.ok (), m) => executeAll budget q m := by
  induction p generalizing m with
  | nil => rfl
  | cons s p ih =>
      simp only [List.cons_append, executeAll]
      cases execute budget s m with
      | mk result m =>
          cases result with
          | error fault => rfl
          | ok u => exact ih m

/-- How a run that gave this result ends. -/
def endingOf : Except Fault Unit → Ending
  | .ok () => .outcome .ok
  | .error (.error _) | .error (.defect _) => .outcome .runtimeError
  | .error .crash => .crashed
  | .error .exhausted => .exhausted

/-- What is told about a run that gave this result. -/
def reportOf : Except Fault Unit → Option Report
  | .error (.error e) => some (.runtime e)
  | .error (.defect d) => some (.ofDefect d)
  | _ => none

theorem Session.execute_eq (budget : Nat) (s : Session) (listing : String) (program : List Stmt)
    {result : Except Fault Unit} {m : Machine}
    (h : executeAll budget program { scopes := s.scopes } = (result, m)) :
    s.execute budget listing program =
      ({ ending := endingOf result, listing, output := m.output, log := m.log,
         failure := reportOf result },
        { s with scopes := m.scopes,
                 hadRuntimeError := s.hadRuntimeError || (reportOf result).isSome }) := by
  simp only [Session.execute, h]
  split <;> simp [endingOf, reportOf]

theorem Session.run_of_errorFree (budget : Nat) {s : Session} (hs : s.hadError = false)
    {source : List Char} (h : ErrorFree source) :
    ∃ listing, s.run budget source =
      s.execute budget listing (parse (scan source).tokens).program := by
  simp only [Session.run, Session.staticReports, h.lexical, h.syntactic, hs]
  exact ⟨_, rfl⟩

/-- The same error with the same message, `n` lines further down. -/
structure RuntimeError.IsBelow (n : Int) (e e' : RuntimeError) : Prop where
  kind : e'.kind = e.kind
  message : e'.message = e.message
  line : e'.token.line = e.token.line + n

/-- The same report; a runtime error is `n` lines further down. -/
inductive Report.IsBelow (n : Int) : Report → Report → Prop where
  | runtime {e e' : RuntimeError} (h : e.IsBelow n e') : IsBelow n (.runtime e) (.runtime e')
  | located (line : Int) (location message : String) :
      IsBelow n (.located line location message) (.located line location message)

theorem isSome_eq_of_rel {α : Type} {r : α → α → Prop} {o o' : Option α} (h : Option.Rel r o o') :
    o.isSome = o'.isSome := by
  cases h <;> rfl

theorem reportOf_alike {n : Int} {f f' : Fault} (h : f.Alike (IsBelow n) f') :
    endingOf (.error f') = endingOf (.error f) ∧
      Option.Rel (Report.IsBelow n) (reportOf (.error f)) (reportOf (.error f')) := by
  cases h with
  | error ht cause =>
      obtain rfl := ht
      exact ⟨rfl, .some (.runtime ⟨rfl, rfl, rfl⟩)⟩
  | defect d => exact ⟨rfl, .some (.located _ _ _)⟩
  | crash => exact ⟨rfl, .none⟩
  | exhausted => exact ⟨rfl, .none⟩

/-- Behind a program that ran without a fault, a second one runs as it does alone. -/
theorem executeAll_append_alike {n : Int} {budget : Nat} {p q q' : List Stmt} {σ : Scopes}
    {m : Machine} (hp : executeAll budget p { scopes := σ } = (.ok (), m))
    (hq : AlikeProgramsIn (IsBelow n) q q') :
    EndsAlike (Fault.Alike (IsBelow n)) (fun m₁ m₂ => m₂ = m₁.behind m)
      (executeAll budget q { scopes := m.scopes })
      (executeAll budget (p ++ q') { scopes := σ }) := by
  have hstart : m = ({ scopes := m.scopes } : Machine).behind m := by
    simp [Machine.behind]
  rw [executeAll_append, hp]
  exact Simulation.runs_executeAll (S := tokenSimulation (keepsMeaning_isBelow n) m) budget q hq
    hstart

/-- The whole run shows what the first and then the second one show, and ends like the second one,
with its error `n` lines further down. -/
structure Transcript.Joins (n : Int) (first second whole : Transcript) : Prop where
  ending : whole.ending = second.ending
  output : whole.output = first.output ++ second.output
  log : whole.log = first.log ++ second.log
  failure : Option.Rel (Report.IsBelow n) second.failure whole.failure

/-- Both runs show and report the same. -/
structure Transcript.Agrees (t t' : Transcript) : Prop where
  ending : t'.ending = t.ending
  output : t'.output = t.output
  log : t'.log = t.log
  failure : t'.failure = t.failure

section Joined

variable {budget : Nat} {s : Session} {listing listing' listing'' : String}
  {p q q' : List Stmt} {m : Machine}

theorem Session.joins_execute {n : Int}
    (hp : executeAll budget p { scopes := s.scopes } = (.ok (), m))
    (hq : AlikeProgramsIn (IsBelow n) q q') :
    Transcript.Joins n (s.execute budget listing p).1
        ((s.execute budget listing p).2.execute budget listing' q).1
        (s.execute budget listing'' (p ++ q')).1 ∧
      (s.execute budget listing'' (p ++ q')).2 =
        ((s.execute budget listing p).2.execute budget listing' q).2 := by
  have hfirst := s.execute_eq budget listing p hp
  have halike := executeAll_append_alike hp hq
  cases hsecond : executeAll budget q { scopes := m.scopes } with
  | mk result m₁ =>
      cases hwhole : executeAll budget (p ++ q') { scopes := s.scopes } with
      | mk result' m₂ =>
          rw [hsecond, hwhole] at halike
          rw [s.execute_eq budget listing'' _ hwhole, hfirst,
            Session.execute_eq budget _ listing' q hsecond]
          cases halike with
          | ok u hm =>
              subst hm
              exact ⟨⟨rfl, rfl, rfl, .none⟩, by simp [reportOf, Machine.behind]⟩
          | error hf hm =>
              subst hm
              obtain ⟨hending, hreport⟩ := reportOf_alike hf
              refine ⟨⟨hending, rfl, rfl, hreport⟩, ?_⟩
              have hnone : (reportOf (.ok ())).isSome = false := rfl
              simp only [isSome_eq_of_rel hreport, hnone, Bool.or_false, Machine.behind]

theorem Session.agrees_execute {fault : Fault}
    (hp : executeAll budget p { scopes := s.scopes } = (.error fault, m)) :
    Transcript.Agrees (s.execute budget listing p).1 (s.execute budget listing'' (p ++ q')).1 ∧
      (s.execute budget listing'' (p ++ q')).2 = (s.execute budget listing p).2 := by
  have hwhole : executeAll budget (p ++ q') { scopes := s.scopes } = (.error fault, m) := by
    rw [executeAll_append, hp]
  rw [s.execute_eq budget listing p hp, s.execute_eq budget listing'' _ hwhole]
  exact ⟨⟨rfl, rfl, rfl, rfl⟩, rfl⟩

end Joined

/-- Texts without errors, run one after another, do what they do as one text. -/
theorem run_joined_by_newline (budget : Nat) (s : Session) {a b : List Char} (ha : ErrorFree a)
    (hb : ErrorFree b) :
    ((s.run budget a).1.ending = .outcome .ok →
      Transcript.Joins (1 + a.count '\n') (s.run budget a).1
          ((s.run budget a).2.run budget b).1 (s.run budget (a ++ '\n' :: b)).1 ∧
        (s.run budget (a ++ '\n' :: b)).2 = ((s.run budget a).2.run budget b).2) ∧
    ((s.run budget a).1.ending ≠ .outcome .ok →
      Transcript.Agrees (s.run budget a).1 (s.run budget (a ++ '\n' :: b)).1 ∧
        (s.run budget (a ++ '\n' :: b)).2 = (s.run budget a).2) := by
  cases hs : s.hadError with
  | true =>
      -- Neither text is run.
      simp only [Session.run, hs, Bool.true_or, if_true]
      refine ⟨fun hok => ?_, fun _ => ⟨⟨rfl, rfl, rfl, rfl⟩, trivial⟩⟩
      cases hok
  | false =>
      obtain ⟨hjoined, later, hprogram, hlater⟩ := parse_append_newline ha hb
      obtain ⟨listing, hrun⟩ := Session.run_of_errorFree budget hs ha
      obtain ⟨listing'', hwhole⟩ := Session.run_of_errorFree budget hs hjoined
      rw [hrun, hwhole, hprogram]
      cases hp : executeAll budget (parse (scan a).tokens).program { scopes := s.scopes } with
      | mk result m =>
          have hfirst := s.execute_eq budget listing _ hp
          cases result with
          | ok u =>
              have hs' : (s.execute budget listing (parse (scan a).tokens).program).2.hadError =
                  false := by rw [hfirst]; exact hs
              obtain ⟨listing', hsecond⟩ := Session.run_of_errorFree budget hs' hb
              rw [hsecond]
              refine ⟨fun _ => Session.joins_execute hp hlater, fun hne => ?_⟩
              exact absurd (by rw [hfirst]; rfl) hne
          | error fault =>
              refine ⟨fun hok => ?_, fun _ => Session.agrees_execute hp⟩
              rw [hfirst] at hok
              cases fault <;> cases hok

/-- A unary expression stands wherever an expression may. -/
def Derivation.Operators.lift (e : Operators none) : Assignment :=
  .operators (.chain (.chain (.chain (.chain (.chain (.chain e .nil) .nil) .nil) .nil) .nil) .nil)

theorem Derivation.Operators.tokens_lift (e : Operators none) : e.lift.tokens = e.tokens := by
  simp only [lift, Assignment.tokens, Operators.tokens, Links.tokens, List.append_nil]
  rfl

theorem errorFree_of_unary {source : List Char} (e : Derivation.Operators none)
    (semicolon : Derivation.Leaf .semicolon) (hscan : (scan source).errors = [])
    (htokens : beforeEnd (scan source).tokens = e.tokens ++ [semicolon.1]) :
    ErrorFree source := by
  refine ⟨hscan, ?_⟩
  have hds : (Derivation.Declarations.statement (.expression e.lift semicolon) .nil).tokens =
      beforeEnd (scan source).tokens := by
    rw [htokens, Derivation.Declarations.tokens, Derivation.Statement.tokens, e.tokens_lift]
    exact List.append_nil _
  rw [parse_of_derivation hds ⟨trivial, trivial⟩]

theorem run_joined_by_newline_comment :
    ∃ a b : List Char, a = "\"one\ntwo\"; // three".toList ∧ b = "-x;".toList ∧
      ErrorFree a ∧ ErrorFree b ∧
      ((Session.run 1 {} a).1.ending = .outcome .ok →
        Transcript.Joins (1 + a.count '\n') (Session.run 1 {} a).1
            ((Session.run 1 {} a).2.run 1 b).1 (Session.run 1 {} (a ++ '\n' :: b)).1 ∧
          (Session.run 1 {} (a ++ '\n' :: b)).2 = ((Session.run 1 {} a).2.run 1 b).2) ∧
      ((Session.run 1 {} a).1.ending ≠ .outcome .ok →
        Transcript.Agrees (Session.run 1 {} a).1 (Session.run 1 {} (a ++ '\n' :: b)).1 ∧
          (Session.run 1 {} (a ++ '\n' :: b)).2 = (Session.run 1 {} a).2) := by
  have ha : ErrorFree "\"one\ntwo\"; // three".toList :=
    errorFree_of_unary (.constant ⟨⟨.string, "\"one\ntwo\"", .string "one\ntwo", 2⟩, rfl⟩)
      ⟨⟨.semicolon, ";", .nil, 2⟩, rfl⟩ (by decide +kernel) (by decide +kernel)
  have hb : ErrorFree "-x;".toList :=
    errorFree_of_unary (.prefixed ⟨⟨.minus, "-", .nil, 1⟩, .inr rfl⟩
        (.name ⟨⟨.identifier, "x", .nil, 1⟩, rfl⟩))
      ⟨⟨.semicolon, ";", .nil, 1⟩, rfl⟩ (by decide +kernel) (by decide +kernel)
  exact ⟨_, _, rfl, rfl, ha, hb, run_joined_by_newline 1 {} ha hb⟩

end Scriptlet
