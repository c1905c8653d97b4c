import Scriptlet.Proofs.LineByLine
import Scriptlet.Proofs.SessionSafety

/-!
The history of a session: runs and resets in any order. A run is refused because of its own errors
or of errors before it, and a refused run changes nothing but the memory of them. So between two
resets, once a run is refused all later ones are, and variables keep their values.
-/

namespace Scriptlet

namespace Session

inductive Call where
  | run (source : List Char)
  | reset

/-- A call, with the session before and after it and what it showed. -/
structure Step where
  before : Session
  call : Call
  shown : Option Transcript
  after : Session

def step (budget : Nat) (s : Session) : Call → Step
  | .run source => ⟨s, .run source, some (s.run budget source).1, (s.run budget source).2⟩
  | .reset => ⟨s, .reset, none, s.reset⟩

/-- Calls made one after another. -/
def history (budget : Nat) : Session → List Call → List Step
  | _, [] => []
  | s, call :: calls => s.step budget call :: (s.step budget call).after.history budget calls

/-- What a run of a source text does to the session and tells, when nothing is to be listed. -/
structure RunRule (s : Session) (source : List Char) (t : Transcript) (s' : Session) : Prop where
  refused : t.ending = .outcome .syntaxError ↔ s.hadError = true ∨ ¬ ErrorFree source
  unchanged : t.ending = .outcome .syntaxError →
    s'.scopes = s.scopes ∧ s'.hadRuntimeError = s.hadRuntimeError ∧ t.output = #[]
  hadError : s'.hadError = true ↔ s.hadError = true ∨ ¬ ErrorFree source
  hadRuntimeError : s'.hadRuntimeError = true ↔
    s.hadRuntimeError = true ∨ t.ending = .outcome .runtimeError
  /-- Lexical errors first, then syntax errors, then the runtime error if there is one. -/
  reports : ∃ raised : List RuntimeError,
    t.reports = (scan source).errors.map Report.ofLexical ++
      (parse (scan source).tokens).errors.map Report.ofSyntax ++ raised.map Report.runtime ∧
    raised.length = if t.ending = .outcome .runtimeError then 1 else 0
  quiet : t.listing = ""

inductive Step.Lawful : Step → Prop where
  | run {s s' : Session} {source : List Char} {t : Transcript} (h : s.RunRule source t s') :
      Lawful ⟨s, .run source, some t, s'⟩
  | reset (s : Session) : Lawful ⟨s, .reset, none, s.reset⟩

def Step.IsRefused (step : Step) : Prop :=
  step.shown.map Transcript.ending = some (.outcome .syntaxError)

/-- Runs that are not refused, followed by runs that are and find the same variables throughout. -/
def EndsRefused (steps : List Step) : Prop :=
  ∃ live refused σ, steps = live ++ refused ∧ (∀ step ∈ live, ¬ step.IsRefused) ∧
    ∀ step ∈ refused, step.IsRefused ∧ step.before.scopes = σ ∧ step.after.scopes = σ

end Session

theorem errorFree_iff_staticReports {source : List Char} :
    ErrorFree source ↔
      Session.staticReports (scan source) (parse (scan source).tokens) = [] := by
  simp only [Session.staticReports, List.append_eq_nil_iff, List.map_eq_nil_iff]
  constructor
  · intro h
    exact ⟨h.lexical, h.syntactic⟩
  · intro h
    exact ⟨h.1, h.2⟩

theorem isSome_reportOf_iff (result : Except Fault Unit) :
    (reportOf result).isSome = true ↔ endingOf result = .outcome .runtimeError := by
  cases result with
  | ok u => simp [reportOf, endingOf]
  | error fault => cases fault <;> simp [reportOf, endingOf]

theorem endingOf_ne_syntaxError (result : Except Fault Unit) :
    endingOf result ≠ .outcome .syntaxError := by
  cases result with
  | ok u => simp [endingOf]
  | error fault => cases fault <;> simp [endingOf]

/-- What is reported of a run without defects is its runtime error. -/
theorem exists_raised {T : Token → Prop} {V : Value → Prop} {result : Except Fault Unit}
    (h : Yields (Fault.Arises T V) (fun _ => True) result) :
    ∃ raised : List RuntimeError, (reportOf result).toList = raised.map Report.runtime ∧
      raised.length = if endingOf result = .outcome .runtimeError then 1 else 0 := by
  cases result with
  | ok u => exact ⟨[], rfl, by simp [endingOf]⟩
  | error fault =>
      cases fault with
      | error e => exact ⟨[e], rfl, by simp [endingOf]⟩
      | defect d => exact h.elim
      | crash | exhausted => exact ⟨[], rfl, by simp [endingOf]⟩

namespace Session

variable {s : Session} (budget : Nat)

theorem options_run (source : List Char) : (s.run budget source).2.options = s.options := by
  simp only [run, execute]
  split
  · rfl
  · split <;> rfl

theorem options_step (call : Call) : (s.step budget call).after.options = s.options := by
  cases call with
  | run source => exact options_run budget source
  | reset => rfl

theorem runRule_of_refused {source : List Char} (hoptions : s.options = {})
    (h : s.hadError = true ∨ ¬ ErrorFree source) :
    s.RunRule source (s.run budget source).1 (s.run budget source).2 := by
  have hguard : (s.hadError ||
      !(staticReports (scan source) (parse (scan source).tokens)).isEmpty) = true := by
    simpa [errorFree_iff_staticReports] using h
  simp only [run, hguard, if_true]
  constructor
  · exact iff_of_true rfl h
  · exact fun _ => ⟨rfl, rfl, rfl⟩
  · exact iff_of_true rfl h
  · simp
  · exact ⟨[], by simp [Transcript.reports, staticReports], rfl⟩
  · simp [hoptions]

theorem runRule_of_errorFree {source : List Char} (hoptions : s.options = {})
    (hs : s.hadError = false) (h : ErrorFree source) :
    s.RunRule source (s.run budget source).1 (s.run budget source).2 := by
  have hrun : s.run budget source =
      s.execute budget "" (parse (scan source).tokens).program := by
    simp only [run, staticReports, h.lexical, h.syntactic, hs, hoptions]
    rfl
  have hallowed : ¬ (s.hadError = true ∨ ¬ ErrorFree source) := by simp [hs, h]
  have hyields := yields_source budget source { scopes := s.scopes }
  cases heq : executeAll budget (parse (scan source).tokens).program { scopes := s.scopes } with
  | mk result m =>
      rw [heq] at hyields
      obtain ⟨raised, hraised, hlength⟩ := exists_raised hyields
      rw [hrun, s.execute_eq budget "" _ heq]
      constructor
      · exact iff_of_false (endingOf_ne_syntaxError result) hallowed
      · exact fun hending => absurd hending (endingOf_ne_syntaxError result)
      · exact iff_of_false (by simp [hs]) hallowed
      · rw [Bool.or_eq_true, isSome_reportOf_iff]
      · refine ⟨raised, ?_, hlength⟩
        rw [h.lexical, h.syntactic, ← hraised]
        rfl
      · rfl

/-- What one run does, whatever came before it. -/
theorem runRule_run (hoptions : s.options = {}) (source : List Char) :
    s.RunRule source (s.run budget source).1 (s.run budget source).2 := by
  by_cases h : s.hadError = true ∨ ¬ ErrorFree source
  · exact runRule_of_refused budget hoptions h
  · obtain ⟨hs, hfree⟩ := not_or.mp h
    exact runRule_of_errorFree budget hoptions (Bool.eq_false_iff.mpr hs) (not_not.mp hfree)

theorem lawful_step (hoptions : s.options = {}) (call : Call) : (s.step budget call).Lawful := by
  cases call with
  | run source => exact .run (runRule_run budget hoptions source)
  | reset => exact .reset s

variable {budget} {calls : List Call}

theorem lawful_of_mem_history (hoptions : s.options = {}) {step : Step}
    (h : step ∈ s.history budget calls) : step.Lawful := by
  induction calls generalizing s with
  | nil => cases h
  | cons call calls ih =>
      obtain rfl | h := List.mem_cons.mp h
      · exact lawful_step budget hoptions call
      · exact ih ((options_step budget call).trans hoptions) h

/-- What follows in a history is a history, from the session that was reached. -/
theorem exists_history_of_append (hoptions : s.options = {}) {front back : List Step}
    (h : s.history budget calls = front ++ back) :
    ∃ (s' : Session) (calls' : List Call), s'.options = {} ∧ s'.history budget calls' = back := by
  induction front generalizing s calls with
  | nil => exact ⟨s, calls, hoptions, h⟩
  | cons step front ih =>
      cases calls with
      | nil => cases h
      | cons call calls =>
          exact ih ((options_step budget call).trans hoptions) (List.cons.inj h).2

/-- While an error is remembered, every run is refused and keeps the variables. -/
theorem refused_of_hadError (hoptions : s.options = {}) (hs : s.hadError = true)
    {stretch back : List Step} (h : s.history budget calls = stretch ++ back)
    (hruns : ∀ step ∈ stretch, step.call ≠ .reset) :
    ∀ step ∈ stretch,
      step.IsRefused ∧ step.before.scopes = s.scopes ∧ step.after.scopes = s.scopes := by
  induction stretch generalizing s calls with
  | nil => exact List.forall_mem_nil _
  | cons step stretch ih =>
      cases calls with
      | nil => cases h
      | cons call calls =>
          obtain ⟨rfl, hrest⟩ := List.cons.inj h
          obtain ⟨hcall, hlater⟩ := List.forall_mem_cons.mp hruns
          cases call with
          | reset => exact absurd rfl hcall
          | run source =>
              have hrule := runRule_run budget hoptions source
              have hrefused := hrule.refused.mpr (.inl hs)
              have hscopes := (hrule.unchanged hrefused).1
              have hlater := ih ((options_run budget source).trans hoptions)
                (hrule.hadError.mpr (.inl hs)) hrest hlater
              refine List.forall_mem_cons.mpr ⟨⟨congrArg some hrefused, rfl, hscopes⟩, ?_⟩
              intro step hstep
              obtain ⟨hstep, hbefore, hafter⟩ := hlater step hstep
              exact ⟨hstep, hbefore.trans hscopes, hafter.trans hscopes⟩

/-- From one reset to the next, runs are refused from the first refused one on. -/
theorem endsRefused_of_append (hoptions : s.options = {}) {stretch back : List Step}
    (h : s.history budget calls = stretch ++ back)
    (hruns : ∀ step ∈ stretch, step.call ≠ .reset) : EndsRefused stretch := by
  induction stretch generalizing s calls with
  | nil => exact ⟨[], [], {}, rfl, List.forall_mem_nil _, List.forall_mem_nil _⟩
  | cons step stretch ih =>
      cases calls with
      | nil => cases h
      | cons call calls =>
          obtain ⟨rfl, hrest⟩ := List.cons.inj h
          obtain ⟨hcall, hlater⟩ := List.forall_mem_cons.mp hruns
          cases call with
          | reset => exact absurd rfl hcall
          | run source =>
              have hrule := runRule_run budget hoptions source
              have hoptions' := (options_run budget source).trans hoptions
              -- The first refused run leaves an error remembered, which refuses all later ones.
              by_cases hrefused : (s.run budget source).1.ending = .outcome .syntaxError
              · have hscopes := (hrule.unchanged hrefused).1
                have hremembered := hrule.hadError.mpr (hrule.refused.mp hrefused)
                refine ⟨[], _, s.scopes, rfl, List.forall_mem_nil _,
                  List.forall_mem_cons.mpr ⟨⟨congrArg some hrefused, rfl, hscopes⟩, ?_⟩⟩
                rw [← hscopes]
                exact refused_of_hadError hoptions' hremembered hrest hlater
              · obtain ⟨live, refused, σ, rfl, hlive, hσ⟩ := ih hoptions' hrest hlater
                have hstep : ¬ (s.step budget (.run source)).IsRefused :=
                  fun heq => hrefused (Option.some.inj heq)
                exact ⟨_ :: live, refused, σ, rfl, List.forall_mem_cons.mpr ⟨hstep, hlive⟩, hσ⟩

end Session

/-- In every history of a session that lists nothing, each run obeys the rule of runs, and runs
without a reset between them are refused from the first refused one on, with the variables as they
were then. -/
theorem history_obeys_rules (budget : Nat) (s : Session) (hoptions : s.options = {})
    (calls : List Session.Call) :
    (∀ step ∈ s.history budget calls, step.Lawful) ∧
    ∀ stretch, stretch <:+: s.history budget calls →
      (∀ step ∈ stretch, step.call ≠ .reset) → Session.EndsRefused stretch := by
  constructor
  · exact fun step hstep => Session.lawful_of_mem_history hoptions hstep
  · intro stretch hinfix hruns
    obtain ⟨front, back, hparts⟩ := hinfix
    rw [List.append_assoc] at hparts
    obtain ⟨s', calls', hoptions', hhistory⟩ :=
      Session.exists_history_of_append hoptions hparts.symm
    exact Session.endsRefused_of_append hoptions' hhistory hruns

theorem history_obeys_rules_reset :
    ∃ (s : Session) (calls : List Session.Call),
      s.options = {} ∧
      calls = [.run "print 1;".toList, .run "print".toList, .run "2;".toList, .reset,
        .run "@".toList] ∧
      (∀ step ∈ s.history 1 calls, step.Lawful) ∧
      Session.EndsRefused ((s.history 1 calls).take 3) := by
  refine ⟨{}, _, rfl, rfl, (history_obeys_rules 1 {} rfl _).1, ?_⟩
  refine (history_obeys_rules 1 {} rfl _).2 _ (List.take_prefix 3 _).isInfix ?_
  simp [Session.history, Session.step]

end Scriptlet
