import Scriptlet.Proofs.EvaluationSafety
import Scriptlet.Session

/-!
Running source text. Whatever the text, a session that holds values of the language only ends with
a runtime error at one of the tokens of the text at worst, and holds such values afterwards. From
any other values it may also crash, but its tree has no defects.
-/

namespace Scriptlet

theorem endToken_mem_scan (source : List Char) :
    endToken (scan source).tokens ∈ (scan source).tokens := by
  obtain ⟨front, last, htokens, hfront, hlast⟩ := exists_end_scan source
  rw [htokens, IsEnd.endToken_eq ⟨hfront, hlast⟩]
  exact List.mem_append_right _ (List.mem_singleton.mpr rfl)

/-- The tree of a source text is made of the tokens of that text. -/
theorem wellFormed_parse_scan (source : List Char) :
    WellFormedProgram (· ∈ (scan source).tokens) (parse (scan source).tokens).program :=
  (parse_within (endToken_mem_scan source) fun _ ht => ht).1

/-- Whatever values a session holds, a run of a source text comes upon no defect of its tree. -/
theorem yields_source (budget : Nat) (source : List Char) (m : Machine) :
    Yields (Fault.Arises (· ∈ (scan source).tokens) fun _ => True) (fun _ => True)
      (executeAll budget (parse (scan source).tokens).program m).1 := by
  have hany : m.scopes.Holds fun _ => True := ⟨fun _ _ _ _ => trivial, fun _ _ => trivial⟩
  exact (executeAll_holds (fun _ => literalFits_ofSegments) (fun _ _ => trivial) budget
    (wellFormed_parse_scan source) hany).1

/-- How a run may end: never by a crash, and with a report only of a runtime error at one of the
tokens in `T`. -/
structure Transcript.OnlyRaisesAt (T : Token → Prop) (t : Transcript) : Prop where
  notCrashed : t.ending ≠ .crashed
  raised : t.ending = .outcome .runtimeError →
    ∃ e, t.failure = some (.runtime e) ∧ e.RaisedAt T
  noReport : t.ending ≠ .outcome .runtimeError → t.failure = none

theorem Session.onlyRaisesAt_execute {T : Token → Prop} (hT : ∀ t, T t → t.LiteralFits)
    {program : List Stmt} (hprogram : WellFormedProgram T program) (budget : Nat) {s : Session}
    (h : s.scopes.Present) (listing : String) :
    (s.execute budget listing program).1.OnlyRaisesAt T ∧
      (s.execute budget listing program).2.scopes.Present := by
  obtain ⟨hyields, hpresent⟩ :=
    executeAll_holds hT (fun _ hv => hv) budget hprogram (m := { scopes := s.scopes }) h
  simp only [Session.execute]
  split
  · exact ⟨⟨Ending.noConfusion, by simp, fun _ => rfl⟩, hpresent⟩
  · next e heq =>
    rw [heq] at hyields
    exact ⟨⟨by simp, fun _ => ⟨e, rfl, hyields⟩, fun hne => absurd rfl hne⟩, hpresent⟩
  · next heq =>
    rw [heq] at hyields
    exact hyields.elim
  · next heq =>
    rw [heq] at hyields
    exact absurd rfl hyields
  · exact ⟨⟨by simp, by simp, fun _ => rfl⟩, hpresent⟩

/-- Source text raises no error but runtime errors, at tokens of its own. -/
theorem run_raises_only_at_tokens (budget : Nat) (s : Session) (source : List Char)
    (h : s.scopes.Present) :
    (s.run budget source).1.OnlyRaisesAt (· ∈ (scan source).tokens) ∧
      (s.run budget source).2.scopes.Present := by
  simp only [Session.run]
  split
  · exact ⟨⟨by simp, by simp, fun _ => rfl⟩, h⟩
  · exact Session.onlyRaisesAt_execute (fun _ => literalFits_ofSegments)
      (wellFormed_parse_scan source) budget h _

theorem run_raises_only_at_tokens_mixed :
    ∃ s : Session, s.scopes = ⟨[], ⟨[("x", .number 1), ("y", .string "a")]⟩⟩ ∧
      s.scopes.Present ∧
      (s.run 1 "while (x) print x - y;".toList).1.OnlyRaisesAt
        (· ∈ (scan "while (x) print x - y;".toList).tokens) ∧
      (s.run 1 "while (x) print x - y;".toList).2.scopes.Present := by
  have h : Scopes.Present ⟨[], ⟨[("x", .number 1), ("y", .string "a")]⟩⟩ :=
    ⟨List.forall_mem_nil _, List.forall_mem_cons.mpr
      ⟨Value.noConfusion, List.forall_mem_singleton.mpr Value.noConfusion⟩⟩
  exact ⟨{ scopes := _ }, rfl, h, run_raises_only_at_tokens 1 _ _ h⟩

end Scriptlet
