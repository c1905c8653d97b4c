import Scriptlet.Proofs.GrammarAcceptance

/-!
Token lists one behind the other. A program without errors is read without looking further than
to see whether an `else` follows it, so whatever stands behind it is read as if it stood alone.
-/

namespace Scriptlet

theorem endToken_append {front back : List Token} (h : ∀ t ∈ front, t.kind ≠ .endOfFile)
    (hback : back ≠ []) : endToken (front ++ back) = endToken back := by
  have hnone : front.find? (·.kind = .endOfFile) = none := by
    apply List.find?_eq_none.mpr
    intro t ht hk
    exact h t ht (of_decide_eq_true hk)
  have hlast : (front ++ back).getLast? = back.getLast? := by
    rw [List.getLast?_append, List.getLast?_eq_some_getLast hback, Option.some_or]
  simp only [endToken, List.find?_append, hnone, Option.none_or, hlast]

theorem noElse_beforeEnd {tokens : List Token} (h : Derivation.NoElse tokens) :
    Derivation.NoElse (beforeEnd tokens) := by
  cases tokens with
  | nil => exact h
  | cons t rest =>
      intro u hu
      simp only [beforeEnd, List.takeWhile_cons] at hu
      split at hu
      · exact h u hu
      · cases hu

/-- Behind a program without errors, any token list that does not start with `else` is read as it
is alone, errors and all. -/
theorem parse_append_of_errorFree {a b : List Token} (hend : ∀ t ∈ a, t.kind ≠ .endOfFile)
    (ha : (parse a).errors = []) (hb : Derivation.NoElse b) :
    (parse (a ++ b)).program = (parse a).program ++ (parse b).program ∧
      (parse (a ++ b)).errors = (parse b).errors := by
  by_cases hempty : b = []
  · -- The lines of the two end tokens may differ, but no error shows them.
    have hnil : parse [] = ⟨[], []⟩ := by
      rw [parse_eq_declarations]
      simp [beforeEnd, declarations]
    rw [hempty, List.append_nil, hnil, ha, List.append_nil]
    exact ⟨rfl, rfl⟩
  · obtain ⟨ds, htokens, nearest, hprogram⟩ := exists_derivation_of_parse ha
    rw [beforeEnd_eq_self hend] at htokens
    have hextends := ds.extends (endToken b) false nearest (noElse_beforeEnd hb)
    rw [htokens] at hextends
    rw [parse_eq_declarations (a ++ b), beforeEnd_append hend, endToken_append hend hempty,
      ← hprogram]
    exact ⟨hextends.program_eq, hextends.reports_eq⟩

theorem parse_append_of_errorFree_junk :
    ∃ a b : List Token,
      a.map Token.lexeme = ["if", "(", "x", ")", "print", "x", ";"] ∧
      b.map Token.lexeme = [")", ";", "\x7b", "", "else"] ∧
      (∀ t ∈ a, t.kind ≠ .endOfFile) ∧ (parse a).errors = [] ∧ Derivation.NoElse b ∧
      (parse (a ++ b)).program = (parse a).program ++ (parse b).program ∧
      (parse (a ++ b)).errors = (parse b).errors := by
  have hend : ∀ t ∈ ([⟨.kwIf, "if", .nil, 1⟩, ⟨.leftParen, "(", .nil, 1⟩,
      ⟨.identifier, "x", .nil, 1⟩, ⟨.rightParen, ")", .nil, 1⟩, ⟨.kwPrint, "print", .nil, 2⟩,
      ⟨.identifier, "x", .nil, 2⟩, ⟨.semicolon, ";", .nil, 2⟩] : List Token),
      t.kind ≠ .endOfFile := by decide
  have hb : Derivation.NoElse [⟨.rightParen, ")", .nil, 3⟩, ⟨.semicolon, ";", .nil, 3⟩,
      ⟨.leftBrace, "\x7b", .nil, 3⟩, ⟨.endOfFile, "", .nil, 4⟩, ⟨.kwElse, "else", .nil, 4⟩] :=
    Derivation.noElse_cons _ (by decide)
  exact ⟨_, _, rfl, rfl, hend, by cbv, hb, parse_append_of_errorFree hend (by cbv) hb⟩

end Scriptlet
