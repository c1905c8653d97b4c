import Scriptlet.Proofs.DerivationWords
import Scriptlet.Proofs.NearestElse
import Scriptlet.Proofs.ParserSoundness

/-!
The parser accepts exactly the words of the grammar, and the program that it returns is the tree of
the derivation in which every `else` belongs to the nearest conditional.
-/

namespace Scriptlet

open Scriptlet.Derivation Grammar

/-- A derivation of the nearest-else kind is read as the tree that it stands for. -/
theorem parse_of_derivation {tokens : List Token} {ds : Derivation.Declarations}
    (h : ds.tokens = beforeEnd tokens) (nearest : ds.NearestElse) :
    parse tokens = ⟨ds.program, []⟩ := by
  have hnil : NoElse [] := fun t ht => by cases ht
  have hread := (ds.extends (endToken tokens) false nearest hnil).reads
    (declarations_reads_nil.mpr ⟨rfl, rfl⟩)
  rw [List.append_nil, List.append_nil, h] at hread
  rw [parse_eq_declarations, hread.program_eq, hread.reports_eq]

/-- What is read without errors has a derivation. -/
theorem exists_derivation_of_parse {tokens : List Token} (h : (parse tokens).errors = []) :
    ∃ ds : Derivation.Declarations, ds.tokens = beforeEnd tokens ∧ ds.NearestElse ∧
      ds.program = (parse tokens).program := by
  have hread : (declarations (endToken tokens) false (beforeEnd tokens)).Reads
      (parse tokens).program [] := ⟨rfl, rest_declarations _ _, h⟩
  obtain ⟨ds, hprogram, htokens, nearest⟩ := declarations_sound _ _ _ hread
  exact ⟨ds, by rw [htokens, List.append_nil], nearest, hprogram⟩

/-- Reading succeeds exactly on the words of the grammar, and then gives the tree of any derivation
that hands each `else` to the nearest conditional; there is always one. -/
theorem parse_recognizes_grammar (tokens : List Token) :
    ((parse tokens).errors = [] ↔
      Derives (.rule .program) ((beforeEnd tokens).map Token.kind)) ∧
    ∀ program : List Stmt, (parse tokens).errors = [] ∧ (parse tokens).program = program ↔
      ∃ ds : Derivation.Declarations, ds.tokens = beforeEnd tokens ∧ ds.NearestElse ∧
        ds.program = program := by
  constructor
  · rw [derives_program_iff]
    constructor
    · intro h
      obtain ⟨ds, hds, -⟩ := exists_derivation_of_parse h
      exact ⟨ds, hds⟩
    · intro h
      obtain ⟨ds, hds⟩ := h
      rw [parse_of_derivation (ds.tokens_settle.trans hds) ds.nearestElse_settle]
  · intro program
    constructor
    · intro h
      obtain ⟨ds, hds, nearest, hprogram⟩ := exists_derivation_of_parse h.1
      exact ⟨ds, hds, nearest, hprogram.trans h.2⟩
    · intro h
      obtain ⟨ds, hds, nearest, hprogram⟩ := h
      rw [parse_of_derivation hds nearest]
      exact ⟨rfl, hprogram⟩

end Scriptlet
