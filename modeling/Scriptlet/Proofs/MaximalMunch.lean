import Mathlib.Data.List.Forall2
import Scriptlet.Proofs.LexicalGrammar

/-!
Scanning finds what the lexical grammar says. The one division of a source text into longest
segments loses no character; its lexemes are the tokens, in order and in front of the end token,
and its other segments with an error are the errors.
-/

namespace Scriptlet

open List (Forall₂)

namespace Segment

def lexeme? : Segment → Option (TokenKind × List Char)
  | .token kind text => some (kind, text)
  | _ => none

/-- What is said about a segment that no lexeme, blank or comment starts. -/
def complaint? : Segment → Option String
  | .stray _ => some "invalid input"
  | .openString _ => some "Unterminated string."
  | _ => none

theorem literal_eq_nil {kind : TokenKind} (hnumber : kind ≠ .number) (hstring : kind ≠ .string)
    (text : List Char) : literal kind text = .nil := by
  unfold literal
  split
  · exact absurd rfl hnumber
  · exact absurd rfl hstring
  · rfl

end Segment

/-- The value of a token is the one that the grammar gives to its lexeme. -/
theorem Lexeme.literal_eq {kind : TokenKind} {text : List Char} {value : Literal}
    (h : Lexeme kind text value) : Segment.literal kind text = value := by
  cases h with
  | short h =>
      have hkinds : ∀ p ∈ shortSymbols, p.1 ≠ .number ∧ p.1 ≠ .string := by decide
      obtain ⟨hnumber, hstring⟩ := hkinds _ h
      exact Segment.literal_eq_nil hnumber hstring _
  | long h =>
      have hkinds : ∀ p ∈ longSymbols, p.1 ≠ .number ∧ p.1 ≠ .string := by decide
      obtain ⟨hnumber, hstring⟩ := hkinds _ h
      exact Segment.literal_eq_nil hnumber hstring _
  | string h => simp [Segment.literal]
  | whole h =>
      have htake := List.takeWhile_eq_self_iff.mpr h.digit
      have hdrop := List.dropWhile_eq_nil_iff.mpr h.digit
      simp only [Segment.literal, htake, hdrop, List.drop_nil]
  | fraction hw hf =>
      have hpoint : Char.isDigit '.' = false := rfl
      simp [Segment.literal, List.takeWhile_append_of_pos hw.digit,
        List.dropWhile_append_of_pos hw.digit, hpoint]
  | word hc h =>
      exact Segment.literal_eq_nil (Segment.wordKind_ne TokenKind.noConfusion (by decide) _)
        (Segment.wordKind_ne TokenKind.noConfusion (by decide) _) _

/-- The token of a lexeme, on whatever line it is. -/
structure Token.StandsFor (p : TokenKind × List Char) (t : Token) : Prop where
  kind : t.kind = p.1
  lexeme : t.lexeme = String.ofList p.2
  literal : Lexeme t.kind p.2 t.literal

theorem Division.lexeme_of_mem {source : List Char} {segs : List Segment} (h : Division source segs)
    {kind : TokenKind} {text : List Char} (hmem : .token kind text ∈ segs) :
    Lexeme kind text (Segment.literal kind text) := by
  induction h with
  | nil => cases hmem
  | cons hcut _ ih =>
      obtain rfl | hmem := List.mem_cons.mp hmem
      · cases hcut with
        | longest h _ =>
            cases h with
            | token h => exact h.literal_eq ▸ h
      · exact ih hmem

theorem standsFor_ofSegments {segs : List Segment}
    (h : ∀ kind text, .token kind text ∈ segs → Lexeme kind text (Segment.literal kind text))
    (line : Int) :
    ∃ front last, (Scan.ofSegments line segs).tokens = front ++ [last] ∧
      Forall₂ Token.StandsFor (segs.filterMap Segment.lexeme?) front ∧
      last.kind = .endOfFile ∧ last.lexeme = "" ∧ last.literal = .nil := by
  induction segs generalizing line with
  | nil => exact ⟨[], _, rfl, .nil, rfl, rfl, rfl⟩
  | cons s rest ih =>
      obtain ⟨front, last, htokens, hstands, hlast⟩ :=
        ih (fun kind text hmem => h kind text (List.mem_cons_of_mem _ hmem)) (line + s.newlines)
      rw [Scan.ofSegments, htokens]
      cases s with
      | token kind text =>
          exact ⟨_ :: front, last, rfl, .cons ⟨rfl, rfl, h kind text List.mem_cons_self⟩ hstands,
            hlast⟩
      | blank c | comment text | stray c | openString text =>
          exact ⟨front, last, rfl, hstands, hlast⟩

theorem complaints_ofSegments (line : Int) (segs : List Segment) :
    (Scan.ofSegments line segs).errors.map (fun e => e.fault.message) =
      segs.filterMap Segment.complaint? := by
  induction segs generalizing line with
  | nil => rfl
  | cons s rest ih =>
      rw [Scan.ofSegments, List.map_append, ih]
      cases s <;> rfl

/-- There is one division of a source text into longest segments. It loses nothing; its lexemes
are the tokens in front of the only end token, and its faulty segments are the errors. -/
theorem scan_finds_longest_segments (codes : List Int) :
    ∃ segs front last,
      (∀ segs', Division (codes.map Text.charOfInt) segs' ↔ segs' = segs) ∧
      segs.flatMap Segment.text = codes.map Text.charOfInt ∧
      (scanCodes codes).tokens = front ++ [last] ∧
      Forall₂ Token.StandsFor (segs.filterMap Segment.lexeme?) front ∧
      (∀ t ∈ front, t.kind ≠ .endOfFile) ∧
      (last.kind = .endOfFile ∧ last.lexeme = "" ∧ last.literal = .nil) ∧
      (scanCodes codes).errors.map (fun e => e.fault.message) =
        segs.filterMap Segment.complaint? := by
  have hdivision := division_segments (codes.map Text.charOfInt)
  obtain ⟨front, last, htokens, hstands, hlast⟩ :=
    standsFor_ofSegments (fun _ _ => hdivision.lexeme_of_mem) 1
  obtain ⟨front', last', htokens', hfront, -⟩ := exists_end_scan (codes.map Text.charOfInt)
  have hsame : front = front' := (List.append_inj' (htokens.symm.trans htokens') rfl).1
  exact ⟨_, front, last, fun _ => division_iff, flatMap_text_segments _, htokens, hstands,
    hsame ▸ hfront, hlast, complaints_ofSegments 1 _⟩

end Scriptlet
