import Scriptlet.Proofs.MaximalMunch

/-!
Lexemes with spaces between them. A space ends every lexeme where it ends by itself, so the lexemes
of any source text, joined by single spaces, are found again one by one, and nothing else is.
-/

namespace Scriptlet

/-- What a token says, wherever it stands. -/
def Token.content (t : Token) : TokenKind × String × Literal :=
  (t.kind, t.lexeme, t.literal)

namespace Segment

theorem isDigit_space : Char.isDigit ' ' = false := rfl

theorem starting_short_space (back : List Char) :
    ∀ p ∈ shortSymbols, starting p.2 (' ' :: back) = .token p.1 [p.2] := by
  simp only [shortSymbols, List.forall_mem_cons]
  exact ⟨rfl, rfl, rfl, rfl, rfl, rfl, rfl, rfl, rfl, rfl, rfl, rfl, rfl, rfl, rfl,
    List.forall_mem_nil _⟩

end Segment

open Segment (starting)

/-- A segment is cut off where the text in front of the rest starts it. -/
theorem segments_append {s : Segment} {c : Char} {text : List Char} (htext : s.text = c :: text)
    {rest : List Char} (hs : starting c (text ++ rest) = s) :
    segments (s.text ++ rest) = s :: segments rest := by
  rw [htext, List.cons_append, segments, hs, ← List.cons_append, ← htext, List.drop_left]

namespace Lexeme

variable {kind : TokenKind} {text : List Char} {value : Literal}

/-- A space ends a lexeme. -/
theorem starting_space (h : Lexeme kind text value) {c : Char} {rest : List Char}
    (htext : text = c :: rest) (back : List Char) :
    starting c (rest ++ ' ' :: back) = .token kind text := by
  cases h with
  | short h =>
      cases htext
      exact Segment.starting_short_space back _ h
  | long h =>
      cases htext
      exact Segment.starting_long _ _ h
  | string h =>
      cases htext
      rw [List.append_assoc, List.singleton_append, Segment.starting_string h]
  | whole h =>
      subst htext
      rw [Segment.starting_whole h.digit]
      simp [Segment.isDigit_space, Segment.fraction]
  | @fraction whole fraction hw hf =>
      cases whole with
      | nil => exact absurd rfl hw.nonempty
      | cons d ds =>
          cases htext
          rw [List.append_eq, Segment.starting_fraction hw.digit hf]
          simp [Segment.isDigit_space]
  | word hc h =>
      cases htext
      rw [Segment.starting_word hc h]
      simp [Segment.continuesWord_space]

theorem exists_cons (h : Lexeme kind text value) : ∃ c rest, text = c :: rest :=
  List.exists_cons_of_ne_nil (Lexical.token h).text_ne_nil

theorem segments_space (h : Lexeme kind text value) (back : List Char) :
    segments (text ++ ' ' :: back) = .token kind text :: .blank ' ' :: segments back := by
  obtain ⟨c, rest, htext⟩ := h.exists_cons
  have hlexeme := segments_append (s := .token kind text) htext (h.starting_space htext back)
  have hspace := segments_append (s := .blank ' ') (c := ' ') rfl
    (Segment.starting_blank back ' ' List.mem_cons_self)
  exact hlexeme.trans (congrArg (_ :: ·) hspace)

theorem segments_eq (h : Lexeme kind text value) : segments text = [.token kind text] := by
  obtain ⟨c, rest, htext⟩ := h.exists_cons
  have hlexeme := segments_append (s := .token kind text) htext
    (((Lexical.token h).starting_append htext []).2 rfl)
  rwa [List.append_nil, segments] at hlexeme

end Lexeme

/-- The segments of a list of lexemes with their kinds. -/
def tokenSegments (lexemes : List (TokenKind × List Char)) : List Segment :=
  lexemes.map fun p => .token p.1 p.2

/-- Lexemes without line breaks, and nothing else, are scanned to their tokens on one line. -/
theorem ofSegments_tokenSegments {lexemes : List (TokenKind × List Char)}
    (h : ∀ p ∈ lexemes, '\n' ∉ p.2) (line : Int) :
    Scan.ofSegments line (tokenSegments lexemes) =
      ⟨lexemes.map (fun p => ⟨p.1, String.ofList p.2, Segment.literal p.1 p.2, line⟩) ++
        [⟨.endOfFile, "", .nil, line⟩], []⟩ := by
  induction lexemes with
  | nil => rfl
  | cons p lexemes ih =>
      obtain ⟨hp, hrest⟩ := List.forall_mem_cons.mp h
      have hline : line + (Segment.token p.1 p.2).newlines = line := by
        rw [Segment.newlines_token hp]
        exact Int.add_zero line
      have hcons : tokenSegments (p :: lexemes) = .token p.1 p.2 :: tokenSegments lexemes := rfl
      rw [hcons, Scan.ofSegments, hline, ih hrest]
      rfl

theorem Lexeme.scan_eq {kind : TokenKind} {text : List Char} {value : Literal}
    (h : Lexeme kind text value) (hline : '\n' ∉ text) :
    scan text = ⟨[⟨kind, String.ofList text, value, 1⟩, ⟨.endOfFile, "", .nil, 1⟩], []⟩ := by
  have hlines : ∀ p ∈ [(kind, text)], '\n' ∉ p.2 := List.forall_mem_singleton.mpr hline
  rw [scan, h.segments_eq, ← h.literal_eq]
  exact ofSegments_tokenSegments hlines 1

/-- Cutting the joined lexemes gives back the lexemes, with the spaces between them. -/
theorem segments_intercalate {lexemes : List (TokenKind × List Char)}
    (h : ∀ p ∈ lexemes, ∃ value, Lexeme p.1 p.2 value) :
    segments (List.intercalate [' '] (lexemes.map Prod.snd)) =
      (tokenSegments lexemes).intersperse (.blank ' ') := by
  induction lexemes with
  | nil => rw [List.map_nil, List.intercalate_nil, segments]; rfl
  | cons p lexemes ih =>
      obtain ⟨⟨value, hp⟩, hrest⟩ := List.forall_mem_cons.mp h
      cases lexemes with
      | nil =>
          rw [List.map_singleton, List.intercalate_singleton, hp.segments_eq]
          rfl
      | cons q lexemes =>
          have hrest := ih hrest
          simp only [tokenSegments, List.map_cons, List.intercalate_cons_cons,
            List.intersperse_cons_cons, List.append_assoc, List.singleton_append] at hrest ⊢
          rw [hp.segments_space, hrest]

theorem filterMap_intersperse (lexemes : List (TokenKind × List Char)) :
    ((tokenSegments lexemes).intersperse (.blank ' ')).filterMap Segment.lexeme? = lexemes ∧
      ((tokenSegments lexemes).intersperse (.blank ' ')).filterMap Segment.complaint? = [] := by
  induction lexemes with
  | nil => exact ⟨rfl, rfl⟩
  | cons p lexemes ih =>
      cases lexemes with
      | nil => exact ⟨rfl, rfl⟩
      | cons q lexemes =>
          obtain ⟨hlexemes, hcomplaints⟩ := ih
          exact ⟨congrArg (p :: ·) hlexemes, hcomplaints⟩

theorem content_ofSegments (line : Int) (segs : List Segment) :
    (Scan.ofSegments line segs).tokens.map Token.content =
      (segs.filterMap Segment.lexeme?).map
          (fun p => (p.1, String.ofList p.2, Segment.literal p.1 p.2)) ++
        [(.endOfFile, "", .nil)] := by
  induction segs generalizing line with
  | nil => rfl
  | cons s rest ih =>
      rw [Scan.ofSegments, List.map_append, ih]
      cases s <;> rfl

theorem toList_intercalate_ofList (texts : List (List Char)) :
    (" ".intercalate (texts.map String.ofList)).toList = List.intercalate [' '] texts := by
  rw [String.toList_intercalate, List.map_map]
  have hinverse : String.toList ∘ String.ofList = id := funext fun _ => String.toList_ofList
  rw [hinverse, List.map_id]
  rfl

/-- The lexemes of the tokens in front of the end token. -/
theorem lexemes_scan (source : List Char) :
    ((scan source).tokens.filter (·.kind ≠ .endOfFile)).map Token.lexeme =
      (((segments source).filterMap Segment.lexeme?).map Prod.snd).map String.ofList := by
  obtain ⟨front, last, htokens, hfront, hlast⟩ := exists_end_scan source
  have hcontent := content_ofSegments 1 (segments source)
  rw [← scan, htokens, List.map_append] at hcontent
  have hcontent := (List.append_inj' hcontent rfl).1
  have hlexemes := congrArg (List.map fun content => content.2.1) hcontent
  rw [List.map_map, List.map_map] at hlexemes
  have hkept : (front ++ [last]).filter (·.kind ≠ .endOfFile) = front := by
    rw [List.filter_append, List.filter_eq_self.mpr fun t ht => decide_eq_true (hfront t ht)]
    simp [hlast]
  rw [htokens, hkept, List.map_map]
  exact hlexemes

theorem exists_lexeme_of_mem {source : List Char} {p : TokenKind × List Char}
    (h : p ∈ (segments source).filterMap Segment.lexeme?) : ∃ value, Lexeme p.1 p.2 value := by
  obtain ⟨s, hs, hlexeme⟩ := List.mem_filterMap.mp h
  cases s with
  | token kind text =>
      cases hlexeme
      exact ⟨_, (division_segments source).lexeme_of_mem hs⟩
  | blank c | comment text | stray c | openString text => cases hlexeme

/-- The token of a lexeme, with the kind and the value that the lexeme gives to it. -/
def Token.FromLexeme (t : Token) : Prop := Lexeme t.kind t.lexeme.toList t.literal

/-- The tokens that scanning finds in front of the end token are those of lexemes. -/
theorem fromLexeme_or_end {source : List Char} {t : Token} (h : t ∈ (scan source).tokens) :
    t.FromLexeme ∨ t.content = (.endOfFile, "", .nil) := by
  have hcontent := List.mem_map_of_mem (f := Token.content) h
  rw [scan, content_ofSegments, List.mem_append, List.mem_map, List.mem_singleton] at hcontent
  obtain ⟨p, hp, heq⟩ | heq := hcontent
  · left
    obtain ⟨value, hlexeme⟩ := exists_lexeme_of_mem hp
    obtain ⟨hkind, heq⟩ := Prod.mk.inj heq
    obtain ⟨htext, hliteral⟩ := Prod.mk.inj heq
    rw [Token.FromLexeme, ← hkind, ← htext, ← hliteral, String.toList_ofList, hlexeme.literal_eq]
    exact hlexeme
  · exact .inr heq

/-- The lexemes of a source text, whatever else is in it, joined by spaces: they are scanned without
errors to tokens of the same kinds, lexemes and values. -/
theorem spaced_lexemes_scan_alike (codes : List Int) :
    let found := (scanCodes codes).tokens
    let spaced := " ".intercalate ((found.filter (·.kind ≠ .endOfFile)).map Token.lexeme)
    (scan spaced.toList).errors = [] ∧
      (scan spaced.toList).tokens.map Token.content = found.map Token.content := by
  intro found spaced
  let lexemes := (segments (codes.map Text.charOfInt)).filterMap Segment.lexeme?
  have htext : spaced.toList = List.intercalate [' '] (lexemes.map Prod.snd) := by
    rw [← toList_intercalate_ofList]
    exact congrArg (fun texts => (" ".intercalate texts).toList) (lexemes_scan _)
  have hsegments : segments spaced.toList = (tokenSegments lexemes).intersperse (.blank ' ') := by
    rw [htext]
    exact segments_intercalate fun p hp => exists_lexeme_of_mem hp
  obtain ⟨hsame, hcomplaints⟩ := filterMap_intersperse lexemes
  constructor
  · have herrors := complaints_ofSegments 1 (segments spaced.toList)
    rw [hsegments, hcomplaints] at herrors
    rw [scan, hsegments]
    exact List.map_eq_nil_iff.mp herrors
  · rw [scan, content_ofSegments, hsegments, hsame]
    exact (content_ofSegments 1 _).symm

end Scriptlet
