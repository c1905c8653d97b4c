import Scriptlet.Proofs.LexicalGrammar

/-!
Lines are counted truly: every token is placed on the line on which its lexeme ends, a stray
character on its own line, an open string and the end of the source on the last line. Words, numbers,
symbols, comments and stray characters do not move the line counter, and need not: no newline is in
them.
-/

namespace Scriptlet

/-- The line that is reached behind the first `n` characters of a source text. -/
def lineBehind (codes : List Int) (n : Nat) : Int :=
  1 + (codes.take n).count 10

/-- Each segment with the number of characters in front of it. -/
def placed (offset : Nat) : List Segment → List (Nat × Segment)
  | [] => []
  | s :: rest => (offset, s) :: placed (offset + s.text.length) rest

/-- The line of a lexeme is that of its last character. -/
def tokenAt? (codes : List Int) (offset : Nat) : Segment → Option (TokenKind × String × Int)
  | .token kind text =>
    some (kind, String.ofList text, lineBehind codes (offset + text.length))
  | _ => none

/-- The line of a stray character is its own, that of an open string the last one. -/
def errorAt? (codes : List Int) (offset : Nat) : Segment → Option (String × Int)
  | .stray _ => some ("invalid input", lineBehind codes offset)
  | .openString _ => some ("Unterminated string.", lineBehind codes codes.length)
  | _ => none

theorem charOfInt_eq_newline_iff (code : Int) : Text.charOfInt code = '\n' ↔ code = 10 := by
  constructor
  · intro heq
    unfold Text.charOfInt Text.charOf Text.charOf? at heq
    split at heq
    · exact absurd heq (by decide)
    · split at heq
      · next hvalid =>
        rw [Option.getD_some, Char.ofNat, dif_pos hvalid] at heq
        have hcode : code.toNat = 10 := congrArg Char.toNat heq
        omega
      · exact absurd heq (by decide)
  · intro heq
    rw [heq]
    rfl

theorem count_newline_map (codes : List Int) :
    (codes.map Text.charOfInt).count '\n' = codes.count 10 := by
  simp only [List.count_eq_countP, List.countP_map]
  congr 1
  funext code
  simp [charOfInt_eq_newline_iff]

/-! The line counter looks at blanks and strings only, and misses no newline by it. -/

theorem Lexical.newlines_eq {s : Segment} (h : Lexical s) : s.newlines = s.text.count '\n' := by
  cases h with
  | @blank c h =>
      rw [Segment.text, List.count_singleton]
      simp [Segment.newlines]
  | comment h =>
      rw [Segment.text, List.count_cons_of_ne (by decide), List.count_cons_of_ne (by decide),
        List.count_eq_zero_of_not_mem h]
      rfl
  | @token kind text value h =>
      by_cases hk : kind = .string
      · subst hk
        rfl
      · have hnone : '\n' ∉ text := h.blank_notMem hk (by decide)
        rw [Segment.newlines_token hnone, Segment.text, List.count_eq_zero_of_not_mem hnone]

theorem CutOff.newlines_eq {s : Segment} {rest : List Char} (h : CutOff s rest) :
    s.newlines = s.text.count '\n' := by
  cases h with
  | longest h _ => exact h.newlines_eq
  | @stray c rest _ hnone =>
      have hc : c ≠ '\n' := by
        rintro rfl
        exact hnone (.blank '\n') (.blank (by decide)) ⟨rest, rfl⟩
      exact (List.count_eq_zero_of_not_mem fun hmem => hc (List.mem_singleton.mp hmem).symm).symm
  | openString h => rfl

theorem Division.newlinesIn_eq {source : List Char} {segs : List Segment}
    (h : Division source segs) : newlinesIn segs = source.count '\n' := by
  induction h with
  | nil => rfl
  | cons hcut _ ih => rw [newlinesIn, ih, hcut.newlines_eq, List.count_append]

theorem newlinesIn_segments (source : List Char) :
    newlinesIn (segments source) = source.count '\n' :=
  (division_segments source).newlinesIn_eq

section Placed

variable {codes : List Int}

theorem lineBehind_length {before rest : List Char}
    (h : codes.map Text.charOfInt = before ++ rest) :
    lineBehind codes before.length = 1 + before.count '\n' := by
  rw [lineBehind, ← count_newline_map, List.map_take, h, List.take_left]

/-- A segment that was cut off leads down by as many lines as it has newlines. -/
theorem lineBehind_append {before rest : List Char} {s : Segment} (hcut : CutOff s rest)
    (h : codes.map Text.charOfInt = before ++ (s.text ++ rest)) :
    lineBehind codes (before.length + s.text.length) =
      lineBehind codes before.length + s.newlines := by
  rw [lineBehind_length h, hcut.newlines_eq]
  rw [← List.append_assoc] at h
  rw [← List.length_append, lineBehind_length h, List.count_append]
  omega

theorem CutOff.rest_openString {text rest : List Char} (h : CutOff (.openString text) rest) :
    rest = [] := by
  cases h with
  | longest h _ => cases h
  | openString _ => rfl

/-- The tokens and errors of the rest of a text, with the lines that the whole text gives them. -/
theorem ofSegments_placed {rest : List Char} {segs : List Segment} (h : Division rest segs)
    (before : List Char) (hcodes : codes.map Text.charOfInt = before ++ rest) :
    (Scan.ofSegments (lineBehind codes before.length) segs).tokens.map
        (fun t => (t.kind, t.lexeme, t.line)) =
      (placed before.length segs).filterMap (fun p => tokenAt? codes p.1 p.2) ++
        [(.endOfFile, "", lineBehind codes codes.length)] ∧
    (Scan.ofSegments (lineBehind codes before.length) segs).errors.map
        (fun e => (e.fault.message, e.line)) =
      (placed before.length segs).filterMap (fun p => errorAt? codes p.1 p.2) := by
  -- `before` is what has been cut off so far: the counter always stands at the line behind it.
  induction h generalizing before with
  | nil =>
      have hlength : codes.length = before.length := by
        rw [← List.length_map Text.charOfInt, hcodes, List.append_nil]
      rw [hlength]
      exact ⟨rfl, rfl⟩
  | @cons s rest segs hcut _ ih =>
      have hline := lineBehind_append hcut hcodes
      obtain ⟨htokens, herrors⟩ := ih (before ++ s.text) (by rw [hcodes, List.append_assoc])
      rw [List.length_append] at htokens herrors
      simp only [Scan.ofSegments, placed, ← hline, List.map_append, htokens, herrors]
      cases s with
      | token kind text => exact ⟨rfl, rfl⟩
      | blank c => exact ⟨rfl, rfl⟩
      | comment text => exact ⟨rfl, rfl⟩
      | stray c =>
          have hown : lineBehind codes (before.length + (Segment.stray c).text.length) =
              lineBehind codes before.length := by
            rw [hline]
            exact Int.add_zero _
          rw [hown]
          exact ⟨rfl, rfl⟩
      | openString text =>
          have hlength : before.length + (Segment.openString text).text.length = codes.length := by
            rw [← List.length_map Text.charOfInt, hcodes, hcut.rest_openString]
            simp
          rw [hlength]
          exact ⟨rfl, rfl⟩

end Placed

/-! Lines never go back. -/

theorem pairwise_cons_of_le {a b : Int} {lines : List Int} (hle : a ≤ b)
    (h : (b :: lines).Pairwise (· ≤ ·)) : (a :: lines).Pairwise (· ≤ ·) := by
  obtain ⟨hhead, htail⟩ := List.pairwise_cons.mp h
  exact List.pairwise_cons.mpr ⟨fun l hl => Int.le_trans hle (hhead l hl), htail⟩

theorem pairwise_cons_cons_of_le {a b : Int} {lines : List Int} (hle : a ≤ b)
    (h : (b :: lines).Pairwise (· ≤ ·)) : (a :: b :: lines).Pairwise (· ≤ ·) := by
  obtain ⟨hhead, -⟩ := List.pairwise_cons.mp h
  refine List.pairwise_cons.mpr ⟨List.forall_mem_cons.mpr ⟨hle, fun l hl => ?_⟩, h⟩
  exact Int.le_trans hle (hhead l hl)

theorem lines_ofSegments_pairwise (line : Int) (segs : List Segment) :
    (line :: (Scan.ofSegments line segs).tokens.map Token.line).Pairwise (· ≤ ·) ∧
      (line :: (Scan.ofSegments line segs).errors.map LexicalError.line).Pairwise (· ≤ ·) := by
  induction segs generalizing line with
  | nil => exact ⟨by simp [Scan.ofSegments], by simp [Scan.ofSegments]⟩
  | cons s rest ih =>
      have hle : line ≤ line + s.newlines := by omega
      obtain ⟨htokens, herrors⟩ := ih (line + s.newlines)
      cases s with
      | token kind text =>
          exact ⟨pairwise_cons_cons_of_le hle htokens, pairwise_cons_of_le hle herrors⟩
      | stray c =>
          exact ⟨pairwise_cons_of_le hle htokens, pairwise_cons_cons_of_le hle herrors⟩
      | openString text =>
          exact ⟨pairwise_cons_of_le hle htokens, pairwise_cons_cons_of_le hle herrors⟩
      | blank c | comment text =>
          exact ⟨pairwise_cons_of_le hle htokens, pairwise_cons_of_le hle herrors⟩

/-- In the one division of a source text, the tokens and errors are those of its segments, each on
the line that the newlines in front of its place tell; so lines never go back. -/
theorem scan_lines_count_newlines (codes : List Int) :
    ∃ segs, (∀ segs', Division (codes.map Text.charOfInt) segs' ↔ segs' = segs) ∧
      (scanCodes codes).tokens.map (fun t => (t.kind, t.lexeme, t.line)) =
        (placed 0 segs).filterMap (fun p => tokenAt? codes p.1 p.2) ++
          [(.endOfFile, "", 1 + (codes.count 10 : Int))] ∧
      (scanCodes codes).errors.map (fun e => (e.fault.message, e.line)) =
        (placed 0 segs).filterMap (fun p => errorAt? codes p.1 p.2) ∧
      ((scanCodes codes).tokens.map Token.line).Pairwise (· ≤ ·) ∧
      ((scanCodes codes).errors.map LexicalError.line).Pairwise (· ≤ ·) := by
  have hdivision := division_segments (codes.map Text.charOfInt)
  obtain ⟨htokens, herrors⟩ := ofSegments_placed hdivision [] rfl
  obtain ⟨hpairwise, hpairwise'⟩ :=
    lines_ofSegments_pairwise 1 (segments (codes.map Text.charOfInt))
  have hlast : lineBehind codes codes.length = 1 + (codes.count 10 : Int) := by
    rw [lineBehind, List.take_length]
  rw [hlast] at htokens
  exact ⟨_, fun _ => division_iff, htokens, herrors, hpairwise.tail, hpairwise'.tail⟩

/-! Texts with a newline between them. -/

/-- Text behind a newline scans as it does alone, below the lines in front of it. -/
theorem scan_append_newline {front : List Char} (back : List Char)
    (h : NoOpenString (segments front)) :
    (scan (front ++ '\n' :: back)).tokens =
        (scan front).tokens.dropLast ++
          (scan back).tokens.map (Token.below (1 + front.count '\n')) ∧
      (scan (front ++ '\n' :: back)).errors =
        (scan front).errors ++
          (scan back).errors.map (LexicalError.below (1 + front.count '\n')) := by
  have hline : (1 : Int) + newlinesIn (segments front) + (Segment.blank '\n').newlines =
      1 + (1 + front.count '\n') := by
    rw [newlinesIn_segments]
    have hnewline : (Segment.blank '\n').newlines = 1 := rfl
    omega
  obtain ⟨htokens, herrors⟩ :=
    Scan.ofSegments_below 1 (1 + front.count '\n') (segments back)
  simp only [scan, segments_append_newline back h, Scan.tokens_ofSegments_append,
    Scan.errors_ofSegments_append, Scan.ofSegments, hline, htokens, herrors]
  exact ⟨rfl, rfl⟩

theorem noOpenString_iff (line : Int) (segs : List Segment) :
    NoOpenString segs ↔
      ∀ e ∈ (Scan.ofSegments line segs).errors, e.fault.message ≠ "Unterminated string." := by
  induction segs generalizing line with
  | nil => simp [NoOpenString, Scan.ofSegments]
  | cons s rest ih =>
      have hrest := ih (line + s.newlines)
      simp only [NoOpenString] at hrest
      simp only [NoOpenString, Scan.ofSegments, List.mem_cons, List.mem_append, not_or, forall_and,
        or_imp, hrest]
      cases s <;> simp [Segment.error?, LexicalFault.message]

/-- The end token stands behind all newlines. -/
theorem exists_stop_ofSegments (line : Int) (segs : List Segment) :
    ∃ front, (Scan.ofSegments line segs).tokens =
      front ++ [⟨.endOfFile, "", .nil, line + newlinesIn segs⟩] := by
  induction segs generalizing line with
  | nil => exact ⟨[], by simp [Scan.ofSegments, newlinesIn]⟩
  | cons s rest ih =>
      obtain ⟨front, hfront⟩ := ih (line + s.newlines)
      refine ⟨(s.token? (line + s.newlines)).toList ++ front, ?_⟩
      rw [Scan.ofSegments, hfront, newlinesIn, Int.natCast_add, ← Int.add_assoc, List.append_assoc]

/-- A string that nothing closes takes the rest of the text, so its error is on the last line. -/
theorem line_of_unterminated {codes : List Int} {e : LexicalError}
    (he : e ∈ (scanCodes codes).errors) (hmessage : e.fault.message = "Unterminated string.") :
    e.line = 1 + codes.count 10 := by
  have hplaced := (ofSegments_placed (division_segments (codes.map Text.charOfInt)) [] rfl).2
  have hmem := List.mem_map_of_mem (f := fun e => (e.fault.message, e.line)) he
  rw [scanCodes, scan, show (1 : Int) = lineBehind codes ([] : List Char).length from rfl, hplaced]
    at hmem
  obtain ⟨⟨offset, s⟩, -, hs⟩ := List.mem_filterMap.mp hmem
  cases s with
  | openString text =>
      obtain ⟨-, hline⟩ := Prod.mk.inj (Option.some.inj hs)
      rw [← hline, lineBehind, List.take_length]
  | stray c =>
      obtain ⟨hother, -⟩ := Prod.mk.inj (Option.some.inj hs)
      rw [hmessage] at hother
      exact absurd hother (by decide)
  | blank c | comment text | token kind text => cases hs

/-- Where a newline stands between two texts, each of them is scanned as if it stood alone, the
second one below the line on which the first one ends. This is so exactly if the first text does not
end in an open string. -/
theorem scan_splits_at_newline (a b : List Int) :
    ∃ front stop, (scanCodes a).tokens = front ++ [stop] ∧ stop.kind = .endOfFile ∧
      ((∀ e ∈ (scanCodes a).errors, e.fault.message ≠ "Unterminated string.") ↔
        (scanCodes (a ++ 10 :: b)).tokens =
            front ++ (scanCodes b).tokens.map (Token.below stop.line) ∧
          (scanCodes (a ++ 10 :: b)).errors =
            (scanCodes a).errors ++ (scanCodes b).errors.map (LexicalError.below stop.line)) := by
  have hjoined : scanCodes (a ++ 10 :: b) =
      scan (a.map Text.charOfInt ++ '\n' :: b.map Text.charOfInt) := by
    rw [scanCodes, List.map_append, List.map_cons]
    rfl
  obtain ⟨front, hfront⟩ := exists_stop_ofSegments 1 (segments (a.map Text.charOfInt))
  rw [newlinesIn_segments] at hfront
  refine ⟨front, _, hfront, rfl, ?_⟩
  constructor
  · intro h
    obtain ⟨htokens, herrors⟩ :=
      scan_append_newline (b.map Text.charOfInt) ((noOpenString_iff 1 _).mpr h)
    rw [hjoined, htokens, scan, hfront, List.dropLast_concat]
    exact ⟨rfl, herrors⟩
  · intro hsplit e he hmessage
    have hjoint : e ∈ (scanCodes (a ++ 10 :: b)).errors := by
      rw [hsplit.2]
      exact List.mem_append_left _ he
    -- The error of the first text is on its last line, that of the whole text below it.
    have hfirst := line_of_unterminated he hmessage
    have hwhole := line_of_unterminated hjoint hmessage
    rw [List.count_append, List.count_cons_self] at hwhole
    omega

end Scriptlet
