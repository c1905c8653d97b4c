import Mathlib.Data.List.TakeWhile
import Scriptlet.Proofs.ScannedTokens

/-!
Source text and its lines. The segments of a text put together are the text. A newline ends every
segment but a string that is still open, so the text behind it is cut as if it stood alone. Segments
further down give the same tokens and errors, further down.
-/

namespace Scriptlet

section Stop

variable {α : Type} {p : α → Bool} {x : α}

theorem takeWhile_append_stop (hx : p x = false) (front back : List α) :
    (front ++ x :: back).takeWhile p = front.takeWhile p := by
  induction front with
  | nil => simp [hx]
  | cons y front ih => simp only [List.cons_append, List.takeWhile_cons, ih]

theorem dropWhile_append_stop (hx : p x = false) (front back : List α) :
    (front ++ x :: back).dropWhile p = front.dropWhile p ++ x :: back := by
  induction front with
  | nil => simp [hx]
  | cons y front ih =>
      simp only [List.cons_append, List.dropWhile_cons, ih]
      split <;> rfl

/-- Texts that are cut at the first character of some kind are equal part by part. -/
theorem eq_of_append_stop {x' : α} {front front' back back' : List α}
    (hfront : ∀ y ∈ front, p y = true) (hfront' : ∀ y ∈ front', p y = true) (hx : p x = false)
    (hx' : p x' = false) (h : front ++ x :: back = front' ++ x' :: back') :
    front = front' ∧ x = x' ∧ back = back' := by
  have hcut := congrArg (List.takeWhile p) h
  rw [takeWhile_append_stop hx, takeWhile_append_stop hx', List.takeWhile_eq_self_iff.mpr hfront,
    List.takeWhile_eq_self_iff.mpr hfront'] at hcut
  subst hcut
  exact ⟨rfl, List.cons.inj (List.append_cancel_left h)⟩

theorem takeWhile_append_of_stopped {front : List α} (h : front.dropWhile p ≠ []) (back : List α) :
    (front ++ back).takeWhile p = front.takeWhile p := by
  induction front with
  | nil => exact absurd rfl h
  | cons y front ih =>
      rw [List.dropWhile_cons] at h
      simp only [List.cons_append, List.takeWhile_cons]
      split
      · next hy =>
        rw [if_pos hy] at h
        rw [ih h]
      · rfl

end Stop

namespace Segment

theorem isDigit_newline : Char.isDigit '\n' = false := rfl

theorem continuesWord_newline : continuesWord '\n' = false := by decide +kernel

theorem continuesWord_space : continuesWord ' ' = false := by decide +kernel

theorem fraction_append_newline (s back : List Char) :
    fraction (s ++ '\n' :: back) = fraction s := by
  match s with
  | [] => rfl
  | [c] =>
      by_cases hc : c = '.'
      · subst hc
        rfl
      · simp [fraction, hc]
  | c :: d :: rest =>
      by_cases hc : c = '.'
      · subst hc
        simp only [List.cons_append, fraction, takeWhile_append_stop isDigit_newline]
      · simp [fraction, hc]

theorem head?_append_newline {s : List Char} (back : List Char) {c : Char} (hc : c ≠ '\n') :
    (s ++ '\n' :: back).head? = some c ↔ s.head? = some c := by
  cases s with
  | nil => simp [hc.symm]
  | cons d s => rfl

/-- What follows the newline behind a segment does not change it, unless it is an open string. -/
theorem starting_append_newline {c : Char} {rest : List Char} (back : List Char)
    (h : ∀ text, starting c rest ≠ .openString text) :
    starting c (rest ++ '\n' :: back) = starting c rest := by
  cases startsAs c with
  | single hc hs => rw [hs, hs]
  | blank hc hs => rw [hs, hs]
  | stray hs => rw [hs, hs]
  | comparison hc hs =>
      have hhead := head?_append_newline (s := rest) back (c := '=') (by decide)
      simp only [hs, hhead]
  | slash hc hs =>
      have hhead := head?_append_newline (s := rest) back (c := '/') (by decide)
      have hline : (rest ++ '\n' :: back).takeWhile (· ≠ '\n') = rest.takeWhile (· ≠ '\n') :=
        takeWhile_append_stop (by decide) rest back
      simp only [hs, hhead, hline]
  | quote hc hs =>
      have hclosed : rest.dropWhile (· ≠ '"') ≠ [] := fun hopen => h _ (by rw [hs, if_pos hopen])
      have hdrop : (rest ++ '\n' :: back).dropWhile (· ≠ '"') ≠ [] := by
        rw [List.dropWhile_append, if_neg (by simpa using hclosed)]
        simp
      rw [hs, hs, if_neg hclosed, if_neg hdrop, takeWhile_append_of_stopped hclosed]
  | digit hc hs =>
      rw [hs, hs, takeWhile_append_stop isDigit_newline, dropWhile_append_stop isDigit_newline,
        fraction_append_newline]
  | letter hc hs => rw [hs, hs, takeWhile_append_stop continuesWord_newline]

theorem fraction_prefix (s : List Char) : fraction s <+: s := by
  unfold fraction
  split
  · split
    · exact List.prefix_cons_inj _ |>.mpr (List.prefix_cons_inj _ |>.mpr (List.takeWhile_prefix _))
    · exact List.nil_prefix
  · exact List.nil_prefix

/-- A segment is what the source starts with. -/
theorem text_starting_prefix (c : Char) (rest : List Char) :
    (starting c rest).text <+: c :: rest := by
  have hone : [c] <+: c :: rest := ⟨rest, rfl⟩
  cases startsAs c with
  | single hc hs =>
      rw [hs]
      exact hone
  | blank hc hs =>
      rw [hs]
      exact hone
  | stray hs =>
      rw [hs]
      exact hone
  | comparison hc hs =>
      rw [hs]
      split
      · next hhead =>
        obtain ⟨back, rfl⟩ := List.head?_eq_some_iff.mp hhead
        exact ⟨back, rfl⟩
      · exact hone
  | slash hc hs =>
      rw [hs]
      split
      · exact (List.prefix_cons_inj c).mpr (List.takeWhile_prefix _)
      · exact hone
  | quote hc hs =>
      rw [hs]
      split
      · exact List.prefix_refl _
      · next hclosed =>
        have hstop := List.head?_dropWhile_not (· ≠ '"') rest
        have hparts := List.takeWhile_append_dropWhile (p := (· ≠ '"')) (l := rest)
        cases hdrop : rest.dropWhile (· ≠ '"') with
        | nil => exact absurd hdrop hclosed
        | cons d back =>
            rw [hdrop] at hstop hparts
            have hd : d = '"' := by simpa using hstop
            subst hd
            refine ⟨back, ?_⟩
            rw [text, List.append_assoc]
            exact congrArg (c :: ·) hparts
  | digit hc hs =>
      rw [hs]
      obtain ⟨back, hback⟩ := fraction_prefix (rest.dropWhile Char.isDigit)
      refine ⟨back, ?_⟩
      rw [text, List.append_assoc, hback, List.cons_append, List.takeWhile_append_dropWhile]
  | letter hc hs =>
      rw [hs]
      exact (List.prefix_cons_inj c).mpr (List.takeWhile_prefix _)

end Segment

/-- The segments of a text, put together again, are the text. -/
theorem flatMap_text_segments (source : List Char) :
    (segments source).flatMap Segment.text = source := by
  fun_induction segments source with
  | case1 => rfl
  | case2 c rest segment ih =>
      rw [List.flatMap_cons, ih]
      exact List.prefix_iff_eq_append.mp (Segment.text_starting_prefix c rest)

def NoOpenString (segs : List Segment) : Prop := ∀ text, Segment.openString text ∉ segs

/-- Behind a newline that is not inside a string, cutting starts afresh. -/
theorem segments_append_newline {front : List Char} (back : List Char)
    (h : NoOpenString (segments front)) :
    segments (front ++ '\n' :: back) = segments front ++ .blank '\n' :: segments back := by
  fun_induction segments front with
  | case1 =>
      rw [List.nil_append, segments]
      rfl
  | case2 c rest segment ih =>
      have hclosed : ∀ text, Segment.starting c rest ≠ .openString text :=
        fun text heq => h text (heq ▸ List.mem_cons_self)
      have hlength := (Segment.text_starting_prefix c rest).length_le
      rw [List.cons_append, segments, Segment.starting_append_newline back hclosed,
        ← List.cons_append, List.drop_append_of_le_length hlength,
        ih fun text hmem => h text (List.mem_cons_of_mem _ hmem)]
      rfl

/-- The token `n` lines further down. -/
def Token.below (n : Int) (t : Token) : Token := { t with line := t.line + n }

/-- The error `n` lines further down. -/
def LexicalError.below (n : Int) (e : LexicalError) : LexicalError := { e with line := e.line + n }

theorem Segment.newlines_token {kind : TokenKind} {text : List Char} (h : '\n' ∉ text) :
    (Segment.token kind text).newlines = 0 := by
  cases kind with
  | string => exact List.count_eq_zero_of_not_mem h
  | _ => rfl

/-- How many lines the segments lead down. -/
def newlinesIn : List Segment → Nat
  | [] => 0
  | s :: rest => s.newlines + newlinesIn rest

namespace Scan

theorem tokens_ofSegments_ne_nil (line : Int) (segs : List Segment) :
    (ofSegments line segs).tokens ≠ [] := by
  cases segs with
  | nil => exact List.cons_ne_nil _ _
  | cons s rest => exact List.append_ne_nil_of_right_ne_nil _ (tokens_ofSegments_ne_nil _ rest)

theorem tokens_ofSegments_append (line : Int) (front back : List Segment) :
    (ofSegments line (front ++ back)).tokens =
      (ofSegments line front).tokens.dropLast ++
        (ofSegments (line + newlinesIn front) back).tokens := by
  induction front generalizing line with
  | nil => simp [ofSegments, newlinesIn]
  | cons s rest ih =>
      simp only [List.cons_append, ofSegments, ih]
      rw [List.dropLast_append_of_ne_nil (tokens_ofSegments_ne_nil _ rest), List.append_assoc]
      simp [newlinesIn, Int.add_assoc]

theorem errors_ofSegments_append (line : Int) (front back : List Segment) :
    (ofSegments line (front ++ back)).errors =
      (ofSegments line front).errors ++
        (ofSegments (line + newlinesIn front) back).errors := by
  induction front generalizing line with
  | nil => simp [ofSegments, newlinesIn]
  | cons s rest ih => simp [ofSegments, ih, newlinesIn, Int.add_assoc]

theorem ofSegments_below (line n : Int) (segs : List Segment) :
    (ofSegments (line + n) segs).tokens = (ofSegments line segs).tokens.map (Token.below n) ∧
      (ofSegments (line + n) segs).errors =
        (ofSegments line segs).errors.map (LexicalError.below n) := by
  induction segs generalizing line with
  | nil => exact ⟨rfl, rfl⟩
  | cons s rest ih =>
      have hline : line + n + s.newlines = line + s.newlines + n := by omega
      obtain ⟨htokens, herrors⟩ := ih (line + s.newlines)
      simp only [ofSegments, hline, htokens, herrors, List.map_append]
      cases s <;> exact ⟨rfl, rfl⟩

theorem noOpenString_of_errors {line : Int} {segs : List Segment}
    (h : (ofSegments line segs).errors = []) : NoOpenString segs := by
  induction segs generalizing line with
  | nil => exact fun _ hmem => by cases hmem
  | cons s rest ih =>
      obtain ⟨hs, hrest⟩ := List.append_eq_nil_iff.mp h
      intro text hmem
      obtain rfl | hmem := List.mem_cons.mp hmem
      · cases hs
      · exact ih hrest text hmem

end Scan

end Scriptlet
