import Mathlib.Data.List.TakeWhile
import Scriptlet.Proofs.SourceLines

/-!
The lexical grammar, said without a scanner: which texts are blanks, comments and lexemes, and how
a source text is divided into them. Each segment is the longest that the text in front of it
allows, so a source text has exactly one division, which is the one that cutting it finds.
-/

namespace Scriptlet

/-- The tokens of one character. -/
def shortSymbols : List (TokenKind × Char) :=
  [(.leftParen, '('), (.rightParen, ')'), (.leftBrace, '{'), (.rightBrace, '}'), (.comma, ','),
   (.dot, '.'), (.minus, '-'), (.plus, '+'), (.semicolon, ';'), (.slash, '/'), (.star, '*'),
   (.bang, '!'), (.equal, '='), (.greater, '>'), (.less, '<')]

/-- The tokens of a character with `=` behind it. -/
def longSymbols : List (TokenKind × Char) :=
  [(.bangEqual, '!'), (.equalEqual, '='), (.greaterEqual, '>'), (.lessEqual, '<')]

/-- A digit or more, and nothing else. -/
structure IsNumeral (digits : List Char) : Prop where
  nonempty : digits ≠ []
  digit : ∀ c ∈ digits, c.isDigit = true

/-- The texts that are lexemes, with the kind and the value of their tokens. -/
inductive Lexeme : TokenKind → List Char → Literal → Prop where
  | short {kind : TokenKind} {c : Char} (h : (kind, c) ∈ shortSymbols) : Lexeme kind [c] .nil
  | long {kind : TokenKind} {c : Char} (h : (kind, c) ∈ longSymbols) : Lexeme kind [c, '='] .nil
  | string {body : List Char} (h : '"' ∉ body) :
      Lexeme .string ('"' :: (body ++ ['"'])) (.string (String.ofList body))
  | whole {digits : List Char} (h : IsNumeral digits) :
      Lexeme .number digits (.number (Decimal.ofDigits digits []).toFloat)
  | fraction {whole fraction : List Char} (hw : IsNumeral whole) (hf : IsNumeral fraction) :
      Lexeme .number (whole ++ '.' :: fraction) (.number (Decimal.ofDigits whole fraction).toFloat)
  | word {c : Char} {rest : List Char} (hc : Text.isLetter c = true)
      (h : ∀ d ∈ rest, Text.isLetter d = true ∨ Text.isDecimalDigit d = true) :
      Lexeme (Segment.wordKind (c :: rest)) (c :: rest) .nil

/-- The segments without an error. -/
inductive Lexical : Segment → Prop where
  | blank {c : Char} (h : c ∈ [' ', '\t', '\r', '\n']) : Lexical (.blank c)
  | comment {body : List Char} (h : '\n' ∉ body) : Lexical (.comment ('/' :: '/' :: body))
  | token {kind : TokenKind} {text : List Char} {value : Literal} (h : Lexeme kind text value) :
      Lexical (.token kind text)

/-- The segment in front of `rest` is the longest one there can be. Where there is none, it is an
opening quote with all that follows, if nothing closes it, or else a single character. -/
inductive CutOff : Segment → List Char → Prop where
  | longest {s : Segment} {rest : List Char} (h : Lexical s)
      (hmax : ∀ s', Lexical s' → s'.text <+: s.text ++ rest → s'.text.length ≤ s.text.length) :
      CutOff s rest
  | stray {c : Char} {rest : List Char} (hc : c ≠ '"')
      (hnone : ∀ s, Lexical s → ¬ s.text <+: c :: rest) : CutOff (.stray c) rest
  | openString {body : List Char} (h : '"' ∉ body) : CutOff (.openString ('"' :: body)) []

/-- The text is the segments put together, each of them cut off in front of what follows it. -/
inductive Division : List Char → List Segment → Prop where
  | nil : Division [] []
  | cons {s : Segment} {rest : List Char} {segs : List Segment} (h : CutOff s rest)
      (hrest : Division rest segs) : Division (s.text ++ rest) (s :: segs)

/-! How characters of each class start a segment. -/

namespace Segment

variable {c : Char}

/-- The characters that start symbols, comments, strings and blanks. -/
def punctuation : List Char :=
  ['(', ')', '{', '}', ',', '.', '-', '+', ';', '*', '!', '=', '>', '<', '/', '"', ' ', '\t', '\r',
   '\n']

theorem starting_of_not_mem_punctuation (h : c ∉ punctuation) (rest : List Char) :
    starting c rest =
      if c.isDigit then
        .token .number (c :: rest.takeWhile Char.isDigit ++ fraction (rest.dropWhile Char.isDigit))
      else if Text.isLetter c then
        .token (wordKind (c :: rest.takeWhile continuesWord)) (c :: rest.takeWhile continuesWord)
      else .stray c := by
  simp only [punctuation, List.mem_cons, List.not_mem_nil, not_or, or_false] at h
  have hsingle : single? c = none := by
    unfold single?
    split <;> simp_all
  have hcomparison : comparison? c = none := by
    unfold comparison?
    split <;> simp_all
  simp [starting, hsingle, hcomparison, isBlank, h]

theorem not_mem_punctuation {p : Char → Bool} (hp : punctuation.any p = false)
    (hc : p c = true) : c ∉ punctuation := by
  intro hmem
  rw [List.any_eq_false] at hp
  exact hp c hmem hc

theorem starting_of_isDigit (hc : c.isDigit = true) (rest : List Char) :
    starting c rest = .token .number
      (c :: rest.takeWhile Char.isDigit ++ fraction (rest.dropWhile Char.isDigit)) := by
  rw [starting_of_not_mem_punctuation (not_mem_punctuation (by decide) hc), if_pos hc]

/-- The table of letters starts behind the ASCII characters. -/
theorem le_of_mem_letterRanges : ∀ r ∈ Text.letterRanges, 0xAA ≤ r.1 := by
  decide +kernel

theorem isAlpha_or_le_of_isLetter (hc : Text.isLetter c = true) :
    (c.isAlpha || decide (0xAA ≤ c.toNat)) = true := by
  rw [Bool.or_eq_true]
  obtain halpha | htable := (Bool.or_eq_true _ _).mp hc
  · exact .inl halpha
  · obtain ⟨r, hr, hin⟩ := List.any_eq_true.mp htable
    have hlow := of_decide_eq_true ((Bool.and_eq_true _ _).mp hin).1
    exact .inr (decide_eq_true (Nat.le_trans (le_of_mem_letterRanges r hr) hlow))

theorem le_of_isAlpha (hc : c.isAlpha = true) : 65 ≤ c.toNat := by
  obtain hupper | hlower := (Bool.or_eq_true _ _).mp hc
  · have hfirst := (of_decide_eq_true hupper).1
    exact UInt32.le_iff_toNat_le.mp hfirst
  · have hfirst := of_decide_eq_true ((Bool.and_eq_true _ _).mp hlower).1
    have hfirst : 97 ≤ c.toNat := UInt32.le_iff_toNat_le.mp hfirst
    omega

theorem isDigit_of_isLetter (hc : Text.isLetter c = true) : c.isDigit = false := by
  rw [Bool.eq_false_iff]
  intro hdigit
  have hlast : c.toNat ≤ 57 :=
    UInt32.le_iff_toNat_le.mp (of_decide_eq_true ((Bool.and_eq_true _ _).mp hdigit).2)
  obtain halpha | hlow := (Bool.or_eq_true _ _).mp (isAlpha_or_le_of_isLetter hc)
  · have hfirst := le_of_isAlpha halpha
    omega
  · have hlow := of_decide_eq_true hlow
    omega

theorem starting_of_isLetter (hc : Text.isLetter c = true) (rest : List Char) :
    starting c rest = .token (wordKind (c :: rest.takeWhile continuesWord))
      (c :: rest.takeWhile continuesWord) := by
  have hpunctuation : c ∉ punctuation :=
    not_mem_punctuation (p := fun d => d.isAlpha || decide (0xAA ≤ d.toNat)) (by decide)
      (isAlpha_or_le_of_isLetter hc)
  rw [starting_of_not_mem_punctuation hpunctuation, isDigit_of_isLetter hc, if_pos hc]
  rfl

theorem decide_ne_of_mem {a : Char} {body : List Char} (h : a ∉ body) :
    ∀ c ∈ body, decide (c ≠ a) = true := by
  intro c hc
  rw [decide_eq_true_iff]
  intro heq
  exact h (heq ▸ hc)

theorem starting_comment {body : List Char} (h : '\n' ∉ body) (x : List Char) :
    starting '/' ('/' :: (body ++ x)) =
      .comment ('/' :: '/' :: (body ++ x.takeWhile (· ≠ '\n'))) := by
  change Segment.comment ('/' :: '/' :: (body ++ x).takeWhile (· ≠ '\n')) = _
  rw [List.takeWhile_append_of_pos (decide_ne_of_mem h)]

theorem starting_quote (rest : List Char) :
    starting '"' rest =
      if rest.dropWhile (· ≠ '"') = [] then .openString ('"' :: rest)
      else .token .string ('"' :: (rest.takeWhile (· ≠ '"') ++ ['"'])) := by
  cases hrest : rest.dropWhile (· ≠ '"') with
  | nil => simp only [starting, single?, comparison?, hrest]; rfl
  | cons d back => simp only [starting, single?, comparison?, hrest]; rfl

theorem starting_string {body : List Char} (h : '"' ∉ body) (x : List Char) :
    starting '"' (body ++ '"' :: x) = .token .string ('"' :: (body ++ ['"'])) := by
  have hbody := decide_ne_of_mem h
  rw [starting_quote, List.dropWhile_append_of_pos hbody, List.takeWhile_append_of_pos hbody]
  simp

theorem starting_short : ∀ p ∈ shortSymbols, starting p.2 [] = .token p.1 [p.2] := by
  decide

theorem starting_long (x : List Char) :
    ∀ p ∈ longSymbols, starting p.2 ('=' :: x) = .token p.1 [p.2, '='] := by
  simp only [longSymbols, List.forall_mem_cons]
  exact ⟨rfl, rfl, rfl, rfl, List.forall_mem_nil _⟩

theorem starting_blank (x : List Char) :
    ∀ c ∈ [' ', '\t', '\r', '\n'], starting c x = .blank c := by
  simp only [List.forall_mem_cons]
  exact ⟨rfl, rfl, rfl, rfl, List.forall_mem_nil _⟩

theorem starting_whole {d : Char} {ds : List Char} (h : ∀ c ∈ d :: ds, c.isDigit = true)
    (x : List Char) :
    starting d (ds ++ x) = .token .number
      (d :: ds ++ (x.takeWhile Char.isDigit ++ fraction (x.dropWhile Char.isDigit))) := by
  obtain ⟨hd, hds⟩ := List.forall_mem_cons.mp h
  rw [starting_of_isDigit hd, List.takeWhile_append_of_pos hds, List.dropWhile_append_of_pos hds]
  simp

theorem starting_fraction {d : Char} {ds : List Char} (h : ∀ c ∈ d :: ds, c.isDigit = true)
    {fs : List Char} (hf : IsNumeral fs) (x : List Char) :
    starting d (ds ++ '.' :: fs ++ x) =
      .token .number (d :: ds ++ '.' :: (fs ++ x.takeWhile Char.isDigit)) := by
  obtain ⟨hne, hfs⟩ := hf
  cases fs with
  | nil => exact absurd rfl hne
  | cons f fs =>
      obtain ⟨hf, hfs⟩ := List.forall_mem_cons.mp hfs
      rw [List.append_assoc, starting_whole h]
      simp [fraction, hf, List.takeWhile_append_of_pos hfs]

theorem starting_word {rest : List Char} (hc : Text.isLetter c = true)
    (h : ∀ d ∈ rest, Text.isLetter d = true ∨ Text.isDecimalDigit d = true) (x : List Char) :
    starting c (rest ++ x) = .token (wordKind (c :: (rest ++ x.takeWhile continuesWord)))
      (c :: (rest ++ x.takeWhile continuesWord)) := by
  have hrest : ∀ d ∈ rest, continuesWord d = true := by
    intro d hd
    rw [continuesWord, Bool.or_eq_true]
    exact h d hd
  rw [starting_of_isLetter hc, List.takeWhile_append_of_pos hrest]

theorem head_prefix_starting (c : Char) (rest : List Char) :
    [c] <+: (starting c rest).text := by
  obtain ⟨back, hback⟩ := text_starting_prefix c rest
  have hpos := length_text_starting_pos c rest
  cases htext : (starting c rest).text with
  | nil =>
      rw [htext] at hpos
      exact absurd hpos (Nat.lt_irrefl 0)
  | cons d text =>
      rw [htext, List.cons_append] at hback
      rw [(List.cons.inj hback).1]
      exact ⟨text, rfl⟩

end Segment

open Segment (starting)

/-- A segment starts with its own text, or more of it, wherever this text stands; on its own, it is
exactly what its text starts. -/
theorem Lexical.starting_append {s : Segment} (h : Lexical s) {c : Char} {rest : List Char}
    (hs : s.text = c :: rest) (x : List Char) :
    s.text <+: (starting c (rest ++ x)).text ∧ (x = [] → starting c (rest ++ x) = s) := by
  cases h with
  | blank h =>
      cases hs
      exact ⟨Segment.head_prefix_starting _ _, fun _ => Segment.starting_blank _ _ h⟩
  | comment h =>
      cases hs
      rw [List.cons_append, Segment.starting_comment h]
      constructor
      · simp [Segment.text]
      · intro hx
        simp [hx]
  | token h =>
      cases h with
      | short h =>
          cases hs
          refine ⟨Segment.head_prefix_starting _ _, fun hx => ?_⟩
          subst hx
          exact Segment.starting_short _ h
      | long h =>
          cases hs
          have hstart := Segment.starting_long x _ h
          rw [List.cons_append, List.nil_append, hstart]
          exact ⟨List.prefix_refl _, fun _ => rfl⟩
      | string h =>
          cases hs
          rw [List.append_assoc, List.cons_append, List.nil_append, Segment.starting_string h]
          exact ⟨List.prefix_refl _, fun _ => rfl⟩
      | whole h =>
          cases hs
          rw [Segment.starting_whole h.digit]
          constructor
          · exact List.prefix_append _ _
          · intro hx
            simp [hx, Segment.fraction]
      | @fraction whole fraction hw hf =>
          cases whole with
          | nil => exact absurd rfl hw.nonempty
          | cons d ds =>
            cases hs
            rw [List.append_eq, Segment.starting_fraction hw.digit hf]
            constructor
            · simp [Segment.text]
            · intro hx
              simp [hx]
      | word hc h =>
          cases hs
          rw [Segment.starting_word hc h]
          constructor
          · simp [Segment.text]
          · intro hx
            simp [hx]

/-- Only a string may have a blank in it. -/
theorem Lexeme.blank_notMem {kind : TokenKind} {text : List Char} {value : Literal}
    (h : Lexeme kind text value) (hk : kind ≠ .string) {c : Char} (hc : c ∈ [' ', '\n']) :
    c ∉ text := by
  have hsymbols : ∀ p ∈ shortSymbols ++ longSymbols, p.2 ∉ [' ', '\n'] := by decide
  have hequals : '=' ∉ [' ', '\n'] := by decide
  have hpoint : '.' ∉ [' ', '\n'] := by decide
  have hdigits : ∀ d ∈ [' ', '\n'], d.isDigit = false := by
    simp only [List.forall_mem_cons]
    exact ⟨rfl, rfl, List.forall_mem_nil _⟩
  have hwords : ∀ d ∈ [' ', '\n'], Segment.continuesWord d = false := by
    simp only [List.forall_mem_cons]
    exact ⟨Segment.continuesWord_space, Segment.continuesWord_newline, List.forall_mem_nil _⟩
  have hnumeral : ∀ {digits : List Char}, IsNumeral digits → c ∉ digits := by
    intro digits hnumeral hmem
    exact Bool.false_ne_true ((hdigits c hc).symm.trans (hnumeral.digit c hmem))
  intro hmem
  cases h with
  | short h =>
      obtain rfl := List.mem_singleton.mp hmem
      exact hsymbols _ (List.mem_append_left _ h) hc
  | long h =>
      obtain rfl | hmem := List.mem_cons.mp hmem
      · exact hsymbols _ (List.mem_append_right _ h) hc
      · exact hequals (List.mem_singleton.mp hmem ▸ hc)
  | string h => exact hk rfl
  | whole h => exact hnumeral h hmem
  | fraction hw hf =>
      obtain hmem | hmem := List.mem_append.mp hmem
      · exact hnumeral hw hmem
      · obtain rfl | hmem := List.mem_cons.mp hmem
        · exact hpoint hc
        · exact hnumeral hf hmem
  | word hfirst hrest =>
      have hcontinues : Segment.continuesWord c = true := by
        rw [Segment.continuesWord, Bool.or_eq_true]
        obtain rfl | hmem := List.mem_cons.mp hmem
        · exact .inl hfirst
        · exact hrest c hmem
      exact Bool.false_ne_true ((hwords c hc).symm.trans hcontinues)

theorem Lexical.text_ne_nil {s : Segment} (h : Lexical s) : s.text ≠ [] := by
  cases h with
  | blank _ | comment _ => exact List.cons_ne_nil _ _
  | token h =>
      cases h with
      | short _ | long _ | string _ | word _ _ => exact List.cons_ne_nil _ _
      | whole h => exact h.nonempty
      | fraction _ _ => exact List.append_ne_nil_of_right_ne_nil _ (List.cons_ne_nil _ _)

theorem Lexical.exists_cons {s : Segment} (h : Lexical s) {c : Char} {rest : List Char}
    (hs : s.text <+: c :: rest) : ∃ text x, s.text = c :: text ∧ rest = text ++ x := by
  obtain ⟨x, hx⟩ := hs
  cases htext : s.text with
  | nil => exact absurd htext h.text_ne_nil
  | cons d text =>
      rw [htext, List.cons_append] at hx
      obtain ⟨rfl, rfl⟩ := List.cons.inj hx
      exact ⟨text, x, rfl, rfl⟩

/-- No segment is longer than the one that is cut off. -/
theorem Lexical.length_le {s : Segment} (h : Lexical s) {c : Char} {rest : List Char}
    (hs : s.text <+: c :: rest) : s.text.length ≤ (starting c rest).text.length := by
  obtain ⟨text, x, htext, rfl⟩ := h.exists_cons hs
  exact (h.starting_append htext x).1.length_le

/-- The text of a segment tells what it is. -/
theorem Lexical.eq_of_text_eq {s s' : Segment} (h : Lexical s) (h' : Lexical s')
    (htext : s.text = s'.text) : s = s' := by
  cases hs : s.text with
  | nil => exact absurd hs h.text_ne_nil
  | cons c rest =>
      rw [← (h.starting_append hs []).2 rfl, ← (h'.starting_append (htext ▸ hs) []).2 rfl]

/-- A segment that starts with a quote ends with a second one. -/
theorem Lexical.quote_mem {s : Segment} (h : Lexical s) {body : List Char}
    (hs : s.text <+: '"' :: body) : '"' ∈ body := by
  obtain ⟨text, x, htext, rfl⟩ := h.exists_cons hs
  have hstart := (h.starting_append htext []).2 rfl
  rw [List.append_nil, Segment.starting_quote] at hstart
  split at hstart
  · rw [← hstart] at h
    cases h
  · next hclosed =>
    by_contra hquote
    rw [List.mem_append, not_or] at hquote
    exact hclosed (List.dropWhile_eq_nil_iff.mpr (Segment.decide_ne_of_mem hquote.1))

/-- What is cut off depends on the text alone. -/
theorem CutOff.unique {s s' : Segment} {rest rest' : List Char} (h : CutOff s rest)
    (h' : CutOff s' rest') (heq : s.text ++ rest = s'.text ++ rest') : s = s' := by
  cases h with
  | longest h hmax =>
      cases h' with
      | longest h' hmax' =>
          have hle := hmax _ h' (heq ▸ List.prefix_append _ _)
          have hle' := hmax' _ h (heq ▸ List.prefix_append _ _)
          exact h.eq_of_text_eq h' (List.append_inj heq (Nat.le_antisymm hle' hle)).1
      | stray hc hnone => exact absurd ⟨_, heq⟩ (hnone _ h)
      | openString hbody =>
          have hprefix : s.text <+: '"' :: _ := ⟨rest, heq.trans (List.append_nil _)⟩
          exact absurd (h.quote_mem hprefix) hbody
  | stray hc hnone =>
      cases h' with
      | longest h' _ => exact absurd ⟨_, heq.symm⟩ (hnone _ h')
      | stray _ _ =>
          rw [(List.cons.inj heq).1]
      | openString _ => exact absurd (List.cons.inj heq).1 hc
  | openString hbody =>
      cases h' with
      | longest h' _ =>
          have hprefix : s'.text <+: '"' :: _ := ⟨rest', heq.symm.trans (List.append_nil _)⟩
          exact absurd (h'.quote_mem hprefix) hbody
      | stray hc _ => exact absurd (List.cons.inj heq).1.symm hc
      | openString _ =>
          rw [List.append_nil, List.append_nil] at heq
          exact congrArg Segment.openString heq

/-! What is cut off from a text is the longest segment that it starts with. -/

theorem mem_shortSymbols {c : Char} {kind : TokenKind} (h : Segment.single? c = some kind) :
    (kind, c) ∈ shortSymbols := by
  unfold Segment.single? at h
  split at h <;> cases h <;> decide

theorem mem_symbols {c : Char} {alone compound : TokenKind}
    (h : Segment.comparison? c = some (alone, compound)) :
    (alone, c) ∈ shortSymbols ∧ (compound, c) ∈ longSymbols := by
  unfold Segment.comparison? at h
  split at h <;> cases h <;> decide

theorem not_mem_takeWhile_ne {α : Type} [DecidableEq α] (a : α) (s : List α) :
    a ∉ s.takeWhile (· ≠ a) := by
  intro hmem
  have hne := List.mem_takeWhile_imp hmem
  exact of_decide_eq_true hne rfl

theorem fraction_eq_nil_or (s : List Char) :
    Segment.fraction s = [] ∨ ∃ digits, IsNumeral digits ∧ Segment.fraction s = '.' :: digits := by
  unfold Segment.fraction
  split
  · next d rest =>
    split
    · next hd =>
      refine .inr ⟨_, ⟨List.cons_ne_nil _ _, ?_⟩, rfl⟩
      exact List.forall_mem_cons.mpr ⟨hd, fun c hc => List.mem_takeWhile_imp hc⟩
    · exact .inl rfl
  · exact .inl rfl

theorem lexical_number {c : Char} (hc : c.isDigit = true) (rest : List Char) :
    Lexical (.token .number
      (c :: rest.takeWhile Char.isDigit ++ Segment.fraction (rest.dropWhile Char.isDigit))) := by
  have hwhole : IsNumeral (c :: rest.takeWhile Char.isDigit) :=
    ⟨List.cons_ne_nil _ _,
      List.forall_mem_cons.mpr ⟨hc, fun d hd => List.mem_takeWhile_imp hd⟩⟩
  obtain hnil | ⟨digits, hdigits, hcons⟩ := fraction_eq_nil_or (rest.dropWhile Char.isDigit)
  · rw [hnil, List.append_nil]
    exact .token (.whole hwhole)
  · rw [hcons]
    exact .token (.fraction hwhole hdigits)

theorem lexical_word {c : Char} (hc : Text.isLetter c = true) (rest : List Char) :
    Lexical (.token (Segment.wordKind (c :: rest.takeWhile Segment.continuesWord))
      (c :: rest.takeWhile Segment.continuesWord)) := by
  refine .token (.word hc fun d hd => ?_)
  have hword := List.mem_takeWhile_imp hd
  rwa [Segment.continuesWord, Bool.or_eq_true] at hword

theorem lexical_blank {c : Char} (hc : Segment.isBlank c = true) : Lexical (.blank c) := by
  refine .blank ?_
  simpa [Segment.isBlank, or_assoc] using hc

theorem Lexical.cutOff {c : Char} {rest : List Char} (h : Lexical (starting c rest)) :
    CutOff (starting c rest) ((c :: rest).drop (starting c rest).text.length) := by
  refine .longest h fun s' h' hprefix => ?_
  rw [List.prefix_iff_eq_append.mp (Segment.text_starting_prefix c rest)] at hprefix
  exact h'.length_le hprefix

theorem cutOff_starting (c : Char) (rest : List Char) :
    CutOff (starting c rest) ((c :: rest).drop (starting c rest).text.length) := by
  cases Segment.startsAs c with
  | single hc hs =>
      apply Lexical.cutOff
      rw [hs]
      exact .token (.short (mem_shortSymbols hc))
  | comparison hc hs =>
      apply Lexical.cutOff
      obtain ⟨halone, hcompound⟩ := mem_symbols hc
      rw [hs]
      split
      · exact .token (.long hcompound)
      · exact .token (.short halone)
  | slash hc hs =>
      apply Lexical.cutOff
      subst hc
      rw [hs]
      split
      · next hhead =>
        obtain ⟨back, rfl⟩ := List.head?_eq_some_iff.mp hhead
        exact .comment (not_mem_takeWhile_ne '\n' back)
      · exact .token (.short (by decide))
  | quote hc hs =>
      subst hc
      by_cases hopen : rest.dropWhile (· ≠ '"') = []
      · have hrest : '"' ∉ rest := by
          intro hmem
          exact of_decide_eq_true (List.dropWhile_eq_nil_iff.mp hopen _ hmem) rfl
        rw [hs, if_pos hopen, Segment.text, List.drop_length]
        exact .openString hrest
      · apply Lexical.cutOff
        rw [hs, if_neg hopen]
        exact .token (.string (not_mem_takeWhile_ne '"' rest))
  | blank hc hs =>
      apply Lexical.cutOff
      rw [hs]
      exact lexical_blank hc
  | digit hc hs =>
      apply Lexical.cutOff
      rw [hs]
      exact lexical_number hc rest
  | letter hc hs =>
      apply Lexical.cutOff
      rw [hs]
      exact lexical_word hc rest
  | stray hs =>
      rw [hs]
      apply CutOff.stray
      · intro hc
        subst hc
        exact Segment.noConfusion (hs [])
      · intro s h hprefix
        obtain ⟨text, x, htext, -⟩ := h.exists_cons hprefix
        have hstart := (h.starting_append htext []).2 rfl
        rw [hs] at hstart
        rw [← hstart] at h
        cases h

/-- Cutting a text divides it as the grammar says. -/
theorem division_segments (source : List Char) : Division source (segments source) := by
  fun_induction segments source with
  | case1 => exact .nil
  | case2 c rest segment ih =>
      have hparts := List.prefix_iff_eq_append.mp (Segment.text_starting_prefix c rest)
      have hcons := Division.cons (cutOff_starting c rest) ih
      rwa [hparts] at hcons

theorem CutOff.text_ne_nil {s : Segment} {rest : List Char} (h : CutOff s rest) :
    s.text ≠ [] := by
  cases h with
  | longest h _ => exact h.text_ne_nil
  | stray _ _ | openString _ => exact List.cons_ne_nil _ _

/-- A text can be divided in one way only. -/
theorem Division.eq_segments {source : List Char} {segs : List Segment}
    (h : Division source segs) : segs = segments source := by
  induction h with
  | nil => rw [segments]
  | @cons s rest segs hcut _ ih =>
      -- Cutting goes by the first character, so the text is taken apart there.
      cases hsource : s.text ++ rest with
      | nil => exact absurd (List.append_eq_nil_iff.mp hsource).1 hcut.text_ne_nil
      | cons c tail =>
          have hparts := List.prefix_iff_eq_append.mp (Segment.text_starting_prefix c tail)
          have hs := hcut.unique (cutOff_starting c tail) (hsource.trans hparts.symm)
          rw [segments, ← hs, ← hsource, List.drop_left, ih]

theorem division_iff {source : List Char} {segs : List Segment} :
    Division source segs ↔ segs = segments source := by
  constructor
  · exact Division.eq_segments
  · intro h
    rw [h]
    exact division_segments source

end Scriptlet
