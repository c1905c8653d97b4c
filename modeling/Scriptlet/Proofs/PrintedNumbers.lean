import Scriptlet.Proofs.CompactNumerals
import Scriptlet.Proofs.SpacedLexemes
import Scriptlet.Proofs.WrittenExpressions

/-!
Printed numbers are source text. The digits of a finite number make up one lexeme, which is read as
the number without its sign; in front of them a minus sign is a token of its own. So the text of a
number is an expression, and its value is the number.
-/

namespace Scriptlet

/-- A number ends in front of a character that is neither a digit nor a point. -/
theorem Lexeme.segments_number {text : List Char} {value : Literal}
    (h : Lexeme .number text value) {x : Char} (hdigit : x.isDigit = false) (hpoint : x ≠ '.')
    (back : List Char) :
    segments (text ++ x :: back) = .token .number text :: segments (x :: back) := by
  have hsymbols : ∀ p ∈ shortSymbols ++ longSymbols, p.1 ≠ .number := by decide
  have hfraction : Segment.fraction (x :: back) = [] := by
    unfold Segment.fraction
    split
    · next heq => exact absurd (List.cons.inj heq).1 hpoint
    · rfl
  obtain ⟨c, rest, htext⟩ := h.exists_cons
  refine segments_append (s := .token .number text) htext ?_
  generalize hkind : TokenKind.number = kind at h ⊢
  cases h with
  | short h => exact absurd hkind.symm (hsymbols _ (List.mem_append_left _ h))
  | long h => exact absurd hkind.symm (hsymbols _ (List.mem_append_right _ h))
  | string h => cases hkind
  | whole h =>
      subst htext
      rw [Segment.starting_whole h.digit]
      simp [hdigit, hfraction]
  | @fraction whole fraction hw hf =>
      cases whole with
      | nil => exact absurd rfl hw.nonempty
      | cons d ds =>
          cases htext
          rw [List.append_eq, Segment.starting_fraction hw.digit hf]
          simp [hdigit]
  | word hc h => exact absurd hkind.symm (Segment.wordKind_ne TokenKind.noConfusion (by decide) _)

namespace Decimal

variable {d : Decimal}

theorem newline_notMem_positional (d : Decimal) : '\n' ∉ d.positional := by
  intro h
  obtain h | h := isDigit_or_eq_point h <;> cases h

/-- With every digit in its place, a numeral is a lexeme with the number that it is read as. -/
theorem lexeme_positional (hfinite : Number.IsFinite d.toFloat) :
    Lexeme .number d.positional (.number d.toFloat) := by
  by_cases hneg : d.exponent < 0
  · obtain ⟨whole, fraction, heq, hne, hwhole, hfraction, hof⟩ := exists_positional_eq hneg
    have hne' : fraction ≠ [] := by
      rintro rfl
      rw [← hof] at hneg
      exact absurd hneg (Int.lt_irrefl 0)
    rw [heq, ← hof]
    exact .fraction ⟨hne, hwhole⟩ ⟨hne', hfraction⟩
  · -- The zeros behind the coefficient are written out, and read as digits.
    have hnonneg : 0 ≤ d.exponent := Int.not_lt.mp hneg
    have hnumeral : IsNumeral d.positional := by
      refine ⟨?_, fun c hc => isDigit_of_mem_positional hnonneg hc⟩
      rw [positional_of_nonneg hnonneg]
      exact List.append_ne_nil_of_left_ne_nil (List.ne_nil_of_length_pos Nat.length_toDigits_pos) _
    rw [← toFloat_ofDigits_positional hnonneg (exponent_le_of_isFinite hfinite)]
    exact .whole hnumeral

end Decimal

namespace Number

variable {v : Float}

theorem not_isNaN_of_isFinite (h : v.isFinite = true) : v.isNaN = false ∧ v.isInf = false := by
  change v.toModel.unpack.isFinite = true at h
  change v.toModel.unpack.isNaN = false ∧ v.toModel.unpack.isInf = false
  cases hunpack : v.toModel.unpack with
  | notANumber | infinity s =>
      rw [hunpack] at h
      cases h
  | zero s | finite s m e hm => exact ⟨rfl, rfl⟩

theorem IsFinite.neg_neg (h : IsFinite v) : -(-v) = v := by
  apply Decimal.Binary.eq_of_unpack_eq
  change (Float.Model.pack (-v).toModel.unpack.neg).unpack = _
  rw [h.unpack_neg, ← Decimal.Binary.neg_signed, Decimal.Binary.neg_neg,
    Decimal.Binary.unpack_pack _ h.canonical, h.unpack_eq]

/-- The digits of a number, its sign left out. -/
def digits (v : Float) : List Char := (Decimal.shortest (magnitude v)).positional

theorem toList_text (h : v.isFinite = true) :
    (text v).toList = (if isNegative v then ['-'] else []) ++ digits v := by
  obtain ⟨hnan, hinf⟩ := not_isNaN_of_isFinite h
  simp only [text, hnan, hinf, if_neg Bool.false_ne_true, signed, String.toList_ofList, digits]
  split <;> rfl

/-- They are read as the number without its sign. -/
theorem lexeme_digits (h : v.isFinite = true) :
    Lexeme .number (digits v) (.number (magnitude v)) := by
  obtain ⟨hnan, hinf⟩ := not_isNaN_of_isFinite h
  obtain ⟨hfinite, hsign⟩ := (isFinite_of_not hnan hinf).magnitude
  have hread := Decimal.toFloat_shortest hfinite hsign
  rw [← hread] at hfinite
  have hlexeme := Decimal.lexeme_positional hfinite
  rwa [hread] at hlexeme

theorem text_eq_digits (h : v.isFinite = true) (hsign : isNegative v = false) :
    text v = String.ofList (digits v) := by
  apply String.toList_injective
  rw [toList_text h, hsign, String.toList_ofList]
  rfl

theorem text_eq_minus_append (h : v.isFinite = true) (hsign : isNegative v = true) :
    text v = "-" ++ String.ofList (digits v) := by
  apply String.toList_injective
  rw [toList_text h, hsign, String.toList_append, String.toList_ofList, String.toList_ofList]
  rfl

def minus : Token := ⟨.minus, "-", .nil, 1⟩

/-- The token of the digits. -/
def numeral (v : Float) : Token :=
  ⟨.number, String.ofList (digits v), .number (magnitude v), 1⟩

/-- The tokens of the text of a number. -/
def tokens (v : Float) : List Token :=
  (if isNegative v then [minus] else []) ++ [numeral v]

/-- What the text of a number reads as. -/
def expression (v : Float) : Expr :=
  if isNegative v then .unary minus (.literal (.number (magnitude v)))
  else .literal (.number (magnitude v))

/-- The text of a number is scanned to its tokens if the digits end where it ends. -/
theorem scan_text_append (h : v.isFinite = true) (after : List Char)
    (lexemes : List (TokenKind × List Char)) (hline : ∀ p ∈ lexemes, '\n' ∉ p.2)
    (hafter : segments (digits v ++ after) = tokenSegments ((.number, digits v) :: lexemes)) :
    scan ((text v).toList ++ after) =
      ⟨tokens v ++ (lexemes.map (fun p => ⟨p.1, String.ofList p.2, Segment.literal p.1 p.2, 1⟩) ++
        [⟨.endOfFile, "", .nil, 1⟩]), []⟩ := by
  have hlines : ∀ p ∈ (TokenKind.number, digits v) :: lexemes, '\n' ∉ p.2 :=
    List.forall_mem_cons.mpr ⟨Decimal.newline_notMem_positional _, hline⟩
  have hvalue := (lexeme_digits h).literal_eq
  rw [toList_text h, List.append_assoc, scan, tokens, numeral, ← hvalue]
  split
  · -- The sign is cut off on its own, whatever follows; then it goes on as without it.
    have hminus : segments (['-'] ++ (digits v ++ after)) =
        .token .minus ['-'] :: segments (digits v ++ after) :=
      segments_append (s := .token .minus ['-']) (c := '-') rfl rfl
    have hsigned : segments (['-'] ++ (digits v ++ after)) =
        tokenSegments ((.minus, ['-']) :: (.number, digits v) :: lexemes) := by
      rw [hminus, hafter]
      rfl
    rw [hsigned, ofSegments_tokenSegments (List.forall_mem_cons.mpr ⟨by decide, hlines⟩)]
    rfl
  · rw [List.nil_append, hafter, ofSegments_tokenSegments hlines]
    rfl

theorem scan_text (h : v.isFinite = true) :
    scan (text v).toList = ⟨tokens v ++ [⟨.endOfFile, "", .nil, 1⟩], []⟩ := by
  have hscan := scan_text_append h [] [] (List.forall_mem_nil _) ?_
  · rwa [List.append_nil] at hscan
  · rw [List.append_nil, (lexeme_digits h).segments_eq]
    rfl

theorem scan_text_semicolon (h : v.isFinite = true) :
    scan ((text v).toList ++ [';']) =
      ⟨tokens v ++ [⟨.semicolon, ";", .nil, 1⟩, ⟨.endOfFile, "", .nil, 1⟩], []⟩ := by
  have hsemicolon : Lexeme .semicolon [';'] .nil := .short (by decide)
  apply scan_text_append h [';'] [(.semicolon, [';'])]
  · decide
  · rw [(lexeme_digits h).segments_number rfl (by decide), hsemicolon.segments_eq]
    rfl

theorem derives_expression (v : Float) :
    Derivation.DerivesExpression (expression v) (tokens v) := by
  have hliteral : Derivation.DerivesAt none (.literal (.number (magnitude v))) [numeral v] :=
    Derivation.derivesAt_literal ⟨rfl, rfl⟩
  unfold expression tokens
  split
  · exact (hliteral.unary (.inr rfl)).expression
  · exact hliteral.expression

theorem evaluate_expression (h : v.isFinite = true) (σ : Scopes) :
    evaluate (expression v) σ = (.ok (.number v), σ) := by
  obtain ⟨hnan, hinf⟩ := not_isNaN_of_isFinite h
  unfold expression magnitude
  split
  · have hvalue : evaluate (.unary minus (.literal (.number (-v)))) σ =
        (.ok (.number (-(-v))), σ) := rfl
    rw [hvalue, (isFinite_of_not hnan hinf).neg_neg]
  · rfl

end Number

/-- What is printed of a finite number is source text: one number token with this number, or a minus
sign and a number token with the number of the other sign. As an expression it has the value that
was printed. -/
theorem printed_number_is_source {v : Float} (hv : v.isFinite = true) :
    ∃ text, (Value.number v).text? = some text ∧
      (Number.isNegative v = false →
        scan text.toList = ⟨[⟨.number, text, .number v, 1⟩, ⟨.endOfFile, "", .nil, 1⟩], []⟩) ∧
      (Number.isNegative v = true → ∃ digits, text = "-" ++ digits ∧
        scan text.toList = ⟨[⟨.minus, "-", .nil, 1⟩, ⟨.number, digits, .number (-v), 1⟩,
          ⟨.endOfFile, "", .nil, 1⟩], []⟩) ∧
      ∃ e, (scan (text.toList ++ [';'])).errors = [] ∧
        parse (scan (text.toList ++ [';'])).tokens = ⟨[.expression e], []⟩ ∧
        ∀ σ, evaluate e σ = (.ok (.number v), σ) := by
  refine ⟨Number.text v, rfl, ?_, ?_, Number.expression v, ?_, ?_, Number.evaluate_expression hv⟩
  · intro hsign
    rw [Number.scan_text hv, Number.tokens, Number.numeral, ← Number.text_eq_digits hv hsign,
      Number.magnitude, hsign]
    rfl
  · intro hsign
    refine ⟨_, Number.text_eq_minus_append hv hsign, ?_⟩
    rw [Number.scan_text hv, Number.tokens, Number.numeral, Number.magnitude, hsign]
    rfl
  · rw [Number.scan_text_semicolon hv]
  · rw [Number.scan_text_semicolon hv]
    have hkind : (⟨.semicolon, ";", .nil, 1⟩ : Token).kind = .semicolon := rfl
    refine (Number.derives_expression v).parse_of_beforeEnd hkind ?_
    unfold Number.tokens
    split <;> rfl

theorem printed_number_is_source_negative_zero :
    let v := Float.ofBits 0x8000000000000000
    v.isFinite = true ∧ Number.isNegative v = true ∧
      ∃ text, (Value.number v).text? = some text ∧
        (∃ digits, text = "-" ++ digits ∧
          scan text.toList = ⟨[⟨.minus, "-", .nil, 1⟩, ⟨.number, digits, .number (-v), 1⟩,
            ⟨.endOfFile, "", .nil, 1⟩], []⟩) ∧
        ∃ e, parse (scan (text.toList ++ [';'])).tokens = ⟨[.expression e], []⟩ ∧
          ∀ σ, evaluate e σ = (.ok (.number v), σ) := by
  intro v
  have hv : v.isFinite = true := by decide +kernel
  have hsign : Number.isNegative v = true := by decide +kernel
  obtain ⟨text, htext, -, hscan, e, -, hparse, hvalue⟩ := printed_number_is_source hv
  exact ⟨hv, hsign, text, htext, hscan hsign, e, hparse, hvalue⟩

end Scriptlet
