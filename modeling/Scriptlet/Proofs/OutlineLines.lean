import Scriptlet.Program.Outline
import Scriptlet.Proofs.CompactNumerals
import Scriptlet.Proofs.QuotedTexts
import Scriptlet.Proofs.SessionSafety
import Scriptlet.Proofs.SpacedLexemes

/-!
The text of an outline tells its lines: the first letter of a label ends the margin in front of it,
and no label has a line break in it. The labels of a program that was read from a source text are of
that kind, since its operators and names are lexemes without blanks.
-/

namespace Scriptlet

namespace OutlineLine

/-- The label starts with a letter and stays on its line. -/
def IsPlain (label : String) : Prop :=
  label.toList.head?.any Char.isAlpha = true ∧ '\n' ∉ label.toList

instance (label : String) : Decidable (IsPlain label) :=
  inferInstanceAs (Decidable (_ ∧ _))

variable {line line' : OutlineLine}

theorem IsPlain.exists_cons {label : String} (h : IsPlain label) :
    ∃ c rest, label.toList = c :: rest ∧ c.isAlpha = true := by
  obtain ⟨hnamed, -⟩ := h
  cases hlabel : label.toList with
  | nil =>
      rw [hlabel] at hnamed
      cases hnamed
  | cons c rest =>
      rw [hlabel] at hnamed
      exact ⟨c, rest, rfl, hnamed⟩

/-- A text behind a plain label keeps it plain, unless the text has a line break. -/
theorem IsPlain.append {name text : String} (h : IsPlain name) (htext : '\n' ∉ text.toList) :
    IsPlain (name ++ text) := by
  obtain ⟨c, rest, hname, hc⟩ := h.exists_cons
  constructor
  · rw [String.toList_append, hname]
    exact hc
  · rw [String.toList_append, List.mem_append, not_or]
    exact ⟨h.2, htext⟩

/-- All labels are plain. -/
def ArePlain (lines : List OutlineLine) : Prop := ∀ line ∈ lines, IsPlain line.label

theorem ArePlain.nil : ArePlain [] := List.forall_mem_nil _

theorem ArePlain.cons {label : String} {lines : List OutlineLine} (h : IsPlain label)
    (hlines : ArePlain lines) (depth : Nat) : ArePlain (⟨depth, label⟩ :: lines) :=
  List.forall_mem_cons.mpr ⟨h, hlines⟩

theorem ArePlain.append {lines lines' : List OutlineLine} (h : ArePlain lines)
    (h' : ArePlain lines') : ArePlain (lines ++ lines') :=
  List.forall_mem_append.mpr ⟨h, h'⟩

/-- What stands between the spaces of the margin and the end of the line. -/
def trimmed (line : OutlineLine) : List Char :=
  if line.depth = 0 then line.label.toList else '|' :: ' ' :: line.label.toList

theorem toList_render (line : OutlineLine) :
    line.render.toList = List.replicate (3 * line.depth - 1) ' ' ++ (line.trimmed ++ ['\n']) := by
  simp only [render, margin, trimmed, String.toList_append]
  split
  · next h =>
      rw [h]
      rfl
  · rw [String.toList_ofList, List.append_assoc, List.append_assoc]
    rfl

theorem IsPlain.exists_trimmed (h : IsPlain line.label) :
    ∃ c rest, line.trimmed = c :: rest ∧ (c == ' ') = false := by
  unfold trimmed
  split
  · obtain ⟨c, rest, hlabel, hc⟩ := h.exists_cons
    refine ⟨c, rest, hlabel, beq_eq_false_iff_ne.mpr ?_⟩
    rintro rfl
    cases hc
  · exact ⟨_, _, rfl, rfl⟩

/-- The spaces tell the depth, and the line break tells where the label ends. -/
theorem IsPlain.eq_of_render_append (h : IsPlain line.label) (h' : IsPlain line'.label)
    {rest rest' : List Char}
    (heq : line.render.toList ++ rest = line'.render.toList ++ rest') :
    line = line' ∧ rest = rest' := by
  obtain ⟨c, text, htext, hc⟩ := h.exists_trimmed
  obtain ⟨c', text', htext', hc'⟩ := h'.exists_trimmed
  have hspaces : ∀ n, ∀ d ∈ List.replicate n ' ', (d == ' ') = true := by
    intro n d hd
    exact beq_iff_eq.mpr (List.mem_replicate.mp hd).2
  rw [toList_render, toList_render, htext, htext'] at heq
  simp only [List.append_assoc, List.cons_append] at heq
  obtain ⟨hmargin, hfirst, hrest⟩ :=
    eq_of_append_stop (p := (· == ' ')) (hspaces _) (hspaces _) hc hc' heq
  have hdepth : line.depth = line'.depth := by
    have hlength := congrArg List.length hmargin
    rw [List.length_replicate, List.length_replicate] at hlength
    omega
  have htrimmed : line.trimmed ++ '\n' :: rest = line'.trimmed ++ '\n' :: rest' := by
    rw [htext, htext', List.cons_append, List.cons_append, hfirst]
    exact congrArg (c' :: ·) hrest
  have hlabel : line.label.toList ++ '\n' :: rest = line'.label.toList ++ '\n' :: rest' := by
    unfold trimmed at htrimmed
    rw [← hdepth] at htrimmed
    split at htrimmed
    · exact htrimmed
    · exact (List.cons.inj (List.cons.inj htrimmed).2).2
  have hkept : ∀ {label : String}, IsPlain label → ∀ d ∈ label.toList, (d != '\n') = true := by
    intro label hplain d hd
    exact bne_iff_ne.mpr fun heq => hplain.2 (heq ▸ hd)
  obtain ⟨hsame, -, hbehind⟩ :=
    eq_of_append_stop (p := (· != '\n')) (hkept h) (hkept h') rfl rfl hlabel
  refine ⟨?_, hbehind⟩
  cases line
  cases line'
  exact congrArg₂ OutlineLine.mk hdepth (String.toList_injective hsame)

theorem eq_of_join_render_eq {lines lines' : List OutlineLine}
    (h : ArePlain lines) (h' : ArePlain lines')
    (heq : String.join (lines.map render) = String.join (lines'.map render)) : lines = lines' := by
  have hne : ∀ (line : OutlineLine) (rest : List Char), line.render.toList ++ rest ≠ [] := by
    intro line rest
    rw [toList_render]
    simp
  replace heq := congrArg String.toList heq
  simp only [String.toList_join, List.flatMap_map] at heq
  induction lines generalizing lines' with
  | nil =>
      cases lines' with
      | nil => rfl
      | cons line' lines' => exact absurd heq.symm (hne line' _)
  | cons line lines ih =>
      cases lines' with
      | nil => exact absurd heq (hne line _)
      | cons line' lines' =>
          obtain ⟨hline, hlines⟩ := List.forall_mem_cons.mp h
          obtain ⟨hline', hlines'⟩ := List.forall_mem_cons.mp h'
          obtain ⟨rfl, hrest⟩ := hline.eq_of_render_append hline' heq
          rw [ih hlines hlines' hrest]

end OutlineLine

/-! Tokens as the scanner makes them. -/

theorem Lexeme.ne_integer {kind : TokenKind} {text : List Char} {value : Literal}
    (h : Lexeme kind text value) (n : Int) : value ≠ .integer n := by
  cases h <;> exact Literal.noConfusion

namespace Token.FromLexeme

variable {t t' : Token}

/-- The lexeme tells the token but for its line. -/
theorem content_eq (h : t.FromLexeme) (h' : t'.FromLexeme) (heq : t.lexeme = t'.lexeme) :
    t.content = t'.content := by
  have hsegment := (Lexical.token h).eq_of_text_eq (.token h') (congrArg String.toList heq)
  obtain ⟨hkind, -⟩ := Segment.token.inj hsegment
  have hliteral : t.literal = t'.literal := by
    rw [← h.literal_eq, ← h'.literal_eq, hkind, heq]
  rw [content, content, hkind, heq, hliteral]

theorem newline_notMem (h : t.FromLexeme) (hk : t.kind ≠ .string) : '\n' ∉ t.lexeme.toList :=
  h.blank_notMem hk (by decide)

theorem space_notMem (h : t.FromLexeme) (hk : t.kind ≠ .string) : ' ' ∉ t.lexeme.toList :=
  h.blank_notMem hk (by decide)

end Token.FromLexeme

/-- Only tokens of lexemes have a place in the tree of a source text. -/
theorem wellFormed_fromLexeme (source : List Char) :
    WellFormedProgram Token.FromLexeme (parse (scan source).tokens).program := by
  refine wellFormedProgram_mono (fun t ht hend => ?_) _ (wellFormed_parse_scan source)
  obtain hlexeme | heq := fromLexeme_or_end ht
  · exact hlexeme
  · exact absurd (congrArg Prod.fst heq) hend

/-! All lines of such a tree are plain. -/

open OutlineLine (IsPlain ArePlain)

theorem Literal.ComesFrom.ne_integer {v : Literal} (h : v.ComesFrom Token.FromLexeme) (n : Int) :
    v ≠ .integer n := by
  cases h with
  | nil | bool b => exact Literal.noConfusion
  | token ht hk => exact Lexeme.ne_integer ht n

theorem Literal.isPlain_outlineLabel {v : Literal} (h : v.ComesFrom Token.FromLexeme) :
    IsPlain v.outlineLabel := by
  cases v with
  | nil => decide
  | string s => exact .append (by decide) (Text.newline_notMem_quoted s)
  | number x => exact .append (by decide) (Number.newline_notMem_compact x)
  | bool b => cases b <;> decide
  | integer n => exact absurd rfl (h.ne_integer n)

theorem ne_string_of_isBinaryOperator {k : TokenKind} (h : isBinaryOperator k = true) :
    k ≠ .string := by
  rintro rfl
  cases h

theorem Expr.arePlain_outline {e : Expr} (h : e.WellFormed Token.FromLexeme) (depth : Nat) :
    ArePlain (e.outline depth) := by
  induction e generalizing depth with
  | literal v => exact .cons (Literal.isPlain_outlineLabel h) .nil depth
  | grouping e ih => exact .cons (by decide) (ih h _) depth
  | unary op e ih =>
      obtain ⟨hop, ht, he⟩ := h
      have hk : op.kind ≠ .string := by
        obtain hk | hk := hop <;> rw [hk] <;> decide
      exact .cons (.append (by decide) (ht.newline_notMem hk)) (ih he _) depth
  | binary left op right ihl ihr =>
      obtain ⟨hop, ht, hl, hr⟩ := h
      have hk := ne_string_of_isBinaryOperator hop
      exact .cons (.append (by decide) (ht.newline_notMem hk)) ((ihl hl _).append (ihr hr _)) depth
  | logical left op right ihl ihr =>
      obtain ⟨hop, ht, hl, hr⟩ := h
      have hk : op.kind ≠ .string := by
        obtain hk | hk := hop <;> rw [hk] <;> decide
      exact .cons (.append (by decide) (ht.newline_notMem hk)) ((ihl hl _).append (ihr hr _)) depth
  | «variable» name =>
      have hk : name.kind ≠ .string := h.1 ▸ TokenKind.noConfusion
      exact .cons (.append (by decide) (h.2.newline_notMem hk)) .nil depth
  | assign name e ih =>
      obtain ⟨hname, ht, he⟩ := h
      have hk : name.kind ≠ .string := hname ▸ TokenKind.noConfusion
      exact .cons (.append (by decide) (ht.newline_notMem hk)) (ih he _) depth
  | missing | foreign typeName => exact h.elim

mutual

theorem Stmt.arePlain_outline (depth : Nat) (s : Stmt) (h : s.WellFormed Token.FromLexeme) :
    ArePlain (s.outline depth) := by
  match s with
  | .expression e | .print e => exact .cons (by decide) (e.arePlain_outline h _) depth
  | .declare name e =>
      obtain ⟨hname, ht, he⟩ := h
      have hk : name.kind ≠ .string := hname ▸ TokenKind.noConfusion
      have hlabel : IsPlain ("Var " ++ name.lexeme) := .append (by decide) (ht.newline_notMem hk)
      rw [Stmt.outline]
      split
      · exact .cons hlabel .nil depth
      · next hpresent =>
          obtain rfl | he := he
          · exact absurd rfl hpresent
          · exact .cons (.append hlabel (by decide)) (e.arePlain_outline he _) depth
  | .block body => exact .cons (by decide) (Stmt.arePlain_outlineAll _ body h) depth
  | .conditional e s s' =>
      obtain ⟨he, ⟨-, hs⟩, hs'⟩ := h
      rw [Stmt.outline]
      refine .cons (by decide) (.append (.append (e.arePlain_outline he _)
        (Stmt.arePlain_outline _ s hs)) ?_) depth
      split
      · exact .nil
      · next hpresent =>
          obtain rfl | hs' := hs'
          · exact absurd rfl hpresent
          · exact .cons (by decide) (Stmt.arePlain_outline _ s' hs'.2) depth
  | .loop e s =>
      obtain ⟨he, -, hs⟩ := h
      have hbody := Stmt.arePlain_outline (depth + 1) s hs
      exact .cons (by decide) ((e.arePlain_outline he _).append hbody) depth
  | .missing | .foreign typeName => exact h.elim

theorem Stmt.arePlain_outlineAll (depth : Nat) (program : List Stmt)
    (h : WellFormedProgram Token.FromLexeme program) :
    ArePlain (Stmt.outlineAll depth program) := by
  match program with
  | [] => exact .nil
  | s :: rest =>
      exact (Stmt.arePlain_outline depth s h.1).append (Stmt.arePlain_outlineAll depth rest h.2)

end

/-- Outlines of the same text have the same lines. -/
theorem outlineAll_eq_of_outline_eq {p p' : List Stmt} (h : WellFormedProgram Token.FromLexeme p)
    (h' : WellFormedProgram Token.FromLexeme p') (heq : outline p = outline p') :
    Stmt.outlineAll 0 p = Stmt.outlineAll 0 p' :=
  OutlineLine.eq_of_join_render_eq (Stmt.arePlain_outlineAll 0 p h)
    (Stmt.arePlain_outlineAll 0 p' h') heq

end Scriptlet
