import Scriptlet.Proofs.AlikeReading
import Scriptlet.Proofs.OutlineLines

/-!
An outline tells the program. The first word of a line names the form of its node, which tells how
many expressions follow it. Where the statements of a block end, and whether a conditional has an
alternative, the depth of the next line tells.
-/

namespace Scriptlet

/-! Each form of node has words of its own. -/

/-- The word that a label starts with. -/
def OutlineLine.word (label : String) : String :=
  String.ofList (label.toList.takeWhile Char.isAlpha)

/-- The form of the node. Literals have a word for each type, all other forms have one word. -/
def OutlineLine.form (label : String) : String :=
  if word label ∈ ["Nil", "Str", "Num", "Bool"] then "Literal" else word label

def Literal.word : Literal → String
  | .nil => "Nil"
  | .string _ => "Str"
  | .number _ => "Num"
  | .bool _ => "Bool"
  | .integer _ => "Literal"

def Expr.form : Expr → String
  | .literal _ => "Literal"
  | .grouping _ => "Grouping"
  | .unary .. => "Unary"
  | .binary .. => "Binary"
  | .logical .. => "Logical"
  | .variable _ => "Variable"
  | .assign .. => "Assign"
  | .missing | .foreign _ => "Error"

def Stmt.form : Stmt → String
  | .expression _ => "ExprStmt"
  | .print _ => "Print"
  | .declare .. => "Var"
  | .block _ => "Block"
  | .conditional .. => "If"
  | .loop .. => "While"
  | .missing | .foreign _ => "Error"

theorem OutlineLine.word_append {name : String} (h : ' ' ∈ name.toList) (text : String) :
    word (name ++ text) = word name := by
  obtain ⟨front, back, hname⟩ := List.append_of_mem h
  have hspace : Char.isAlpha ' ' = false := rfl
  simp only [word, String.toList_append, hname, List.append_assoc, List.cons_append,
    takeWhile_append_stop hspace]

theorem OutlineLine.form_append {name : String} (h : ' ' ∈ name.toList) (text : String) :
    form (name ++ text) = form name := by
  rw [form, form, word_append h]

theorem Literal.word_outlineLabel (v : Literal) : OutlineLine.word v.outlineLabel = v.word := by
  cases v with
  | nil => rfl
  | string s | number x | bool b | integer n => exact OutlineLine.word_append (by decide) _

theorem Expr.exists_outline_eq {T : Token → Prop} {e : Expr} (h : e.WellFormed T) (depth : Nat) :
    ∃ label below, e.outline depth = ⟨depth, label⟩ :: below ∧ OutlineLine.form label = e.form := by
  cases e with
  | literal v =>
      refine ⟨_, _, rfl, ?_⟩
      rw [OutlineLine.form, v.word_outlineLabel]
      cases v <;> rfl
  | grouping e => exact ⟨_, _, rfl, rfl⟩
  | unary | binary | logical | «variable» | assign =>
      exact ⟨_, _, rfl, OutlineLine.form_append (by decide) _⟩
  | missing | foreign => exact h.elim

theorem Stmt.exists_outline_eq {T : Token → Prop} {s : Stmt} (h : s.WellFormed T) (depth : Nat) :
    ∃ label below, s.outline depth = ⟨depth, label⟩ :: below ∧ OutlineLine.form label = s.form := by
  cases s with
  | expression | print | block | conditional | loop => exact ⟨_, _, rfl, rfl⟩
  | declare name e =>
      rw [outline]
      split
      · exact ⟨_, _, rfl, OutlineLine.form_append (by decide) _⟩
      · refine ⟨_, _, rfl, ?_⟩
        rw [String.append_assoc]
        exact OutlineLine.form_append (by decide) _
  | missing | foreign => exact h.elim

/-- Lines that are the same are of nodes of the same form. -/
theorem OutlineLine.form_eq_of_cons_eq {lines lines' below below' rest rest' : List OutlineLine}
    {depth : Nat} {label label' form form' : String} (hlines : lines = ⟨depth, label⟩ :: below)
    (hform : OutlineLine.form label = form) (hlines' : lines' = ⟨depth, label'⟩ :: below')
    (hform' : OutlineLine.form label' = form') (h : lines ++ rest = lines' ++ rest') :
    form = form' := by
  rw [hlines, hlines'] at h
  have hlabel : label = label' := congrArg OutlineLine.label (List.cons.inj h).1
  rw [← hform, ← hform', hlabel]

section Expressions

variable {e e' : Expr} {depth : Nat} {rest rest' : List OutlineLine}

theorem Literal.eq_of_outlineLabel_eq {v v' : Literal} (hv : ∀ n, v ≠ .integer n)
    (h : v.outlineLabel = v'.outlineLabel) : v = v' := by
  have hword : v.word = v'.word := by
    rw [← word_outlineLabel, h, word_outlineLabel]
  cases v with
  | nil =>
      cases v' with
      | nil => rfl
      | _ => simp [word] at hword
  | string s =>
      cases v' with
      | string s' => rw [Text.quoted_injective ((String.append_right_inj _).mp h)]
      | _ => simp [word] at hword
  | number x =>
      cases v' with
      | number x' => rw [Number.eq_of_compact_eq ((String.append_right_inj _).mp h)]
      | _ => simp [word] at hword
  | bool b =>
      cases v' with
      | bool b' =>
          have hplain : ∀ b b', (bool b).plain = (bool b').plain → b = b' := by decide
          rw [hplain b b' ((String.append_right_inj _).mp h)]
      | _ => simp [word] at hword
  | integer n => exact absurd rfl (hv n)

/-- Tokens that differ at most in the line. -/
abbrev Token.SameButLine (t t' : Token) : Prop := t.content = t'.content

/-- A line that names a token behind a fixed text tells the token. -/
theorem Token.FromLexeme.sameButLine_of_line_eq {t t' : Token} (h : t.FromLexeme)
    (h' : t'.FromLexeme) {name : String}
    (heq : (⟨depth, name ++ t.lexeme⟩ : OutlineLine) = ⟨depth, name ++ t'.lexeme⟩) :
    t.SameButLine t' :=
  h.content_eq h' ((String.append_right_inj _).mp (congrArg OutlineLine.label heq))

theorem Expr.form_eq_of_outline_eq {T : Token → Prop} (h : e.WellFormed T) (h' : e'.WellFormed T)
    (heq : e.outline depth ++ rest = e'.outline depth ++ rest') : e.form = e'.form := by
  obtain ⟨label, below, hlines, hform⟩ := exists_outline_eq h depth
  obtain ⟨label', below', hlines', hform'⟩ := exists_outline_eq h' depth
  exact OutlineLine.form_eq_of_cons_eq hlines hform hlines' hform' heq

/-- The outline of an expression tells where it ends, whatever follows it. -/
theorem Expr.alike_of_outline_eq (h : e.WellFormed Token.FromLexeme)
    (h' : e'.WellFormed Token.FromLexeme)
    (heq : e.outline depth ++ rest = e'.outline depth ++ rest') :
    e.Alike Token.SameButLine e' ∧ rest = rest' := by
  induction e generalizing e' depth rest rest' with
  | literal v =>
      have hform := form_eq_of_outline_eq h h' heq
      cases e' with
      | literal v' =>
          obtain ⟨hline, hrest⟩ := List.cons.inj heq
          have hlabel := congrArg OutlineLine.label hline
          rw [Literal.eq_of_outlineLabel_eq h.ne_integer hlabel]
          exact ⟨.literal v', hrest⟩
      | _ => simp [form] at hform
  | grouping e ih =>
      have hform := form_eq_of_outline_eq h h' heq
      cases e' with
      | grouping inner =>
          have hinner : inner.WellFormed Token.FromLexeme := h'
          obtain ⟨he, hrest⟩ := ih h hinner (List.cons.inj heq).2
          exact ⟨.grouping he, hrest⟩
      | _ => simp [form] at hform
  | unary op e ih =>
      have hform := form_eq_of_outline_eq h h' heq
      cases e' with
      | unary op' e' =>
          obtain ⟨hline, hrest⟩ := List.cons.inj heq
          obtain ⟨he, hrest⟩ := ih h.2.2 h'.2.2 hrest
          exact ⟨.unary (h.2.1.sameButLine_of_line_eq h'.2.1 hline) he, hrest⟩
      | _ => simp [form] at hform
  | binary left op right ihl ihr =>
      have hform := form_eq_of_outline_eq h h' heq
      cases e' with
      | binary left' op' right' =>
          obtain ⟨-, ht, hl, hr⟩ := h
          obtain ⟨-, ht', hl', hr'⟩ := h'
          simp only [outline, List.cons_append, List.append_assoc] at heq
          obtain ⟨hline, hrest⟩ := List.cons.inj heq
          obtain ⟨hleft, hrest⟩ := ihl hl hl' hrest
          obtain ⟨hright, hrest⟩ := ihr hr hr' hrest
          exact ⟨.binary hleft (ht.sameButLine_of_line_eq ht' hline) hright, hrest⟩
      | _ => simp [form] at hform
  | logical left op right ihl ihr =>
      have hform := form_eq_of_outline_eq h h' heq
      cases e' with
      | logical left' op' right' =>
          obtain ⟨-, ht, hl, hr⟩ := h
          obtain ⟨-, ht', hl', hr'⟩ := h'
          simp only [outline, List.cons_append, List.append_assoc] at heq
          obtain ⟨hline, hrest⟩ := List.cons.inj heq
          obtain ⟨hleft, hrest⟩ := ihl hl hl' hrest
          obtain ⟨hright, hrest⟩ := ihr hr hr' hrest
          exact ⟨.logical hleft (ht.sameButLine_of_line_eq ht' hline) hright, hrest⟩
      | _ => simp [form] at hform
  | «variable» name =>
      have hform := form_eq_of_outline_eq h h' heq
      cases e' with
      | «variable» name' =>
          obtain ⟨hline, hrest⟩ := List.cons.inj heq
          exact ⟨.variable ⟨h.2.sameButLine_of_line_eq h'.2 hline, h.1⟩, hrest⟩
      | _ => simp [form] at hform
  | assign name e ih =>
      have hform := form_eq_of_outline_eq h h' heq
      cases e' with
      | assign name' e' =>
          obtain ⟨hname, ht, he⟩ := h
          obtain ⟨-, ht', he'⟩ := h'
          obtain ⟨hline, hrest⟩ := List.cons.inj heq
          obtain ⟨hvalue, hrest⟩ := ih he he' hrest
          exact ⟨.assign ⟨ht.sameButLine_of_line_eq ht' hline, hname⟩ hvalue, hrest⟩
      | _ => simp [form] at hform
  | missing | foreign => exact h.elim

end Expressions

/-! Statements. -/

/-- No line of a statement's own outline at that depth can come next: the next line is further out,
or at the same depth but not the line of an alternative. -/
def EndsStatement (depth : Nat) (rest : List OutlineLine) : Prop :=
  ∀ line ∈ rest.head?, line.depth ≤ depth ∧ line ≠ ⟨depth, "Else"⟩

/-- No further statement at that depth comes next. -/
def EndsBody (depth : Nat) (rest : List OutlineLine) : Prop :=
  ∀ line ∈ rest.head?, line.depth < depth

section Statements

variable {depth : Nat} {rest rest' : List OutlineLine}

theorem EndsStatement.endsBody (h : EndsStatement depth rest) : EndsBody (depth + 1) rest :=
  fun line hline => Nat.lt_succ_of_le (h line hline).1

theorem EndsBody.endsStatement (h : EndsBody depth rest) : EndsStatement depth rest := by
  intro line hline
  have hlt := h line hline
  refine ⟨Nat.le_of_lt hlt, ?_⟩
  rintro rfl
  exact Nat.lt_irrefl _ hlt

/-- The lines of the alternative of a conditional. -/
def outlineElse (depth : Nat) (alternative : Stmt) : List OutlineLine :=
  if alternative.isMissing then [] else ⟨depth, "Else"⟩ :: alternative.outline (depth + 1)

theorem Stmt.outline_conditional (condition : Expr) (consequence alternative : Stmt) (depth : Nat) :
    (conditional condition consequence alternative).outline depth =
      ⟨depth, "If"⟩ :: (condition.outline (depth + 1) ++ consequence.outline (depth + 1) ++
        outlineElse depth alternative) :=
  rfl

/-- A branch ends in front of the alternative as well as in front of what follows it. -/
theorem EndsStatement.endsBranch (h : EndsStatement depth rest) (alternative : Stmt) :
    EndsStatement (depth + 1) (outlineElse depth alternative ++ rest) := by
  apply EndsBody.endsStatement
  unfold outlineElse
  split
  · exact h.endsBody
  · intro line hline
    cases hline
    exact Nat.lt_succ_self depth

theorem EndsStatement.ne_else (h : EndsStatement depth rest) (lines : List OutlineLine) :
    rest ≠ ⟨depth, "Else"⟩ :: lines := by
  rintro rfl
  exact (h _ rfl).2 rfl

theorem Stmt.form_ne_else (s : Stmt) : s.form ≠ OutlineLine.form "Else" := by
  have helse : OutlineLine.form "Else" = "Else" := rfl
  rw [helse]
  cases s <;> simp [form]

theorem endsStatement_outlineAll {T : Token → Prop} {program : List Stmt}
    (h : WellFormedProgram T program) (hrest : EndsBody depth rest) :
    EndsStatement depth (Stmt.outlineAll depth program ++ rest) := by
  cases program with
  | nil => exact hrest.endsStatement
  | cons s program =>
      obtain ⟨label, below, hlines, hform⟩ := Stmt.exists_outline_eq h.1 depth
      rw [Stmt.outlineAll, hlines]
      intro line hline
      cases hline
      refine ⟨Nat.le_refl depth, ?_⟩
      intro heq
      have hlabel : label = "Else" := congrArg OutlineLine.label heq
      rw [hlabel] at hform
      exact s.form_ne_else hform.symm

theorem not_endsBody_outline {T : Token → Prop} {s : Stmt} (h : s.WellFormed T) :
    ¬ EndsBody depth (s.outline depth ++ rest) := by
  obtain ⟨label, below, hlines, -⟩ := Stmt.exists_outline_eq h depth
  rw [hlines]
  intro hends
  exact Nat.lt_irrefl _ (hends _ rfl)

theorem Stmt.form_eq_of_outline_eq {T : Token → Prop} {s s' : Stmt} (h : s.WellFormed T)
    (h' : s'.WellFormed T) (heq : s.outline depth ++ rest = s'.outline depth ++ rest') :
    s.form = s'.form := by
  obtain ⟨label, below, hlines, hform⟩ := exists_outline_eq h depth
  obtain ⟨label', below', hlines', hform'⟩ := exists_outline_eq h' depth
  exact OutlineLine.form_eq_of_cons_eq hlines hform hlines' hform' heq

theorem Stmt.outline_declare {T : Token → Prop} {e : Expr} (h : e.WellFormed T) (name : Token)
    (depth : Nat) :
    (declare name e).outline depth =
      ⟨depth, "Var " ++ name.lexeme ++ " ="⟩ :: e.outline (depth + 1) := by
  cases e with
  | missing => exact h.elim
  | _ => rfl

theorem outlineElse_eq {T : Token → Prop} {s : Stmt} (h : s.WellFormed T) (depth : Nat) :
    outlineElse depth s = ⟨depth, "Else"⟩ :: s.outline (depth + 1) := by
  cases s with
  | missing => exact h.elim
  | _ => rfl

theorem lexeme_ne_append_equals {name : Token} (hk : name.kind = .identifier)
    (h : name.FromLexeme) (text : String) : name.lexeme ≠ text ++ " =" := by
  intro heq
  apply h.space_notMem (hk ▸ TokenKind.noConfusion)
  rw [heq, String.toList_append]
  exact List.mem_append_right _ List.mem_cons_self

/-- A name has no space in it, so the line of a declaration tells whether a value follows. -/
theorem Stmt.declare_alike_of_outline_eq {name name' : Token} {e e' : Expr}
    (h : (declare name e).WellFormed Token.FromLexeme)
    (h' : (declare name' e').WellFormed Token.FromLexeme)
    (heq : (declare name e).outline depth ++ rest = (declare name' e').outline depth ++ rest') :
    (declare name e).AlikeIn Token.SameButLine (.declare name' e') ∧ rest = rest' := by
  obtain ⟨hname, ht, he⟩ := h
  obtain ⟨hname', ht', he'⟩ := h'
  obtain rfl | he := he
  · obtain rfl | he' := he'
    · obtain ⟨hline, hbehind⟩ := List.cons.inj heq
      exact ⟨.declare ⟨ht.sameButLine_of_line_eq ht' hline, hname⟩ .missing, hbehind⟩
    · rw [outline_declare he'] at heq
      have hlabel := congrArg OutlineLine.label (List.cons.inj heq).1
      rw [String.append_assoc] at hlabel
      exact absurd ((String.append_right_inj _).mp hlabel) (lexeme_ne_append_equals hname ht _)
  · rw [outline_declare he] at heq
    obtain rfl | he' := he'
    · have hlabel := congrArg OutlineLine.label (List.cons.inj heq).1
      rw [String.append_assoc] at hlabel
      exact absurd ((String.append_right_inj _).mp hlabel).symm
        (lexeme_ne_append_equals hname' ht' _)
    · rw [outline_declare he'] at heq
      obtain ⟨hline, hbehind⟩ := List.cons.inj heq
      have hlabel := (String.append_left_inj _).mp (congrArg OutlineLine.label hline)
      have hcontent := ht.content_eq ht' ((String.append_right_inj _).mp hlabel)
      obtain ⟨hvalue, hbehind⟩ := e.alike_of_outline_eq he he' hbehind
      exact ⟨.declare ⟨hcontent, hname⟩ hvalue, hbehind⟩

mutual

/-- The outline of a statement tells where it ends, in front of a line that cannot be part of it. -/
theorem Stmt.alike_of_outline_eq {depth : Nat} {rest rest' : List OutlineLine} (s s' : Stmt)
    (h : s.WellFormed Token.FromLexeme) (h' : s'.WellFormed Token.FromLexeme)
    (hrest : EndsStatement depth rest) (hrest' : EndsStatement depth rest')
    (heq : s.outline depth ++ rest = s'.outline depth ++ rest') :
    s.AlikeIn Token.SameButLine s' ∧ rest = rest' := by
  have hform := form_eq_of_outline_eq h h' heq
  match s with
  | .expression e =>
      cases s' with
      | expression e' =>
          have he' : e'.WellFormed Token.FromLexeme := h'
          obtain ⟨he, hbehind⟩ := e.alike_of_outline_eq h he' (List.cons.inj heq).2
          exact ⟨.expression he, hbehind⟩
      | _ => simp [form] at hform
  | .print e =>
      cases s' with
      | print e' =>
          have he' : e'.WellFormed Token.FromLexeme := h'
          obtain ⟨he, hbehind⟩ := e.alike_of_outline_eq h he' (List.cons.inj heq).2
          exact ⟨.print he, hbehind⟩
      | _ => simp [form] at hform
  | .declare name e =>
      cases s' with
      | declare name' e' => exact declare_alike_of_outline_eq h h' heq
      | _ => simp [form] at hform
  | .block body =>
      cases s' with
      | block body' =>
          obtain ⟨hbody, hbehind⟩ := Stmt.alike_of_outlineAll_eq body body' h h' hrest.endsBody
            hrest'.endsBody (List.cons.inj heq).2
          exact ⟨.block hbody, hbehind⟩
      | _ => simp [form] at hform
  | .conditional e t u =>
      cases s' with
      | conditional e' t' u' =>
          obtain ⟨he, ⟨-, ht⟩, hu⟩ := h
          obtain ⟨he', ⟨-, ht'⟩, hu'⟩ := h'
          simp only [outline_conditional, List.cons_append, List.append_assoc] at heq
          obtain ⟨hcondition, heq⟩ := e.alike_of_outline_eq he he' (List.cons.inj heq).2
          obtain ⟨hbranch, heq⟩ := Stmt.alike_of_outline_eq t t' ht ht' (hrest.endsBranch u)
            (hrest'.endsBranch u') heq
          obtain rfl | ⟨-, hu⟩ := hu
          · obtain rfl | ⟨-, hu'⟩ := hu'
            · exact ⟨.conditional hcondition hbranch .missing, heq⟩
            · rw [outlineElse_eq hu'] at heq
              exact absurd heq (hrest.ne_else _)
          · rw [outlineElse_eq hu] at heq
            obtain rfl | ⟨-, hu'⟩ := hu'
            · exact absurd heq.symm (hrest'.ne_else _)
            · rw [outlineElse_eq hu'] at heq
              obtain ⟨halternative, hbehind⟩ := Stmt.alike_of_outline_eq u u' hu hu'
                hrest.endsBody.endsStatement hrest'.endsBody.endsStatement (List.cons.inj heq).2
              exact ⟨.conditional hcondition hbranch halternative, hbehind⟩
      | _ => simp [form] at hform
  | .loop e t =>
      cases s' with
      | loop e' t' =>
          obtain ⟨he, -, ht⟩ := h
          obtain ⟨he', -, ht'⟩ := h'
          simp only [Stmt.outline, List.cons_append, List.append_assoc] at heq
          obtain ⟨hcondition, heq⟩ := e.alike_of_outline_eq he he' (List.cons.inj heq).2
          obtain ⟨hbody, hbehind⟩ := Stmt.alike_of_outline_eq t t' ht ht'
            hrest.endsBody.endsStatement hrest'.endsBody.endsStatement heq
          exact ⟨.loop hcondition hbody, hbehind⟩
      | _ => simp [form] at hform
  | .missing | .foreign typeName => exact h.elim

theorem Stmt.alike_of_outlineAll_eq {depth : Nat} {rest rest' : List OutlineLine}
    (p p' : List Stmt) (h : WellFormedProgram Token.FromLexeme p)
    (h' : WellFormedProgram Token.FromLexeme p') (hrest : EndsBody depth rest)
    (hrest' : EndsBody depth rest')
    (heq : Stmt.outlineAll depth p ++ rest = Stmt.outlineAll depth p' ++ rest') :
    AlikeProgramsIn Token.SameButLine p p' ∧ rest = rest' := by
  match p, p' with
  | [], [] => exact ⟨.nil, heq⟩
  | [], s' :: p' =>
      rw [Stmt.outlineAll, Stmt.outlineAll, List.nil_append, List.append_assoc] at heq
      exact absurd (heq ▸ hrest) (not_endsBody_outline h'.1)
  | s :: p, [] =>
      rw [Stmt.outlineAll, Stmt.outlineAll, List.nil_append, List.append_assoc] at heq
      exact absurd (heq ▸ hrest') (not_endsBody_outline h.1)
  | s :: p, s' :: p' =>
      rw [Stmt.outlineAll, Stmt.outlineAll, List.append_assoc, List.append_assoc] at heq
      obtain ⟨hs, heq⟩ := Stmt.alike_of_outline_eq s s' h.1 h'.1
        (endsStatement_outlineAll h.2 hrest) (endsStatement_outlineAll h'.2 hrest') heq
      obtain ⟨hp, hbehind⟩ := Stmt.alike_of_outlineAll_eq p p' h.2 h'.2 hrest hrest' heq
      exact ⟨.cons hs hp, hbehind⟩

end

end Statements

/-! The outline depends on nothing else. -/

theorem Token.SameButLine.lexeme_eq {t t' : Token} (h : t.SameButLine t') : t.lexeme = t'.lexeme :=
  congrArg (fun content => content.2.1) h

theorem Expr.Alike.outline_eq {e e' : Expr} (h : e.Alike Token.SameButLine e') (depth : Nat) :
    e.outline depth = e'.outline depth := by
  induction h generalizing depth with
  | literal | missing => rfl
  | grouping _ ih => rw [outline, outline, ih]
  | unary hop _ ih => rw [outline, outline, hop.lexeme_eq, ih]
  | binary _ hop _ ihl ihr | logical _ hop _ ihl ihr =>
      rw [outline, outline, hop.lexeme_eq, ihl, ihr]
  | «variable» hn => rw [outline, outline, hn.related.lexeme_eq]
  | assign hn _ ih => rw [outline, outline, hn.related.lexeme_eq, ih]

mutual

theorem Stmt.AlikeIn.outline_eq (depth : Nat) (s : Stmt) {s' : Stmt}
    (h : s.AlikeIn Token.SameButLine s') : s.outline depth = s'.outline depth := by
  match s, h with
  | .expression e, .expression he => rw [Stmt.outline, Stmt.outline, he.outline_eq]
  | .print e, .print he => rw [Stmt.outline, Stmt.outline, he.outline_eq]
  | .declare name e, .declare hn he =>
      rw [Stmt.outline, Stmt.outline, hn.related.lexeme_eq, he.outline_eq, he.isMissing_eq]
  | .block body, .block hbody =>
      rw [Stmt.outline, Stmt.outline, outlineAll_eq_of_alike _ body hbody]
  | .conditional e t u, .conditional he ht hu =>
      rw [Stmt.outline, Stmt.outline, he.outline_eq, Stmt.AlikeIn.outline_eq _ t ht,
        Stmt.AlikeIn.outline_eq _ u hu, Stmt.AlikeIn.isMissing_eq hu]
  | .loop e t, .loop he ht =>
      rw [Stmt.outline, Stmt.outline, he.outline_eq, Stmt.AlikeIn.outline_eq _ t ht]
  | .missing, .missing => rfl
  | .foreign typeName, .foreign _ => rfl

theorem outlineAll_eq_of_alike (depth : Nat) (p : List Stmt) {p' : List Stmt}
    (h : AlikeProgramsIn Token.SameButLine p p') :
    Stmt.outlineAll depth p = Stmt.outlineAll depth p' := by
  match p, h with
  | [], .nil => rfl
  | s :: p, .cons hs hp =>
      rw [Stmt.outlineAll, Stmt.outlineAll, Stmt.AlikeIn.outline_eq _ s hs,
        outlineAll_eq_of_alike _ p hp]

end

/-- Two source texts have the same outline just when they are read as the same program, but for the
lines of its tokens. -/
theorem outline_eq_iff_same_program (a b : List Int) :
    outline (parse (scanCodes a).tokens).program = outline (parse (scanCodes b).tokens).program ↔
      AlikeProgramsIn Token.SameButLine (parse (scanCodes a).tokens).program
        (parse (scanCodes b).tokens).program := by
  constructor
  · intro h
    have ha := wellFormed_fromLexeme (a.map Text.charOfInt)
    have hb := wellFormed_fromLexeme (b.map Text.charOfInt)
    have hnothing : EndsBody 0 [] := fun line hline => by cases hline
    have hlines := outlineAll_eq_of_outline_eq ha hb h
    exact (Stmt.alike_of_outlineAll_eq _ _ ha hb hnothing hnothing (congrArg (· ++ []) hlines)).1
  · intro h
    rw [outline, outline, outlineAll_eq_of_alike 0 _ h]

end Scriptlet
