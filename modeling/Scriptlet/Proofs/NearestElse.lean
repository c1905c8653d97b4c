import Scriptlet.Proofs.Derivation

/-!
Every derivation can be changed into one of the nearest-else kind with the same tokens. An `else`
that stands behind an open statement is handed to the innermost conditional at its end.
-/

namespace Scriptlet.Derivation

/-- Hands an alternative to the innermost conditional at the end of a statement that ends open. -/
def Statement.attach : Statement → Leaf .kwElse → Statement → Statement
  | .ifThen head s, separator, alternative =>
      if s.endsOpen then .ifThen head (s.attach separator alternative)
      else .ifElse head s separator alternative
  | .ifElse head consequence inner s, separator, alternative =>
      .ifElse head consequence inner (s.attach separator alternative)
  | .whileLoop head s, separator, alternative => .whileLoop head (s.attach separator alternative)
  | .forLoop head s, separator, alternative => .forLoop head (s.attach separator alternative)
  | s, _, _ => s

theorem Statement.tokens_attach (separator : Leaf .kwElse) (alternative : Statement) :
    (s : Statement) → s.endsOpen = true →
      (s.attach separator alternative).tokens = s.tokens ++ separator.1 :: alternative.tokens
  | .ifThen head s, _ => by
      simp only [attach]
      split
      · next opened => simp [tokens, tokens_attach separator alternative s opened]
      · simp [tokens]
  | .ifElse head consequence inner s, h => by
      simp [attach, tokens, tokens_attach separator alternative s h]
  | .whileLoop head s, h | .forLoop head s, h => by
      simp [attach, tokens, tokens_attach separator alternative s h]
  | .expression .., h | .print .., h | .block .., h => by simp [endsOpen] at h

theorem Statement.nearestElse_attach (separator : Leaf .kwElse) {alternative : Statement}
    (ha : alternative.NearestElse) :
    (s : Statement) → s.NearestElse → (s.attach separator alternative).NearestElse
  | .ifThen head s, h => by
      simp only [attach]
      split
      · exact nearestElse_attach separator ha s h
      · next closed => exact ⟨by simpa using closed, h, ha⟩
  | .ifElse _ _ _ s, ⟨closed, hc, h⟩ => ⟨closed, hc, nearestElse_attach separator ha s h⟩
  | .whileLoop _ s, h | .forLoop _ s, h => nearestElse_attach separator ha s h
  | .expression .., h | .print .., h | .block .., h => h

mutual

/-- The derivation of the same tokens in which every `else` belongs to the nearest conditional. -/
def Statement.settle : Statement → Statement
  | .ifElse head consequence separator alternative =>
      if consequence.settle.endsOpen then
        .ifThen head (consequence.settle.attach separator alternative.settle)
      else .ifElse head consequence.settle separator alternative.settle
  | .ifThen head s => .ifThen head s.settle
  | .whileLoop head s => .whileLoop head s.settle
  | .forLoop head s => .forLoop head s.settle
  | .block opening body closing => .block opening body.settle closing
  | s => s

def Declarations.settle : Declarations → Declarations
  | .nil => .nil
  | .declare d rest => .declare d rest.settle
  | .statement s rest => .statement s.settle rest.settle

end

mutual

theorem Statement.tokens_settle : (s : Statement) → s.settle.tokens = s.tokens
  | .ifElse head consequence separator alternative => by
      have hc := consequence.tokens_settle
      have ha := alternative.tokens_settle
      simp only [Statement.settle]
      split
      · next opened =>
        simp [Statement.tokens, Statement.tokens_attach _ _ _ opened, hc, ha]
      · simp [Statement.tokens, hc, ha]
  | .ifThen head s | .whileLoop head s | .forLoop head s => by
      simp [Statement.settle, Statement.tokens, s.tokens_settle]
  | .block opening body closing => by
      simp [Statement.settle, Statement.tokens, body.tokens_settle]
  | .expression .. | .print .. => rfl

theorem Declarations.tokens_settle : (ds : Declarations) → ds.settle.tokens = ds.tokens
  | .nil => rfl
  | .declare d rest => by simp [Declarations.settle, Declarations.tokens, rest.tokens_settle]
  | .statement s rest => by
      simp [Declarations.settle, Declarations.tokens, s.tokens_settle, rest.tokens_settle]

end

mutual

theorem Statement.nearestElse_settle : (s : Statement) → s.settle.NearestElse
  | .ifElse head consequence separator alternative => by
      have hc := consequence.nearestElse_settle
      have ha := alternative.nearestElse_settle
      simp only [Statement.settle]
      split
      · exact Statement.nearestElse_attach separator ha _ hc
      · next closed => exact ⟨by simpa using closed, hc, ha⟩
  | .ifThen _ s | .whileLoop _ s | .forLoop _ s => s.nearestElse_settle
  | .block _ body _ => body.nearestElse_settle
  | .expression .. | .print .. => trivial

theorem Declarations.nearestElse_settle : (ds : Declarations) → ds.settle.NearestElse
  | .nil => trivial
  | .declare _ rest => rest.nearestElse_settle
  | .statement s rest => ⟨s.nearestElse_settle, rest.nearestElse_settle⟩

end

end Scriptlet.Derivation
