import Mathlib.Algebra.Order.Group.Nat
import Scriptlet.Text.Quoted

/-!
Quoted text. Every character is written in a way that tells the character and where the next one
starts, and none of these ways breaks the line. So no two texts have the same quoted form.
-/

namespace Scriptlet.Text

/-- The characters that have an escape of one letter. -/
def letterEscapes : List (Char × Char) :=
  [('"', '"'), ('\\', '\\'), ('a', '\x07'), ('b', '\x08'), ('f', '\x0c'), ('n', '\n'), ('r', '\r'),
    ('t', '\t'), ('v', '\x0b')]

/-- The letters in front of a code in base sixteen, and how many digits it has. -/
def codeEscapes : List (Char × Nat) := [('x', 2), ('u', 4), ('U', 8)]

/-- The ways in which a character is written. -/
inductive Written (c : Char) : List Char → Prop where
  | plain (hescape : c ≠ '\\') (hnewline : c ≠ '\n') : Written c [c]
  | letter {l : Char} (h : (l, c) ∈ letterEscapes) : Written c ['\\', l]
  | code {l : Char} {width : Nat} (h : (l, width) ∈ codeEscapes) (hlt : c.toNat < 16 ^ width) :
      Written c ('\\' :: l :: hexDigits width c.toNat)

theorem Written.ite {c x l : Char} {text : List Char} (h : (l, x) ∈ letterEscapes)
    (htext : c ≠ x → Written c text) : Written c (if c = x then ['\\', l] else text) := by
  by_cases hc : c = x
  · rw [if_pos hc]
    exact .letter (hc ▸ h)
  · rw [if_neg hc]
    exact htext hc

theorem written_escape (c : Char) : Written c (escape c) := by
  rw [escape]
  refine .ite (by decide) fun _ => .ite (by decide) fun hslash => ?_
  by_cases hprint : isPrintable c = true
  · rw [if_pos hprint]
    refine .plain hslash ?_
    rintro rfl
    exact absurd hprint (by decide +kernel)
  rw [if_neg hprint]
  refine .ite (by decide) fun _ => .ite (by decide) fun _ => .ite (by decide) fun _ =>
    .ite (by decide) fun _ => .ite (by decide) fun _ => .ite (by decide) fun _ =>
    .ite (by decide) fun _ => ?_
  by_cases hshort : c.toNat < 0x80
  · rw [if_pos hshort]
    exact .code (by decide) (hshort.trans (by decide))
  rw [if_neg hshort]
  by_cases hmiddle : c.toNat < 0x10000
  · rw [if_pos hmiddle]
    exact .code (by decide) hmiddle
  · rw [if_neg hmiddle]
    have hlt : c.toNat < 0x110000 := by
      obtain hvalid | hvalid := c.valid
      · exact Nat.lt_trans hvalid (by decide)
      · exact hvalid.2
    exact .code (by decide) (hlt.trans (by decide))

theorem length_hexDigits (width n : Nat) : (hexDigits width n).length = width := by
  induction width generalizing n with
  | zero => rfl
  | succ width ih => rw [hexDigits, List.length_append, ih, List.length_singleton]

theorem hexDigits_injective {width n n' : Nat} (hn : n < 16 ^ width) (hn' : n' < 16 ^ width)
    (h : hexDigits width n = hexDigits width n') : n = n' := by
  have hdigit : ∀ i j : Fin 16, i.val.digitChar = j.val.digitChar → i = j := by decide
  induction width generalizing n n' with
  | zero => omega
  | succ width ih =>
      rw [Nat.pow_succ] at hn hn'
      rw [hexDigits, hexDigits] at h
      obtain ⟨hinit, hlast⟩ := List.append_inj' h rfl
      have hquotient := ih (by omega) (by omega) hinit
      have hlt : ∀ k, k % 16 < 16 := fun k => Nat.mod_lt k (by decide)
      have hremainder : n % 16 = n' % 16 :=
        congrArg Fin.val (hdigit ⟨n % 16, hlt n⟩ ⟨n' % 16, hlt n'⟩ (List.cons.inj hlast).1)
      omega

theorem letterEscapes_unique :
    ∀ p ∈ letterEscapes, ∀ q ∈ letterEscapes, p.1 = q.1 → p.2 = q.2 := by decide

theorem codeEscapes_unique : ∀ p ∈ codeEscapes, ∀ q ∈ codeEscapes, p.1 = q.1 → p.2 = q.2 := by
  decide

theorem letterEscapes_ne : ∀ p ∈ letterEscapes, ∀ q ∈ codeEscapes, p.1 ≠ q.1 := by decide

/-- How a character is written tells the character, and where the next one starts. -/
theorem Written.unique {c c' : Char} {text text' rest rest' : List Char} (h : Written c text)
    (h' : Written c' text') (heq : text ++ rest = text' ++ rest') : c = c' ∧ rest = rest' := by
  cases h with
  | plain hescape hnewline =>
      cases h' with
      | plain _ _ => exact List.cons.inj heq
      | letter _ | code _ _ => exact absurd (List.cons.inj heq).1 hescape
  | letter hl =>
      cases h' with
      | plain hescape' _ => exact absurd (List.cons.inj heq).1.symm hescape'
      | letter hl' =>
          obtain ⟨hletter, hrest⟩ := List.cons.inj (List.cons.inj heq).2
          exact ⟨letterEscapes_unique _ hl _ hl' hletter, hrest⟩
      | code hl' _ =>
          exact absurd (List.cons.inj (List.cons.inj heq).2).1 (letterEscapes_ne _ hl _ hl')
  | code hl hlt =>
      cases h' with
      | plain hescape' _ => exact absurd (List.cons.inj heq).1.symm hescape'
      | letter hl' =>
          exact absurd (List.cons.inj (List.cons.inj heq).2).1.symm (letterEscapes_ne _ hl' _ hl)
      | code hl' hlt' =>
          obtain ⟨hletter, hdigits⟩ := List.cons.inj (List.cons.inj heq).2
          obtain rfl := codeEscapes_unique _ hl _ hl' hletter
          obtain ⟨hcode, hrest⟩ :=
            List.append_inj hdigits (by rw [length_hexDigits, length_hexDigits])
          exact ⟨Char.toNat_inj.mp (hexDigits_injective hlt hlt' hcode), hrest⟩

theorem newline_notMem_hexDigits (width n : Nat) : '\n' ∉ hexDigits width n := by
  induction width generalizing n with
  | zero => exact List.not_mem_nil
  | succ width ih =>
      rw [hexDigits, List.mem_append, List.mem_singleton]
      rintro (hmem | heq)
      · exact ih _ hmem
      · exact Nat.digitChar_ne '\n' (by decide) heq.symm

theorem Written.newline_notMem {c : Char} {text : List Char} (h : Written c text) :
    '\n' ∉ text := by
  cases h with
  | plain _ hnewline => simpa using hnewline.symm
  | @letter l hl =>
      have hletters : ∀ p ∈ letterEscapes, '\n' ∉ ['\\', p.1] := by decide
      exact hletters _ hl
  | @code l width hl _ =>
      have hletters : ∀ p ∈ codeEscapes, '\n' ∉ ['\\', p.1] := by decide
      change '\n' ∉ ['\\', l] ++ hexDigits width c.toNat
      rw [List.mem_append, not_or]
      exact ⟨hletters _ hl, newline_notMem_hexDigits _ _⟩

theorem flatMap_escape_injective {text text' : List Char}
    (h : text.flatMap escape = text'.flatMap escape) : text = text' := by
  have hne : ∀ c, escape c ≠ [] := by
    intro c hescape
    have hwritten := written_escape c
    rw [hescape] at hwritten
    cases hwritten
  induction text generalizing text' with
  | nil =>
      cases text' with
      | nil => rfl
      | cons c' text' => exact absurd (List.append_eq_nil_iff.mp h.symm).1 (hne c')
  | cons c text ih =>
      cases text' with
      | nil => exact absurd (List.append_eq_nil_iff.mp h).1 (hne c)
      | cons c' text' =>
          rw [List.flatMap_cons, List.flatMap_cons] at h
          obtain ⟨rfl, hrest⟩ := (written_escape c).unique (written_escape c') h
          rw [ih hrest]

theorem quoted_injective {text text' : String} (h : quoted text = quoted text') : text = text' := by
  have hlist := String.ofList_injective h
  have hbody := List.append_cancel_right (List.cons.inj hlist).2
  exact String.toList_injective (flatMap_escape_injective hbody)

theorem newline_notMem_quoted (text : String) : '\n' ∉ (quoted text).toList := by
  rw [quoted, String.toList_ofList]
  intro hmem
  rw [List.mem_append, List.mem_cons, List.mem_flatMap, List.mem_singleton] at hmem
  obtain (hquote | ⟨c, -, hc⟩) | hquote := hmem
  · revert hquote
    decide
  · exact (written_escape c).newline_notMem hc
  · revert hquote
    decide

end Scriptlet.Text
