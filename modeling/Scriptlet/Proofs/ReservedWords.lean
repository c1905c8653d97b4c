import Mathlib
import Scriptlet.Proofs.SpacedLexemes

/-!
Reserved words and how they may be spelled. A word is looked up in capitals, and these are the
capitals of every script. Beyond ASCII, two characters have an ASCII letter for their capital: the
dotless i and the long s. So a reserved word is spelled by its letters up to ASCII case, with these
two in the places of `I` and `S`, and by nothing else.
-/

namespace Scriptlet

open List (Forall₂)

namespace Text

variable {c k : Char}

/-- The character is this capital letter up to ASCII case, or one of the two others that have it for
their capital. -/
def Capitalizes (c k : Char) : Prop :=
  c.toUpper = k ∨ c = 'ı' ∧ k = 'I' ∨ c = 'ſ' ∧ k = 'S'

theorem toNat_of_isUpper (hk : k.isUpper = true) : 0x41 ≤ k.toNat ∧ k.toNat ≤ 0x5A := by
  obtain ⟨hfirst, hlast⟩ := of_decide_eq_true hk
  exact ⟨UInt32.le_iff_toNat_le.mp hfirst, UInt32.le_iff_toNat_le.mp hlast⟩

theorem toNat_of_isAlpha (hc : c.isAlpha = true) : c.toNat < 0x80 := by
  obtain hupper | hlower := (Bool.or_eq_true _ _).mp hc
  · have hlast := (toNat_of_isUpper hupper).2
    omega
  · have hlast : c.toNat ≤ 0x7A :=
      UInt32.le_iff_toNat_le.mp (of_decide_eq_true ((Bool.and_eq_true _ _).mp hlower).2)
    omega

theorem capital_of_ascii (hc : c.toNat < 0x80) : capital c = c.toUpper := if_pos hc

theorem isAlpha_of_toUpper_eq (hk : k.isUpper = true) (h : c.toUpper = k) : c.isAlpha = true := by
  rw [← Char.isUpper_toUpper_eq_isAlpha, h, hk]

/-- Two runs of the table have ASCII capitals. -/
theorem eq_of_ascii_capital : ∀ run ∈ capitalRuns, run.capital < 0x80 →
    run = ⟨0x131, 0x131, 1, 0x49⟩ ∨ run = ⟨0x17F, 0x17F, 1, 0x53⟩ := by
  decide +kernel

/-- A run of one character holds this character only. -/
theorem CapitalRun.eq_of_holds {code only step target : Nat}
    (h : CapitalRun.holds ⟨only, only, step, target⟩ code = true) : code = only := by
  obtain ⟨hbounds, -⟩ := (Bool.and_eq_true _ _).mp h
  obtain ⟨hlow, hhigh⟩ := (Bool.and_eq_true _ _).mp hbounds
  exact Nat.le_antisymm (of_decide_eq_true hhigh) (of_decide_eq_true hlow)

theorem eq_of_toNat_ofNat {n : Nat} (hk : k.isUpper = true) (h : Char.ofNat n = k) :
    n = k.toNat := by
  have hfirst := (toNat_of_isUpper hk).1
  rw [← h, Char.toNat_ofNat] at hfirst ⊢
  split at hfirst
  · next hvalid => rw [if_pos hvalid]
  · omega

/-- The letters whose capital is a given ASCII letter. -/
theorem capital_eq_iff (hk : k.isUpper = true) : capital c = k ↔ Capitalizes c k := by
  constructor
  · intro h
    by_cases hc : c.toNat < 0x80
    · exact .inl (capital_of_ascii hc ▸ h)
    · rw [capital, if_neg hc] at h
      split at h
      · next run hfound =>
        have hholds := List.find?_some hfound
        have hcode := eq_of_toNat_ofNat hk h
        have hlast := (toNat_of_isUpper hk).2
        obtain rfl | rfl :=
          eq_of_ascii_capital run (List.mem_of_find?_eq_some hfound) (by omega)
        · have hc : c.toNat = 0x131 := CapitalRun.eq_of_holds hholds
          rw [hc] at hcode
          exact .inr (.inl ⟨Char.toNat_inj.mp hc, Char.toNat_inj.mp hcode.symm⟩)
        · have hc : c.toNat = 0x17F := CapitalRun.eq_of_holds hholds
          rw [hc] at hcode
          exact .inr (.inr ⟨Char.toNat_inj.mp hc, Char.toNat_inj.mp hcode.symm⟩)
      · have hlast := (toNat_of_isUpper hk).2
        rw [h] at hc
        omega
  · rintro (h | ⟨rfl, rfl⟩ | ⟨rfl, rfl⟩)
    · rw [capital_of_ascii (toNat_of_isAlpha (isAlpha_of_toUpper_eq hk h)), h]
    · decide +kernel
    · decide +kernel

theorem map_capital_eq_iff {word letters : List Char} (h : ∀ k ∈ letters, k.isUpper = true) :
    word.map capital = letters ↔ Forall₂ Capitalizes word letters := by
  induction letters generalizing word with
  | nil => rw [List.map_eq_nil_iff, List.forall₂_nil_right_iff]
  | cons k letters ih =>
      obtain ⟨hk, hletters⟩ := List.forall_mem_cons.mp h
      cases word with
      | nil => constructor <;> intro h <;> cases h
      | cons c word =>
          rw [List.map_cons, List.cons_eq_cons, List.forall₂_cons, capital_eq_iff hk, ih hletters]

theorem isLetter_of_capitalizes (hk : k.isUpper = true) (h : Capitalizes c k) :
    isLetter c = true := by
  obtain h | ⟨rfl, -⟩ | ⟨rfl, -⟩ := h
  · exact (Bool.or_eq_true _ _).mpr (.inl (isAlpha_of_toUpper_eq hk h))
  · decide +kernel
  · decide +kernel

end Text

namespace TokenKind

variable {word spelling : String} {kind : TokenKind}

theorem isUpper_of_mem_keywords :
    ∀ entry ∈ keywords, entry.1.toList.all Char.isUpper = true := by
  decide +kernel

theorem toList_ne_nil_of_mem_keywords : ∀ entry ∈ keywords, entry.1.toList ≠ [] := by
  decide +kernel

theorem ofKeyword?_eq_some_iff : ofKeyword? word = some kind ↔ (word, kind) ∈ keywords := by
  have hfound : ∀ entry ∈ keywords, ofKeyword? entry.1 = some entry.2 := by decide
  constructor
  · intro h
    obtain ⟨front, back, hkeywords, -⟩ := List.lookup_eq_some_iff.mp h
    rw [hkeywords]
    exact List.mem_append_cons_self
  · exact hfound (word, kind)

/-- Each reserved word has a kind of its own. -/
theorem eq_of_mem_keywords (h : (word, kind) ∈ keywords) (h' : (spelling, kind) ∈ keywords) :
    word = spelling := by
  have hkinds : (keywords.map Prod.snd).Nodup := by decide
  exact congrArg Prod.fst (List.inj_on_of_nodup_map hkinds h h' rfl)

end TokenKind

theorem Lexeme.of_isLetter {text : List Char} (hne : text ≠ [])
    (h : ∀ c ∈ text, Text.isLetter c = true) : Lexeme (Segment.wordKind text) text .nil := by
  cases text with
  | nil => exact absurd rfl hne
  | cons c rest =>
      obtain ⟨hc, hrest⟩ := List.forall_mem_cons.mp h
      exact .word hc fun d hd => .inl (hrest d hd)

section Spelling

variable {spelling : String} {kind : TokenKind} (hkeyword : (spelling, kind) ∈ TokenKind.keywords)
include hkeyword

theorem isUpper_of_mem_spelling {k : Char} (hk : k ∈ spelling.toList) : k.isUpper = true :=
  List.all_eq_true.mp (TokenKind.isUpper_of_mem_keywords _ hkeyword) k hk

/-- A word is of the kind of a reserved word if and only if it spells it. -/
theorem Segment.wordKind_eq_iff (word : List Char) :
    wordKind word = kind ↔ Forall₂ Text.Capitalizes word spelling.toList := by
  have hidentifier : ∀ entry ∈ TokenKind.keywords, entry.2 ≠ .identifier := by decide
  rw [← Text.map_capital_eq_iff fun k hk => isUpper_of_mem_spelling hkeyword hk]
  constructor
  · intro h
    unfold wordKind at h
    cases hlookup : TokenKind.ofKeyword? (String.ofList (word.map Text.capital)) with
    | none =>
        rw [hlookup] at h
        exact absurd h.symm (hidentifier _ hkeyword)
    | some found =>
        rw [hlookup] at h
        subst h
        have hmem := TokenKind.ofKeyword?_eq_some_iff.mp hlookup
        rw [← TokenKind.eq_of_mem_keywords hmem hkeyword, String.toList_ofList]
  · intro h
    rw [wordKind, h, String.ofList_toList, TokenKind.ofKeyword?_eq_some_iff.mpr hkeyword]
    rfl

/-- Only words have the kinds of reserved words. -/
theorem Lexeme.kind_eq_wordKind {text : List Char} {value : Literal}
    (h : Lexeme kind text value) : kind = Segment.wordKind text := by
  have hsymbols : ∀ p ∈ shortSymbols ++ longSymbols, ∀ entry ∈ TokenKind.keywords,
      p.1 ≠ entry.2 := by decide
  have hliterals : ∀ entry ∈ TokenKind.keywords, entry.2 ≠ .string ∧ entry.2 ≠ .number := by decide
  cases h with
  | short h => exact absurd rfl (hsymbols _ (List.mem_append_left _ h) _ hkeyword)
  | long h => exact absurd rfl (hsymbols _ (List.mem_append_right _ h) _ hkeyword)
  | string h => exact absurd rfl (hliterals _ hkeyword).1
  | whole h => exact absurd rfl (hliterals _ hkeyword).2
  | fraction hw hf => exact absurd rfl (hliterals _ hkeyword).2
  | word hc h => rfl

theorem Text.exists_capitalizes_of_mem {text : List Char}
    (h : Forall₂ Text.Capitalizes text spelling.toList) {c : Char} (hc : c ∈ text) :
    ∃ k, k.isUpper = true ∧ Text.Capitalizes c k := by
  have hmap := (Text.map_capital_eq_iff fun k hk => isUpper_of_mem_spelling hkeyword hk).mpr h
  have hupper : (Text.capital c).isUpper = true :=
    isUpper_of_mem_spelling hkeyword (hmap ▸ List.mem_map_of_mem hc)
  exact ⟨_, hupper, (Text.capital_eq_iff hupper).mp rfl⟩

/-- What spells a reserved word is a word. -/
theorem Lexeme.of_spelled {text : List Char}
    (h : Forall₂ Text.Capitalizes text spelling.toList) :
    Lexeme (Segment.wordKind text) text .nil := by
  apply Lexeme.of_isLetter
  · rintro rfl
    exact TokenKind.toList_ne_nil_of_mem_keywords _ hkeyword (List.forall₂_nil_left_iff.mp h)
  · intro c hc
    obtain ⟨k, hk, hform⟩ := Text.exists_capitalizes_of_mem hkeyword h hc
    exact Text.isLetter_of_capitalizes hk hform

theorem Lexeme.kind_eq_iff {found : TokenKind} {text : List Char} {value : Literal}
    (h : Lexeme found text value) :
    found = kind ↔ Forall₂ Text.Capitalizes text spelling.toList := by
  constructor
  · rintro rfl
    exact (Segment.wordKind_eq_iff hkeyword text).mp (h.kind_eq_wordKind hkeyword).symm
  · intro hspelled
    -- The text is that of a word too, and it is one lexeme only.
    have hsegment := (Lexical.token h).eq_of_text_eq (.token (.of_spelled hkeyword hspelled)) rfl
    rw [(Segment.token.inj hsegment).1]
    exact (Segment.wordKind_eq_iff hkeyword text).mpr hspelled

end Spelling

/-- A token has the kind of a reserved word if and only if it spells this word: letter by letter up
to ASCII case, but that the dotless i may stand for `I` and the long s for `S`. So a token with
another character beyond ASCII in it is no reserved word. -/
theorem reserved_word_iff_spelled {codes : List Int} {t : Token}
    (ht : t ∈ (scanCodes codes).tokens) {spelling : String} {kind : TokenKind}
    (hkeyword : (spelling, kind) ∈ TokenKind.keywords) :
    (t.kind = kind ↔ Forall₂ Text.Capitalizes t.lexeme.toList spelling.toList) ∧
      ((∃ c ∈ t.lexeme.toList, 0x80 ≤ c.toNat ∧ c ≠ 'ı' ∧ c ≠ 'ſ') → t.kind ≠ kind) := by
  have hiff : t.kind = kind ↔ Forall₂ Text.Capitalizes t.lexeme.toList spelling.toList := by
    -- The token at the end has neither the kind nor the letters of a reserved word.
    obtain hlexeme | hend := fromLexeme_or_end ht
    · exact Lexeme.kind_eq_iff hkeyword hlexeme
    · obtain ⟨hkind, hrest⟩ := Prod.mk.inj hend
      obtain ⟨htext, -⟩ := Prod.mk.inj hrest
      have hkinds : ∀ entry ∈ TokenKind.keywords, entry.2 ≠ .endOfFile := by decide
      refine iff_of_false ?_ ?_
      · intro h
        exact hkinds _ hkeyword (h ▸ hkind)
      · intro h
        rw [htext] at h
        exact TokenKind.toList_ne_nil_of_mem_keywords _ hkeyword
          (List.forall₂_nil_left_iff.mp h)
  refine ⟨hiff, ?_⟩
  rintro ⟨c, hc, hbeyond, hdotless, hlong⟩ hkind
  obtain ⟨k, hk, h | ⟨h, -⟩ | ⟨h, -⟩⟩ :=
    Text.exists_capitalizes_of_mem hkeyword (hiff.mp hkind) hc
  · have hascii := Text.toNat_of_isAlpha (Text.isAlpha_of_toUpper_eq hk h)
    omega
  · exact hdotless h
  · exact hlong h

theorem reserved_word_iff_spelled_long_s :
    (∃ t ∈ (scanCodes [0x43, 0x6C, 0x61, 0x17F, 0x17F]).tokens,
      ("CLASS", .kwClass) ∈ TokenKind.keywords ∧ t.lexeme = "Claſſ" ∧ t.kind = .kwClass ∧
        Forall₂ Text.Capitalizes t.lexeme.toList "CLASS".toList) ∧
      ∃ t ∈ (scanCodes [0x70, 0x72, 0xEF, 0x6E, 0x74]).tokens,
        ("PRINT", .kwPrint) ∈ TokenKind.keywords ∧ t.lexeme = "prïnt" ∧ t.kind ≠ .kwPrint := by
  have hclass : ("CLASS", .kwClass) ∈ TokenKind.keywords := by decide
  have hprint : ("PRINT", .kwPrint) ∈ TokenKind.keywords := by decide
  have hspelled : Forall₂ Text.Capitalizes "Claſſ".toList "CLASS".toList :=
    .cons (.inl rfl) (.cons (.inl rfl) (.cons (.inl rfl)
      (.cons (.inr (.inr ⟨rfl, rfl⟩)) (.cons (.inr (.inr ⟨rfl, rfl⟩)) .nil))))
  have hletters : ∀ c ∈ "prïnt".toList, Text.isLetter c = true :=
    List.all_eq_true.mp (by decide +kernel)
  have hscan : scanCodes [0x43, 0x6C, 0x61, 0x17F, 0x17F] = _ :=
    (Lexeme.of_spelled hclass hspelled).scan_eq (by decide)
  have hscan' : scanCodes [0x70, 0x72, 0xEF, 0x6E, 0x74] = _ :=
    (Lexeme.of_isLetter (by decide) hletters).scan_eq (by decide)
  have ht : ⟨Segment.wordKind "Claſſ".toList, "Claſſ", .nil, 1⟩ ∈
      (scanCodes [0x43, 0x6C, 0x61, 0x17F, 0x17F]).tokens := by
    rw [hscan]
    exact List.mem_cons_self
  have ht' : ⟨Segment.wordKind "prïnt".toList, "prïnt", .nil, 1⟩ ∈
      (scanCodes [0x70, 0x72, 0xEF, 0x6E, 0x74]).tokens := by
    rw [hscan']
    exact List.mem_cons_self
  refine ⟨⟨_, ht, hclass, rfl, ?_, hspelled⟩, _, ht', hprint, rfl, ?_⟩
  · exact (reserved_word_iff_spelled ht hclass).1.mpr hspelled
  · exact (reserved_word_iff_spelled ht' hprint).2
      ⟨'ï', by decide, by decide, by decide, by decide⟩

/-- ASCII case alone does not tell the reserved words: the long s stands for an `S` as well. -/
theorem long_s_spells_reserved_word :
    scanCodes [0x65, 0x6C, 0x17F, 0x65] =
        ⟨[⟨.kwElse, "elſe", .nil, 1⟩, ⟨.endOfFile, "", .nil, 1⟩], []⟩ ∧
      ("ELSE", .kwElse) ∈ TokenKind.keywords ∧
      ¬ Forall₂ (fun c k => c.toUpper = k) "elſe".toList "ELSE".toList ∧
      'ſ' ∈ "elſe".toList ∧ Text.isLetter 'ſ' = true ∧ 0x80 ≤ 'ſ'.toNat := by
  have hletters : ∀ c ∈ "elſe".toList, Text.isLetter c = true :=
    List.all_eq_true.mp (by decide +kernel)
  have hword := Lexeme.of_isLetter (by decide) hletters
  have hkind : Segment.wordKind "elſe".toList = .kwElse := by decide +kernel
  rw [hkind] at hword
  refine ⟨hword.scan_eq (by decide), by decide, ?_, by decide, by decide +kernel, by decide⟩
  intro h
  have hletter : 'ſ'.toUpper = 'S' := h.get (i := 2) (by decide) (by decide)
  revert hletter
  decide

end Scriptlet
