import Scriptlet.Source.Scan

/-!
The tokens that scanning finds: each carries a value of its kind, and the last one, and no other,
is an end token.
-/

namespace Scriptlet

/-- The token carries a value of its kind: a number, a string or, for any other kind, nothing. -/
def Token.LiteralFits (t : Token) : Prop :=
  match t.kind with
  | .number => ∃ x, t.literal = .number x
  | .string => ∃ s, t.literal = .string s
  | _ => t.literal = .nil

namespace Segment

theorem literalFits_token? {line : Int} {s : Segment} {t : Token} (h : s.token? line = some t) :
    t.LiteralFits := by
  cases s with
  | token kind text =>
      cases h
      cases kind with
      | number => exact ⟨_, rfl⟩
      | string => exact ⟨_, rfl⟩
      | _ => rfl
  | blank c | comment text | stray c | openString text => cases h

/-- A word is an identifier or a reserved word. -/
theorem wordKind_ne {kind : TokenKind} (hkind : kind ≠ .identifier)
    (h : ∀ entry ∈ TokenKind.keywords, entry.2 ≠ kind) (word : List Char) :
    wordKind word ≠ kind := by
  unfold wordKind
  cases hlookup : TokenKind.ofKeyword? (String.ofList (word.map Text.capital)) with
  | none => exact hkind.symm
  | some found =>
      obtain ⟨front, back, hkeywords, -⟩ := List.lookup_eq_some_iff.mp hlookup
      exact h (_, found) (hkeywords ▸ List.mem_append_cons_self)

theorem single?_ne_endOfFile {c : Char} {kind : TokenKind} (h : single? c = some kind) :
    kind ≠ .endOfFile := by
  unfold single? at h
  split at h <;> cases h <;> exact TokenKind.noConfusion

theorem comparison?_ne_endOfFile {c : Char} {alone compound : TokenKind}
    (h : comparison? c = some (alone, compound)) :
    alone ≠ .endOfFile ∧ compound ≠ .endOfFile := by
  unfold comparison? at h
  split at h <;> cases h <;> exact ⟨TokenKind.noConfusion, TokenKind.noConfusion⟩

/-- The ways in which a character starts segments, whatever follows it. -/
inductive StartsAs (c : Char) : Prop where
  | single {kind : TokenKind} (hc : single? c = some kind)
      (h : ∀ rest, starting c rest = .token kind [c])
  | comparison {alone compound : TokenKind} (hc : comparison? c = some (alone, compound))
      (h : ∀ rest, starting c rest =
        if rest.head? = some '=' then .token compound [c, '='] else .token alone [c])
  | slash (hc : c = '/')
      (h : ∀ rest, starting c rest =
        if rest.head? = some '/' then .comment (c :: rest.takeWhile (· ≠ '\n'))
        else .token .slash [c])
  | quote (hc : c = '"')
      (h : ∀ rest, starting c rest =
        if rest.dropWhile (· ≠ '"') = [] then .openString (c :: rest)
        else .token .string (c :: rest.takeWhile (· ≠ '"') ++ ['"']))
  | blank (hc : isBlank c = true) (h : ∀ rest, starting c rest = .blank c)
  | digit (hc : c.isDigit = true)
      (h : ∀ rest, starting c rest = .token .number
        (c :: rest.takeWhile Char.isDigit ++ fraction (rest.dropWhile Char.isDigit)))
  | letter (hc : Text.isLetter c = true)
      (h : ∀ rest, starting c rest =
        .token (wordKind (c :: rest.takeWhile continuesWord)) (c :: rest.takeWhile continuesWord))
  | stray (h : ∀ rest, starting c rest = .stray c)

theorem startsAs (c : Char) : StartsAs c := by
  by_cases hsingle : ∃ kind, single? c = some kind
  · obtain ⟨kind, hkind⟩ := hsingle
    exact .single hkind fun rest => by simp [starting, hkind]
  have hsingle : single? c = none := by simpa [Option.eq_none_iff_forall_ne_some] using hsingle
  by_cases hcomparison : ∃ kinds, comparison? c = some kinds
  · obtain ⟨⟨alone, compound⟩, hkinds⟩ := hcomparison
    refine .comparison hkinds fun rest => ?_
    cases rest with
    | nil => simp [starting, hsingle, hkinds]
    | cons d rest => by_cases hd : d = '=' <;> simp [starting, hsingle, hkinds, hd]
  have hcomparison : comparison? c = none := by
    simpa [Option.eq_none_iff_forall_ne_some] using hcomparison
  by_cases hslash : c = '/'
  · subst hslash
    refine .slash rfl fun rest => ?_
    cases rest with
    | nil => rfl
    | cons d rest => by_cases hd : d = '/' <;> simp [starting, hsingle, hcomparison, hd]
  by_cases hquote : c = '"'
  · subst hquote
    refine .quote rfl fun rest => ?_
    cases hrest : rest.dropWhile (· ≠ '"') <;>
      simp only [starting, hsingle, hcomparison, hslash, hrest, if_true, if_false, reduceCtorEq]
  by_cases hblank : isBlank c = true
  · exact .blank hblank fun rest => by simp [starting, hsingle, hcomparison, hslash, hquote, hblank]
  by_cases hdigit : c.isDigit = true
  · exact .digit hdigit fun rest => by
      simp [starting, hsingle, hcomparison, hslash, hquote, hblank, hdigit]
  by_cases hletter : Text.isLetter c = true
  · exact .letter hletter fun rest => by
      simp [starting, hsingle, hcomparison, hslash, hquote, hblank, hdigit, hletter]
  exact .stray fun rest => by
    simp [starting, hsingle, hcomparison, hslash, hquote, hblank, hdigit, hletter]

/-- No text stands for the end. -/
theorem kind_starting_ne_endOfFile {c : Char} {rest text : List Char} {kind : TokenKind}
    (h : starting c rest = .token kind text) : kind ≠ .endOfFile := by
  cases startsAs c with
  | single hc hs =>
      rw [hs] at h
      cases h
      exact single?_ne_endOfFile hc
  | comparison hc hs =>
      rw [hs] at h
      split at h <;> cases h
      · exact (comparison?_ne_endOfFile hc).2
      · exact (comparison?_ne_endOfFile hc).1
  | slash hc hs =>
      rw [hs] at h
      split at h <;> cases h
      exact TokenKind.noConfusion
  | quote hc hs =>
      rw [hs] at h
      split at h <;> cases h
      exact TokenKind.noConfusion
  | digit hc hs =>
      rw [hs] at h
      cases h
      exact TokenKind.noConfusion
  | letter hc hs =>
      rw [hs] at h
      cases h
      exact wordKind_ne TokenKind.noConfusion (by decide) _
  | blank hc hs =>
      rw [hs] at h
      cases h
  | stray hs =>
      rw [hs] at h
      cases h

end Segment

theorem literalFits_ofSegments {line : Int} {segs : List Segment} {t : Token}
    (h : t ∈ (Scan.ofSegments line segs).tokens) : t.LiteralFits := by
  induction segs generalizing line with
  | nil =>
      obtain rfl := List.mem_singleton.mp h
      rfl
  | cons s rest ih =>
      obtain h | h := List.mem_append.mp h
      · exact Segment.literalFits_token? (Option.mem_toList.mp h)
      · exact ih h

theorem exists_starting_of_mem_segments {source : List Char} {s : Segment}
    (h : s ∈ segments source) : ∃ c rest, s = Segment.starting c rest := by
  fun_induction segments source with
  | case1 => cases h
  | case2 c rest segment ih =>
      obtain rfl | h := List.mem_cons.mp h
      · exact ⟨c, rest, rfl⟩
      · exact ih h

theorem kind_token?_ne_endOfFile {source : List Char} {s : Segment} (h : s ∈ segments source)
    {line : Int} {t : Token} (ht : s.token? line = some t) : t.kind ≠ .endOfFile := by
  obtain ⟨c, rest, rfl⟩ := exists_starting_of_mem_segments h
  cases hs : Segment.starting c rest with
  | token kind text =>
      rw [hs] at ht
      cases ht
      exact Segment.kind_starting_ne_endOfFile hs
  | blank c | comment text | stray c | openString text =>
      rw [hs] at ht
      cases ht

/-- The last token is an end token and no other one is. -/
theorem exists_end_ofSegments {segs : List Segment}
    (h : ∀ s ∈ segs, ∀ line t, s.token? line = some t → t.kind ≠ .endOfFile) (line : Int) :
    ∃ front last, (Scan.ofSegments line segs).tokens = front ++ [last] ∧
      (∀ t ∈ front, t.kind ≠ .endOfFile) ∧ last.kind = .endOfFile := by
  induction segs generalizing line with
  | nil => exact ⟨[], _, rfl, List.forall_mem_nil _, rfl⟩
  | cons s rest ih =>
      obtain ⟨hs, hrest⟩ := List.forall_mem_cons.mp h
      obtain ⟨front, last, htokens, hfront, hlast⟩ := ih hrest (line + s.newlines)
      refine ⟨(s.token? (line + s.newlines)).toList ++ front, last, ?_, ?_, hlast⟩
      · rw [Scan.ofSegments, htokens, List.append_assoc]
      · refine List.forall_mem_append.mpr ⟨fun t ht => ?_, hfront⟩
        exact hs _ t (Option.mem_toList.mp ht)

theorem exists_end_scan (source : List Char) :
    ∃ front last, (scan source).tokens = front ++ [last] ∧
      (∀ t ∈ front, t.kind ≠ .endOfFile) ∧ last.kind = .endOfFile :=
  exists_end_ofSegments (fun _ hs _ _ ht => kind_token?_ne_endOfFile hs ht) 1

end Scriptlet
