import Scriptlet.Proofs.LineByLine
import Scriptlet.Proofs.SessionSafety

/-!
Layout and the case of reserved words carry no meaning. Texts whose tokens mean the same, one by
one, have their syntax errors at the same positions, and if they have none they run alike, up to a
runtime error at the same position. To tell equal tokens apart, a list is read with the position of
each token in place of its line, at which neither reading nor running looks.
-/

namespace Scriptlet

open List (Forall₂)

def TokenKind.isReserved (k : TokenKind) : Bool := keywords.any (·.2 = k)

/-- The same kind and literal and, unless the token is a reserved word, the same spelling. -/
structure Token.SameMeaning (t t' : Token) : Prop where
  kind : t.kind = t'.kind
  literal : t.literal = t'.literal
  lexeme : t.kind.isReserved = false → t.lexeme = t'.lexeme

/-- Tokens of the same meaning on the same line. -/
structure Token.SamePlace (t t' : Token) : Prop extends Token.SameMeaning t t' where
  line : t.line = t'.line

/-- The second token stands in `tokens` at the position that the first one has for its line. -/
structure Token.NumberOf (tokens : List Token) (t t' : Token) : Prop where
  stands : tokens[t.line.toNat]? = some t'
  same : { t' with line := t.line } = t

theorem keepsMeaning_samePlace : KeepsMeaning Token.SamePlace where
  kind h := h.kind
  literal h := h.literal
  lexeme h hk := h.lexeme (by rw [hk]; rfl)

theorem keepsMeaning_numberOf (tokens : List Token) : KeepsMeaning (Token.NumberOf tokens) where
  kind h := (congrArg Token.kind h.same).symm
  literal h := (congrArg Token.literal h.same).symm
  lexeme h _ := (congrArg Token.lexeme h.same).symm

/-- The tokens with their positions in place of their lines. -/
def numbered (tokens : List Token) : List Token :=
  tokens.mapIdx fun i t => { t with line := i }

theorem forall₂_numbered (tokens : List Token) :
    Forall₂ (Token.NumberOf tokens) (numbered tokens) tokens := by
  apply List.forall₂_iff_get.mpr
  refine ⟨List.length_mapIdx, ?_⟩
  intro i hi hi'
  simp only [numbered, List.get_eq_getElem, List.getElem_mapIdx]
  exact ⟨List.getElem?_eq_getElem hi', rfl⟩

theorem numbered_sameMeaning {tokens tokens' : List Token}
    (h : Forall₂ Token.SameMeaning tokens tokens') :
    Forall₂ Token.SamePlace (numbered tokens) (numbered tokens') := by
  obtain ⟨hlength, hget⟩ := List.forall₂_iff_get.mp h
  apply List.forall₂_iff_get.mpr
  refine ⟨by simp only [numbered, List.length_mapIdx, hlength], ?_⟩
  intro i hi hi'
  simp only [numbered, List.length_mapIdx] at hi hi'
  have hmeaning := hget i hi hi'
  simp only [numbered, List.get_eq_getElem, List.getElem_mapIdx] at hmeaning ⊢
  exact ⟨⟨hmeaning.kind, hmeaning.literal, hmeaning.lexeme⟩, rfl⟩

section Reading

variable {R : Token → Token → Prop} {tokens tokens' : List Token}

def HasEnd (tokens : List Token) : Prop := ∃ t ∈ tokens, t.kind = .endOfFile

theorem hasEnd_scan (source : List Char) : HasEnd (scan source).tokens := by
  obtain ⟨front, last, htokens, -, hlast⟩ := exists_end_scan source
  rw [htokens]
  exact ⟨last, List.mem_append_right _ (List.mem_singleton.mpr rfl), hlast⟩

theorem hasEnd_of_alike (hR : KeepsMeaning R) (h : Forall₂ R tokens tokens')
    (hend : HasEnd tokens') : HasEnd tokens := by
  apply Classical.byContradiction
  intro hnone
  obtain ⟨t, ht, hk⟩ := hend
  refine kinds_alike hR h ?_ t ht hk
  intro u hu hk
  exact hnone ⟨u, hu, hk⟩

theorem beforeEnd_alike (hR : KeepsMeaning R) (h : Forall₂ R tokens tokens') :
    Forall₂ R (beforeEnd tokens) (beforeEnd tokens') := by
  induction h with
  | nil => exact .nil
  | cons ht _ ih =>
      simp only [beforeEnd, List.takeWhile_cons, ← hR.kind ht]
      split
      · exact .cons ht ih
      · exact .nil

theorem endToken_alike (hR : KeepsMeaning R) (h : Forall₂ R tokens tokens')
    (hend : HasEnd tokens) : R (endToken tokens) (endToken tokens') := by
  have hfound : Option.Rel R (tokens.find? (·.kind = .endOfFile))
      (tokens'.find? (·.kind = .endOfFile)) := by
    clear hend
    induction h with
    | nil => exact .none
    | cons ht _ ih =>
        simp only [List.find?_cons, ← hR.kind ht]
        split
        · exact .some ht
        · exact ih
  obtain ⟨t, ht, hk⟩ := hend
  unfold endToken
  generalize hfind : tokens.find? (·.kind = .endOfFile) = o at hfound ⊢
  generalize tokens'.find? (·.kind = .endOfFile) = o' at hfound ⊢
  cases hfound with
  | some hR => exact hR
  | none => exact absurd (decide_eq_true hk) (List.find?_eq_none.mp hfind t ht)

/-- Lists whose tokens mean the same read alike, with related errors in the same order. -/
theorem parse_alike (hR : KeepsMeaning R) (h : Forall₂ R tokens tokens') (hend : HasEnd tokens) :
    AlikeProgramsIn R (parse tokens).program (parse tokens').program ∧
      AlikeReports R (parse tokens).errors (parse tokens').errors := by
  have hread := declarations_alike hR (endToken_alike hR h hend) false _ (beforeEnd_alike hR h)
  rw [parse_eq_declarations, parse_eq_declarations]
  exact ⟨hread.program, hread.reports⟩

theorem executeAll_alike (hR : KeepsMeaning R) {p p' : List Stmt} (h : AlikeProgramsIn R p p')
    (budget : Nat) (m : Machine) :
    EndsAlike (Fault.Alike R) Eq (executeAll budget p m) (executeAll budget p' m) := by
  have hbehind : ∀ m : Machine, m.behind {} = m := by
    intro m
    simp [Machine.behind]
  have hrun := Simulation.runs_executeAll (S := tokenSimulation hR {}) budget p h
    (hbehind m).symm
  generalize executeAll budget p m = r, executeAll budget p' m = r' at hrun ⊢
  cases hrun with
  | ok u hm => exact .ok u (hm.trans (hbehind _)).symm
  | error hf hm => exact .error hf (hm.trans (hbehind _)).symm

end Reading

/-- The errors of a token list: the position of each and what is wrong there. -/
def placedErrors (tokens : List Token) : List (Nat × SyntaxFault) :=
  (parse (numbered tokens)).errors.map fun e => (e.token.line.toNat, e.fault)

/-- The position in the token list at which a run of it raises a runtime error. -/
def failurePlace (budget : Nat) (σ : Scopes) (tokens : List Token) : Option Nat :=
  match (executeAll budget (parse (numbered tokens)).program { scopes := σ }).1 with
  | .error (.error e) => some e.token.line.toNat
  | _ => none

/-- The error is the given one, at the token that stands at the given position. -/
structure SyntaxError.IsPlaced (tokens : List Token) (place : Nat × SyntaxFault)
    (e : SyntaxError) : Prop where
  stands : tokens[place.1]? = some e.token
  fault : place.2 = e.fault

section Places

variable {tokens tokens' : List Token}

theorem hasEnd_numbered (h : HasEnd tokens) : HasEnd (numbered tokens) :=
  hasEnd_of_alike (keepsMeaning_numberOf tokens) (forall₂_numbered tokens) h

theorem placedErrors_isPlaced (h : HasEnd tokens) :
    Forall₂ (SyntaxError.IsPlaced tokens) (placedErrors tokens) (parse tokens).errors := by
  have hreports := (parse_alike (keepsMeaning_numberOf tokens) (forall₂_numbered tokens)
    (hasEnd_numbered h)).2
  apply List.forall₂_map_left_iff.mpr
  apply hreports.imp
  intro e e' he
  exact ⟨he.token.stands, he.fault⟩

theorem placedErrors_eq (hend : HasEnd tokens) (h : Forall₂ Token.SameMeaning tokens tokens') :
    placedErrors tokens = placedErrors tokens' := by
  have hreports := (parse_alike keepsMeaning_samePlace (numbered_sameMeaning h)
    (hasEnd_numbered hend)).2
  rw [← List.forall₂_eq_eq_eq]
  apply List.forall₂_map_left_iff.mpr
  apply List.forall₂_map_right_iff.mpr
  apply hreports.imp
  intro e e' he
  exact Prod.ext (congrArg Int.toNat he.token.line) he.fault

/-- The two tokens stand at one position, at which both runs fail. -/
def FailsAt (tokens tokens' : List Token) (place place' : Option Nat) (t t' : Token) : Prop :=
  ∃ i, place = some i ∧ place' = some i ∧ tokens[i]? = some t ∧ tokens'[i]? = some t'

theorem executeAll_sameMeaning (hend : HasEnd tokens) (hend' : HasEnd tokens')
    (h : Forall₂ Token.SameMeaning tokens tokens') (budget : Nat) (σ : Scopes) :
    EndsAlike
      (Fault.Alike
        (FailsAt tokens tokens' (failurePlace budget σ tokens) (failurePlace budget σ tokens')))
      Eq (executeAll budget (parse tokens).program { scopes := σ })
      (executeAll budget (parse tokens').program { scopes := σ }) := by
  -- Each list runs like its numbered form, and the numbered forms run like each other.
  have hfirst := executeAll_alike (keepsMeaning_numberOf tokens)
    (parse_alike (keepsMeaning_numberOf tokens) (forall₂_numbered tokens)
      (hasEnd_numbered hend)).1 budget { scopes := σ }
  have hsecond := executeAll_alike (keepsMeaning_numberOf tokens')
    (parse_alike (keepsMeaning_numberOf tokens') (forall₂_numbered tokens')
      (hasEnd_numbered hend')).1 budget { scopes := σ }
  have hboth := executeAll_alike keepsMeaning_samePlace
    (parse_alike keepsMeaning_samePlace (numbered_sameMeaning h) (hasEnd_numbered hend)).1
    budget { scopes := σ }
  unfold failurePlace
  generalize executeAll budget (parse (numbered tokens)).program _ = n,
    executeAll budget (parse (numbered tokens')).program _ = n' at hfirst hsecond hboth ⊢
  generalize executeAll budget (parse tokens).program _ = r,
    executeAll budget (parse tokens').program _ = r' at hfirst hsecond ⊢
  cases hboth with
  | ok u hm =>
      cases hfirst with
      | ok _ hm₁ =>
          cases hsecond with
          | ok _ hm₂ => exact .ok u (hm₁.symm.trans (hm.trans hm₂))
  | error hf hm =>
      cases hfirst with
      | error hf₁ hm₁ =>
          cases hsecond with
          | error hf₂ hm₂ =>
              refine .error ?_ (hm₁.symm.trans (hm.trans hm₂))
              cases hf with
              | error ht cause =>
                  cases hf₁ with
                  | error ht₁ =>
                      cases hf₂ with
                      | error ht₂ =>
                          have hline := congrArg Int.toNat ht.line
                          exact .error ⟨_, rfl, congrArg some hline.symm, ht₁.stands,
                            hline ▸ ht₂.stands⟩ cause
              | defect d =>
                  cases hf₁
                  cases hf₂
                  exact .defect d
              | crash =>
                  cases hf₁
                  cases hf₂
                  exact .crash
              | exhausted =>
                  cases hf₁
                  cases hf₂
                  exact .exhausted

end Places

/-- The same error with the same message, at tokens that stand at one position. -/
structure RuntimeError.SameAt (tokens tokens' : List Token) (i : Nat) (e e' : RuntimeError) :
    Prop where
  kind : e.kind = e'.kind
  message : e.message = e'.message
  stands : tokens[i]? = some e.token
  stands' : tokens'[i]? = some e'.token

theorem isReserved_of_checksOperands {k : TokenKind} (h : checksOperands k = true) :
    k.isReserved = false := by
  cases k <;> first | rfl | cases h

theorem RuntimeError.RaisedAt.isReserved {T : Token → Prop} {e : RuntimeError}
    (h : e.RaisedAt T) : e.token.kind.isReserved = false := by
  obtain ⟨-, hkind⟩ := h
  cases hk : e.kind with
  | typeError =>
      rw [hk] at hkind
      exact isReserved_of_checksOperands hkind
  | undefinedVariable =>
      rw [hk] at hkind
      have hname : e.token.kind = .identifier := hkind
      rw [hname]
      rfl

/-- What is told of an error depends on its cause and on how its token is spelled. -/
theorem RuntimeError.message_eq {t t' : Token} (h : t.lexeme = t'.lexeme) (cause : RuntimeCause) :
    RuntimeError.message ⟨t, cause⟩ = RuntimeError.message ⟨t', cause⟩ := by
  cases cause <;> simp only [RuntimeError.message, h]

/-- Both runs show the same and end in the same way. If they fail, they raise the same error, at
tokens that stand at the same position of the two lists. -/
structure Transcript.SameRun (tokens tokens' : List Token) (place place' : Option Nat)
    (t t' : Transcript) : Prop where
  ending : t.ending = t'.ending
  output : t.output = t'.output
  log : t.log = t'.log
  staticReports : t.staticReports = t'.staticReports
  failure : t.failure = none ∧ t'.failure = none ∨
    ∃ i e e', place = some i ∧ place' = some i ∧ t.failure = some (.runtime e) ∧
      t'.failure = some (.runtime e') ∧ e.SameAt tokens tokens' i e'

theorem Session.sameRun_execute {tokens tokens' : List Token} {place place' : Option Nat}
    {T : Token → Prop} {budget : Nat} {s : Session} {p p' : List Stmt}
    (hmeaning : Forall₂ Token.SameMeaning tokens tokens')
    (hraise : Yields (Fault.Arises T fun _ => True) (fun _ => True)
      (executeAll budget p { scopes := s.scopes }).1)
    (h : EndsAlike (Fault.Alike (FailsAt tokens tokens' place place')) Eq
      (executeAll budget p { scopes := s.scopes }) (executeAll budget p' { scopes := s.scopes }))
    (listing listing' : String) :
    (s.execute budget listing p).1.SameRun tokens tokens' place place'
        (s.execute budget listing' p').1 ∧
      (s.execute budget listing p).2 = (s.execute budget listing' p').2 := by
  cases hrun : executeAll budget p { scopes := s.scopes } with
  | mk result m =>
      cases hrun' : executeAll budget p' { scopes := s.scopes } with
      | mk result' m' =>
          rw [s.execute_eq budget listing p hrun, s.execute_eq budget listing' p' hrun']
          rw [hrun, hrun'] at h
          rw [hrun] at hraise
          cases h with
          | ok u hm =>
              subst hm
              exact ⟨⟨rfl, rfl, rfl, rfl, .inl ⟨rfl, rfl⟩⟩, rfl⟩
          | error hf hm =>
              subst hm
              cases hf with
              | @error t t' ht cause =>
                  obtain ⟨i, hplace, hplace', hi, hi'⟩ := ht
                  have hsame : t.SameMeaning t' := by
                    obtain ⟨hlt, rfl⟩ := List.getElem?_eq_some_iff.mp hi
                    obtain ⟨hlt', rfl⟩ := List.getElem?_eq_some_iff.mp hi'
                    exact hmeaning.get hlt hlt'
                  have hmessage := RuntimeError.message_eq (hsame.lexeme hraise.isReserved) cause
                  refine ⟨⟨rfl, rfl, rfl, rfl, .inr ?_⟩, rfl⟩
                  exact ⟨i, _, _, hplace, hplace', rfl, rfl, rfl, hmessage, hi, hi'⟩
              | defect d => exact hraise.elim
              | crash => exact ⟨⟨rfl, rfl, rfl, rfl, .inl ⟨rfl, rfl⟩⟩, rfl⟩
              | exhausted => exact ⟨⟨rfl, rfl, rfl, rfl, .inl ⟨rfl, rfl⟩⟩, rfl⟩

theorem Session.run_of_hadError {budget : Nat} {s : Session} (hs : s.hadError = true)
    {source : List Char} (h : ErrorFree source) :
    s.run budget source =
      ({ ending := .outcome .syntaxError,
         listing := if s.options.listTokens then tokenListing (scan source).tokens else "" },
        { s with hadError := true }) := by
  simp only [Session.run, Session.staticReports, h.lexical, h.syntactic, hs, Bool.true_or, if_true]
  rfl

theorem Session.listing_run {s : Session} (h : s.options = {}) (budget : Nat)
    (source : List Char) : (s.run budget source).1.listing = "" := by
  simp only [Session.run, Session.execute, h]
  split
  · rfl
  · split <;> rfl

/-- Texts without lexical errors whose tokens mean the same have the same syntax errors at the same
positions. If they have none, they run alike from any session, and leave the same session. -/
theorem run_ignores_layout (budget : Nat) (s : Session) {a b : List Char}
    (ha : (scan a).errors = []) (hb : (scan b).errors = [])
    (h : Forall₂ Token.SameMeaning (scan a).tokens (scan b).tokens) :
    placedErrors (scan a).tokens = placedErrors (scan b).tokens ∧
    Forall₂ (SyntaxError.IsPlaced (scan a).tokens) (placedErrors (scan a).tokens)
      (parse (scan a).tokens).errors ∧
    Forall₂ (SyntaxError.IsPlaced (scan b).tokens) (placedErrors (scan b).tokens)
      (parse (scan b).tokens).errors ∧
    ((parse (scan a).tokens).errors = [] →
      (s.run budget a).1.SameRun (scan a).tokens (scan b).tokens
          (failurePlace budget s.scopes (scan a).tokens)
          (failurePlace budget s.scopes (scan b).tokens) (s.run budget b).1 ∧
        (s.run budget a).2 = (s.run budget b).2 ∧
        (s.options = {} → (s.run budget a).1.listing = (s.run budget b).1.listing)) := by
  have hplaces := placedErrors_eq (hasEnd_scan a) h
  have hfirst := placedErrors_isPlaced (hasEnd_scan a)
  have hsecond := placedErrors_isPlaced (hasEnd_scan b)
  refine ⟨hplaces, hfirst, hsecond, ?_⟩
  intro herrors
  have herrors' : (parse (scan b).tokens).errors = [] := by
    rw [herrors, List.forall₂_nil_right_iff] at hfirst
    rw [← hplaces, hfirst, List.forall₂_nil_left_iff] at hsecond
    exact hsecond
  rw [and_assoc.symm]
  refine ⟨?_, fun hoptions => ?_⟩
  · cases hs : s.hadError with
    | true =>
        rw [Session.run_of_hadError hs ⟨ha, herrors⟩, Session.run_of_hadError hs ⟨hb, herrors'⟩]
        exact ⟨⟨rfl, rfl, rfl, rfl, .inl ⟨rfl, rfl⟩⟩, rfl⟩
    | false =>
        obtain ⟨listing, hrun⟩ := Session.run_of_errorFree budget hs ⟨ha, herrors⟩
        obtain ⟨listing', hrun'⟩ := Session.run_of_errorFree budget hs ⟨hb, herrors'⟩
        have halike := executeAll_sameMeaning (hasEnd_scan a) (hasEnd_scan b) h budget s.scopes
        rw [hrun, hrun']
        exact Session.sameRun_execute h (yields_source budget a _) halike listing listing'
  · rw [Session.listing_run hoptions, Session.listing_run hoptions]

theorem run_ignores_layout_capitals :
    ∃ (s : Session) (a b : List Char), s.scopes = ⟨[], ⟨[("x", .string "one")]⟩⟩ ∧
      a = "print -x;".toList ∧ b = "PRINT\n  - x ; // done".toList ∧
      (scan a).errors = [] ∧ (scan b).errors = [] ∧
      Forall₂ Token.SameMeaning (scan a).tokens (scan b).tokens ∧
      (parse (scan a).tokens).errors = [] ∧
      failurePlace 1 s.scopes (scan a).tokens = some 1 ∧
      (s.run 1 a).1.SameRun (scan a).tokens (scan b).tokens
        (failurePlace 1 s.scopes (scan a).tokens) (failurePlace 1 s.scopes (scan b).tokens)
        (s.run 1 b).1 ∧
      (s.run 1 a).2 = (s.run 1 b).2 := by
  have hfirst : (scan "print -x;".toList).tokens =
      [⟨.kwPrint, "print", .nil, 1⟩, ⟨.minus, "-", .nil, 1⟩, ⟨.identifier, "x", .nil, 1⟩,
        ⟨.semicolon, ";", .nil, 1⟩, ⟨.endOfFile, "", .nil, 1⟩] := by decide +kernel
  have hsecond : (scan "PRINT\n  - x ; // done".toList).tokens =
      [⟨.kwPrint, "PRINT", .nil, 1⟩, ⟨.minus, "-", .nil, 2⟩, ⟨.identifier, "x", .nil, 2⟩,
        ⟨.semicolon, ";", .nil, 2⟩, ⟨.endOfFile, "", .nil, 2⟩] := by decide +kernel
  have ha : (scan "print -x;".toList).errors = [] := by decide +kernel
  have hb : (scan "PRINT\n  - x ; // done".toList).errors = [] := by decide +kernel
  have h : Forall₂ Token.SameMeaning (scan "print -x;".toList).tokens
      (scan "PRINT\n  - x ; // done".toList).tokens := by
    rw [hfirst, hsecond]
    exact .cons ⟨rfl, rfl, fun hk => by cases hk⟩ (.cons ⟨rfl, rfl, fun _ => rfl⟩
      (.cons ⟨rfl, rfl, fun _ => rfl⟩ (.cons ⟨rfl, rfl, fun _ => rfl⟩
        (.cons ⟨rfl, rfl, fun _ => rfl⟩ .nil))))
  have herrors : (parse (scan "print -x;".toList).tokens).errors = [] := by
    rw [hfirst]
    cbv
  have hplace : failurePlace 1 ⟨[], ⟨[("x", .string "one")]⟩⟩
      (scan "print -x;".toList).tokens = some 1 := by
    rw [hfirst]
    cbv
  obtain ⟨-, -, -, hruns⟩ :=
    run_ignores_layout 1 { scopes := ⟨[], ⟨[("x", .string "one")]⟩⟩ } ha hb h
  obtain ⟨hrun, hsession, -⟩ := hruns herrors
  exact ⟨_, _, _, rfl, rfl, rfl, ha, hb, h, herrors, hplace, hrun, hsession⟩

end Scriptlet
