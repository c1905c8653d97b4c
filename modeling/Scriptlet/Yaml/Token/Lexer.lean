import Scriptlet.Yaml.Token

/-!
Cuts the characters of a YAML stream into tokens. A key without a `?` is known as a key only when
its `:` is reached; until then its place is remembered, and the tokens that open the key are put
in before it.
-/

namespace Scriptlet.Yaml

/-! Classes of characters; the end of the text has none. -/

def isBreakChar (c : Char) : Bool :=
  c == '\n' || c == '\r' || c == '\x85' || c == '\u2028' || c == '\u2029'

def isBlankChar (c : Char) : Bool :=
  c == ' ' || c == '\t'

def isWordChar (c : Char) : Bool :=
  c.isAlphanum || c == '_' || c == '-'

def isBreak (c : Option Char) : Bool :=
  c.any isBreakChar

def isBlank (c : Option Char) : Bool :=
  c.any isBlankChar

/-- A line break or the end of the text. -/
def endsLine (c : Option Char) : Bool :=
  c.all isBreakChar

/-- A blank, a line break or the end of the text. -/
def endsWord (c : Option Char) : Bool :=
  c.all fun c => isBlankChar c || isBreakChar c

/-! The state of the lexer. -/

structure Mark where
  index : Nat := 0
  line : Nat := 0
  column : Nat := 0
  deriving DecidableEq, Repr

/-- A place at which a key may have started. In a block mapping a key must have. -/
structure KeyPlace where
  tokenNumber : Nat
  isRequired : Bool
  mark : Mark
  deriving DecidableEq, Repr

structure Lexer where
  rest : List Char
  mark : Mark := {}
  tokens : Array Token := #[]
  /-- Column of the innermost block collection, and those of the ones around it. -/
  indent : Int := -1
  indents : List Int := []
  /-- The key place of the innermost flow collection, and those of the ones around it. -/
  keyPlace : Option KeyPlace := none
  outerKeyPlaces : List (Option KeyPlace) := []
  isKeyAllowed : Bool := true

namespace Lexer

def isInFlow (s : Lexer) : Bool :=
  !s.outerKeyPlaces.isEmpty

/-- Whether three marks of one kind stand alone at the start of a line. -/
def isAtMark (s : Lexer) (c : Char) : Bool :=
  s.mark.column == 0 && s.rest.take 3 == [c, c, c] && endsWord s.rest[3]?

def isAtDocumentMark (s : Lexer) : Bool :=
  s.isAtMark '-' || s.isAtMark '.'

end Lexer

abbrev Lexing := StateT Lexer (Except Problem)

namespace Lexing

def charAt (i : Nat) : Lexing (Option Char) := do
  return (← get).rest[i]?

/-- Moves over characters none of which breaks the line. -/
def skip (n : Nat) : Lexing Unit :=
  modify fun s =>
    { s with
      rest := s.rest.drop n
      mark := ⟨s.mark.index + n, s.mark.line, s.mark.column + n⟩ }

def takeWhile (p : Char → Bool) : Lexing (List Char) := do
  let taken := (← get).rest.takeWhile p
  skip taken.length
  return taken

/-- Moves over a line break and gives the characters that stand for it in a scalar. -/
def takeBreak : Lexing (List Char) := do
  let s ← get
  let next (n : Nat) (rest : List Char) : Lexer :=
    { s with rest, mark := ⟨s.mark.index + n, s.mark.line + 1, 0⟩ }
  match s.rest with
  | '\r' :: '\n' :: rest =>
    set (next 2 rest)
    return ['\n']
  | c :: rest =>
    if isBreakChar c then
      set (next 1 rest)
      return [if c == '\u2028' || c == '\u2029' then c else '\n']
    else return []
  | [] => return []

/-- Fails, blaming the line where the construct started or, if that is the first, this line. -/
def fail {α : Type} (start : Nat) (cause : Cause) : Lexing α := do
  let here := (← get).mark.line
  let line := if start = 0 then here else start
  throw ⟨cause, if line = 0 then 0 else line + 1⟩

def emit (kind : TokenKind) (line : Nat) : Lexing Unit :=
  modify fun s => { s with tokens := s.tokens.push ⟨kind, line⟩ }

def insert (number : Nat) (kind : TokenKind) (line : Nat) : Lexing Unit :=
  modify fun s => { s with tokens := s.tokens.insertIdxIfInBounds number ⟨kind, line⟩ }

/-- Emits a token of `n` characters. -/
def emitSkipping (kind : TokenKind) (n : Nat) : Lexing Unit := do
  emit kind (← get).mark.line
  skip n

def allowKey (isKeyAllowed : Bool) : Lexing Unit :=
  modify fun s => { s with isKeyAllowed }

/-! Key places. -/

/-- A key ends on its line and is not longer than 1024 characters. -/
def isStillKey (place : KeyPlace) : Lexing Bool := do
  let mark := (← get).mark
  if place.mark.line < mark.line || place.mark.index + 1024 < mark.index then
    if place.isRequired then fail place.mark.line .keyWithoutColon
    return false
  return true

def dropKeyPlace : Lexing Unit := do
  if let some place := (← get).keyPlace then
    if place.isRequired then fail place.mark.line .keyWithoutColon
    modify fun s => { s with keyPlace := none }

def saveKeyPlace : Lexing Unit := do
  let s ← get
  if s.isKeyAllowed then
    dropKeyPlace
    let isRequired := !s.isInFlow && s.indent == Int.ofNat s.mark.column
    modify fun s => { s with keyPlace := some ⟨s.tokens.size, isRequired, s.mark⟩ }

/-! Indentation. -/

def maximalDepth : Nat := 10000

/-- Opens a block collection if the column lies to the right of the innermost one's. -/
def openBlock (mark : Mark) (number : Nat) (kind : TokenKind) : Lexing Unit := do
  let s ← get
  if !s.isInFlow && s.indent < Int.ofNat mark.column then
    if maximalDepth ≤ s.indents.length then fail mark.line .blocksTooDeep
    set { s with indents := s.indent :: s.indents, indent := Int.ofNat mark.column }
    insert number kind mark.line

def closeBlocksFrom (column : Int) : List Int → Lexing Unit
  | [] => pure ()
  | outer :: rest => do
    let s ← get
    if column < s.indent then
      set { s with indent := outer, indents := rest }
      emit .blockEnd s.mark.line
      closeBlocksFrom column rest

/-- Closes the block collections that lie to the right of the column. -/
def closeBlocks (column : Int) : Lexing Unit := do
  let s ← get
  if !s.isInFlow then closeBlocksFrom column s.indents

/-! Blanks and comments between tokens. -/

/-- Moves over breaks and blanks to the comment after them. -/
def skipToComment : Nat → Lexing Unit
  | 0 => pure ()
  | fuel + 1 => do
    let c ← charAt 0
    if isBreak c then
      let _ ← takeBreak
      skipToComment fuel
    else if isBlank c then
      skip 1
      skipToComment fuel

/-- Moves over a comment and over those that follow with only blanks and line breaks between. -/
def skipComments : Nat → Lexing Unit
  | 0 => pure ()
  | fuel + 1 => do
    let _ ← takeWhile fun c => !isBreakChar c
    let rest := (← get).rest
    let gap := rest.takeWhile fun c => isBlankChar c || c == '\n' || c == '\r'
    if gap.length < 512 && rest[gap.length]? == some '#' then
      skipToComment gap.length
      skipComments fuel

def skipToToken : Nat → Lexing Unit
  | 0 => pure ()
  | fuel + 1 => do
    let s ← get
    if s.mark.column == 0 && s.rest.head? == some '\ufeff' then skip 1
    let allowsTabs := s.isInFlow || !s.isKeyAllowed
    let _ ← takeWhile fun c => c == ' ' || (allowsTabs && c == '\t')
    if (← charAt 0) == some '#' then skipComments fuel
    if isBreak (← charAt 0) then
      let _ ← takeBreak
      if !s.isInFlow then allowKey true
      skipToToken fuel

/-- Moves over a comment on the line of the token before it. -/
def skipLineComment : Lexing Unit := do
  let s ← get
  let gap := (s.rest.takeWhile isBlankChar).length
  if gap < 512 && s.rest[gap]? == some '#' then
    let _ ← takeWhile fun c => !isBreakChar c

/-! Directives, anchors and tags. -/

def directiveName (start : Nat) : Lexing String := do
  let name ← takeWhile isWordChar
  if name.isEmpty then fail start .directiveName
  if !endsWord (← charAt 0) then fail start .directiveNameCharacter
  return String.ofList name

def versionNumber (start : Nat) : Lexing Nat := do
  let digits ← takeWhile Char.isDigit
  if 2 < digits.length then fail start .versionTooLong
  if digits.isEmpty then fail start .versionNumber
  return Nat.ofDigitChars 10 digits 0

def tagHandle (isDirective : Bool) (start : Nat) : Lexing (List Char) := do
  if (← charAt 0) != some '!' then fail start .tagBang
  skip 1
  let name ← takeWhile isWordChar
  if (← charAt 0) == some '!' then
    skip 1
    return '!' :: name ++ ['!']
  if isDirective && !name.isEmpty then fail start .tagBang
  return '!' :: name

def isUriChar (c : Char) : Bool :=
  isWordChar c || ";/?:@&=+$,.!~*'()[]".toList.contains c

def hexValue? (c : Char) : Option Nat :=
  if c.isDigit then some (c.toNat - 48)
  else if 'a'.toNat ≤ c.toNat && c.toNat ≤ 'f'.toNat then some (c.toNat - 87)
  else if 'A'.toNat ≤ c.toNat && c.toNat ≤ 'F'.toNat then some (c.toNat - 55)
  else none

/-- The characters of an address; `%` and two digits stand for an octet. -/
def uriChars (start : Nat) : Nat → Array Char → Lexing (Array Char)
  | 0, text => pure text
  | fuel + 1, text => do
    match (← get).rest with
    | '%' :: rest =>
      match rest[0]?.bind hexValue?, rest[1]?.bind hexValue? with
      | some a, some b =>
        skip 3
        uriChars start fuel (text.push (Char.ofNat (16 * a + b)))
      | _, _ => fail start .escapedOctet
    | c :: _ =>
      if isUriChar c then
        skip 1
        uriChars start fuel (text.push c)
      else pure text
    | [] => pure text

/-- An address after the characters of `head`, of which the first is left out. -/
def tagUri (head : List Char) (start : Nat) : Lexing String := do
  let text ← uriChars start (← get).rest.length #[]
  if head.isEmpty && text.isEmpty then fail start .tagUri
  return String.ofList (head.drop 1 ++ text.toList)

def directive : Lexing Unit := do
  let start := (← get).mark.line
  skip 1
  let name ← directiveName start
  if name = "YAML" then
    let _ ← takeWhile isBlankChar
    let major ← versionNumber start
    if (← charAt 0) != some '.' then fail start .versionDot
    skip 1
    let minor ← versionNumber start
    emit (.version major minor) start
  else if name = "TAG" then
    let _ ← takeWhile isBlankChar
    let handle ← tagHandle true start
    if !isBlank (← charAt 0) then fail start .tagBlank
    let _ ← takeWhile isBlankChar
    let lead ← tagUri [] start
    if !endsWord (← charAt 0) then fail start .tagBlankOrBreak
    emit (.tagDirective (String.ofList handle) lead) start
  else fail start .unknownDirective
  let _ ← takeWhile isBlankChar
  if (← charAt 0) == some '#' then
    let _ ← takeWhile fun c => !isBreakChar c
  if !endsLine (← charAt 0) then fail start .lineEndAfterDirective
  let _ ← takeBreak

/-- The name after `&` or `*`. -/
def anchorName : Lexing String := do
  let start := (← get).mark.line
  skip 1
  let name ← takeWhile isWordChar
  let next ← charAt 0
  if name.isEmpty || !(endsWord next || next.any "?:,]\x7d%@`".toList.contains) then
    fail start .anchorName
  return String.ofList name

def tag : Lexing Unit := do
  let start := (← get).mark.line
  if (← charAt 1) == some '<' then
    skip 2
    let uri ← tagUri [] start
    if (← charAt 0) != some '>' then fail start .tagAngle
    skip 1
    emit (.tag "" uri) start
  else
    let handle ← tagHandle false start
    if 1 < handle.length && handle.getLast? == some '!' then
      let suffix ← tagUri [] start
      emit (.tag (String.ofList handle) suffix) start
    else
      let suffix ← tagUri handle start
      emit (if suffix = "" then .tag "" "!" else .tag "!" suffix) start
  if !endsWord (← charAt 0) then fail start .tagBlankOrBreak

/-! Scalars. -/

/-- Line breaks between two lines of text: a single one stands for a space, of several the first
is dropped. -/
def folded (first more : List Char) : List Char :=
  if first.head? == some '\n' then
    if more.isEmpty then [' '] else more
  else first ++ more

/-- Moves over empty lines and over the indentation of the line after them. Gives the breaks and
the greatest column seen. Without a given indentation all spaces are taken. -/
def emptyLines (start indent : Nat) : Nat → List Char → Nat → Lexing (List Char × Nat)
  | 0, breaks, widest => pure (breaks, widest)
  | fuel + 1, breaks, widest => do
    let s ← get
    let spaces := (s.rest.takeWhile (· == ' ')).length
    skip (if indent = 0 then spaces else min spaces (indent - s.mark.column))
    let column := (← get).mark.column
    let widest := max widest column
    if (indent = 0 || column < indent) && (← charAt 0) == some '\t' then
      fail start .tabInIndentation
    if isBreak (← charAt 0) then
      let taken ← takeBreak
      emptyLines start indent fuel (breaks ++ taken) widest
    else return (breaks, widest)

/-- The text of a block scalar, the break after its last line and the breaks after that. -/
structure BlockText where
  text : List Char := []
  lastBreak : List Char := []
  moreBreaks : List Char := []

def blockLines (isLiteral : Bool) (start indent : Nat) :
    Nat → BlockText → Bool → Lexing BlockText
  | 0, b, _ => pure b
  | fuel + 1, b, afterBlank => do
    let s ← get
    if s.mark.column ≠ indent || s.rest.isEmpty then return b
    let startsBlank := isBlank s.rest.head?
    let joint :=
      if !isLiteral && !afterBlank && !startsBlank && b.lastBreak.head? == some '\n' then
        folded b.lastBreak b.moreBreaks
      else b.lastBreak ++ b.moreBreaks
    let line ← takeWhile fun c => !isBreakChar c
    let lastBreak ← takeBreak
    let (moreBreaks, _) ← emptyLines start indent s.rest.length [] 0
    blockLines isLiteral start indent fuel ⟨b.text ++ joint ++ line, lastBreak, moreBreaks⟩
      startsBlank

inductive Chomping where
  | strip | clip | keep
  deriving DecidableEq

def chomping : Lexing (Option Chomping) := do
  match ← charAt 0 with
  | some '+' =>
    skip 1
    return some .keep
  | some '-' =>
    skip 1
    return some .strip
  | _ => return none

/-- An indentation written in the header of a block scalar, zero if there is none. -/
def increment (start : Nat) : Lexing Nat := do
  match ← charAt 0 with
  | some c =>
    if c == '0' then fail start .zeroIndentation
    else if c.isDigit then
      skip 1
      return c.toNat - '0'.toNat
    else return 0
  | none => return 0

def blockScalar (isLiteral : Bool) : Lexing Unit := do
  let start := (← get).mark.line
  skip 1
  let first ← chomping
  let given ← increment start
  let last ← if first.isNone && given ≠ 0 then chomping else pure none
  let _ ← takeWhile isBlankChar
  if (← charAt 0) == some '#' then
    let _ ← takeWhile fun c => !isBreakChar c
  if !endsLine (← charAt 0) then fail start .lineEndAfterHeader
  let _ ← takeBreak
  let s ← get
  let indent := if given = 0 then 0 else given + s.indent.toNat
  let (breaks, widest) ← emptyLines start indent s.rest.length [] 0
  let indent := if indent = 0 then max (max widest (s.indent + 1).toNat) 1 else indent
  let b ← blockLines isLiteral start indent (s.rest.length + 1) { moreBreaks := breaks } false
  let tail :=
    match (first.or last).getD .clip with
    | .strip => []
    | .clip => b.lastBreak
    | .keep => b.lastBreak ++ b.moreBreaks
  emit (.scalar (String.ofList (b.text ++ tail)) (if isLiteral then .literal else .folded)) start

/-- The character that a letter after a backslash stands for. -/
def escaped? : Char → Option Char
  | '0' => some '\x00'
  | 'a' => some '\x07'
  | 'b' => some '\x08'
  | 't' | '\t' => some '\t'
  | 'n' => some '\n'
  | 'v' => some '\x0b'
  | 'f' => some '\x0c'
  | 'r' => some '\r'
  | 'e' => some '\x1b'
  | ' ' => some ' '
  | '"' => some '"'
  | '\'' => some '\''
  | '\\' => some '\\'
  | 'N' => some '\x85'
  | '_' => some '\xa0'
  | 'L' => some '\u2028'
  | 'P' => some '\u2029'
  | _ => none

/-- Number of digits after an escape by code. -/
def codeLength? : Char → Option Nat
  | 'x' => some 2
  | 'u' => some 4
  | 'U' => some 8
  | _ => none

def escape (start : Nat) : Lexing Char := do
  let letter := (← charAt 1).getD '\x00'
  match escaped? letter, codeLength? letter with
  | some c, _ =>
    skip 2
    return c
  | none, some n =>
    skip 2
    let digits := ((← get).rest.take n).filterMap hexValue?
    if digits.length ≠ n then fail start .hexDigits
    let code := digits.foldl (fun code d => 16 * code + d) 0
    if !code.isValidChar then fail start .escapedCharacter
    skip n
    return Char.ofNat code
  | none, none => fail start .unknownEscape

/-- The characters up to a blank, a break or the closing quote, and whether they ended with an
escaped break. -/
def quotedWord (isSingle : Bool) (start : Nat) : Nat → Array Char → Lexing (Array Char × Bool)
  | 0, text => pure (text, false)
  | fuel + 1, text => do
    let next ← charAt 1
    match ← charAt 0 with
    | none => return (text, false)
    | some c =>
      if endsWord (some c) then return (text, false)
      else if isSingle && c == '\'' then
        if next == some '\'' then
          skip 2
          quotedWord isSingle start fuel (text.push '\'')
        else return (text, false)
      else if !isSingle && c == '"' then return (text, false)
      else if !isSingle && c == '\\' then
        if isBreak next then
          skip 1
          let _ ← takeBreak
          return (text, true)
        else
          let c ← escape start
          quotedWord isSingle start fuel (text.push c)
      else
        skip 1
        quotedWord isSingle start fuel (text.push c)

/-- Blanks inside a scalar. Those around a line break do not count. An escaped break stands for
nothing: the gap after it has a break, but no first one. -/
structure Gap where
  hasBreak : Bool := false
  blanks : List Char := []
  firstBreak : List Char := []
  moreBreaks : List Char := []

def Gap.text (g : Gap) : List Char :=
  if g.hasBreak then folded g.firstBreak g.moreBreaks else g.blanks

/-- Moves over blanks and breaks. In a plain scalar a tab must not stand for indentation. -/
def gap (start : Nat) (indent : Nat) : Nat → Gap → Lexing Gap
  | 0, g => pure g
  | fuel + 1, g => do
    match ← charAt 0 with
    | none => return g
    | some c =>
      if isBlankChar c then
        if g.hasBreak && c == '\t' && (← get).mark.column < indent then fail start .tabInPlain
        skip 1
        gap start indent fuel (if g.hasBreak then g else { g with blanks := g.blanks ++ [c] })
      else if isBreakChar c then
        let taken ← takeBreak
        gap start indent fuel
          (if g.hasBreak then { g with moreBreaks := g.moreBreaks ++ taken }
          else { g with hasBreak := true, blanks := [], firstBreak := taken })
      else return g

def quotedText (isSingle : Bool) (start : Nat) : Nat → Array Char → Lexing (Array Char)
  | 0, text => pure text
  | fuel + 1, text => do
    let s ← get
    if s.isAtDocumentMark then fail start .documentInQuotes
    if s.rest.isEmpty then fail start .endInQuotes
    let (text, endsEscaped) ← quotedWord isSingle start (s.rest.length + 1) text
    if (← charAt 0) == some (if isSingle then '\'' else '"') then return text
    let g ← gap start 0 s.rest.length { hasBreak := endsEscaped }
    quotedText isSingle start fuel (text ++ g.text.toArray)

def quotedScalar (isSingle : Bool) : Lexing Unit := do
  let s ← get
  skip 1
  let text ← quotedText isSingle s.mark.line s.rest.length #[]
  skip 1
  emit (.scalar (String.ofList text.toList) (if isSingle then .singleQuoted else .doubleQuoted))
    s.mark.line

def isFlowIndicator (c : Char) : Bool :=
  ",?[]\x7b\x7d".toList.contains c

/-- Number of characters of a plain scalar before the next blank, break or indicator. -/
def plainLength (isInFlow : Bool) : List Char → Nat
  | [] => 0
  | c :: rest =>
    if endsWord (some c) || (c == ':' && endsWord rest.head?) || (isInFlow && isFlowIndicator c) then 0
    else plainLength isInFlow rest + 1

/-- The text of a plain scalar, and whether it is followed by a line break. -/
def plainText (start indent : Nat) : Nat → Array Char → Gap → Lexing (Array Char × Bool)
  | 0, text, g => pure (text, g.hasBreak)
  | fuel + 1, text, g => do
    let s ← get
    if s.isAtDocumentMark || s.rest.head? == some '#' then return (text, g.hasBreak)
    let word := s.rest.take (plainLength s.isInFlow s.rest)
    skip word.length
    let (text, g) :=
      if word.isEmpty then (text, g) else (text ++ g.text.toArray ++ word.toArray, {})
    let next ← charAt 0
    if !(isBlank next || isBreak next) then return (text, g.hasBreak)
    let g ← gap start indent s.rest.length g
    if !s.isInFlow && (← get).mark.column < indent then return (text, g.hasBreak)
    plainText start indent fuel text g

def plainScalar : Lexing Unit := do
  let s ← get
  let (text, hasBreak) ← plainText s.mark.line (s.indent + 1).toNat s.rest.length #[] {}
  emit (.scalar (String.ofList text.toList) .plain) s.mark.line
  if hasBreak then allowKey true

/-! Tokens. -/

def startFlow (kind : TokenKind) : Lexing Unit := do
  saveKeyPlace
  let s ← get
  if maximalDepth ≤ s.outerKeyPlaces.length then fail s.mark.line .flowTooDeep
  set { s with keyPlace := none, outerKeyPlaces := s.keyPlace :: s.outerKeyPlaces }
  allowKey true
  emitSkipping kind 1

def endFlow (kind : TokenKind) : Lexing Unit := do
  dropKeyPlace
  modify fun s =>
    match s.outerKeyPlaces with
    | place :: outer => { s with keyPlace := place, outerKeyPlaces := outer }
    | [] => s
  allowKey false
  emitSkipping kind 1

def flowEntry : Lexing Unit := do
  dropKeyPlace
  allowKey true
  emitSkipping .flowEntry 1

def blockEntry : Lexing Unit := do
  let s ← get
  if !s.isInFlow then
    if !s.isKeyAllowed then fail 0 .noEntryHere
    openBlock s.mark s.tokens.size .blockSequenceStart
  dropKeyPlace
  allowKey true
  emitSkipping .blockEntry 1

def key : Lexing Unit := do
  let s ← get
  if !s.isInFlow then
    if !s.isKeyAllowed then fail 0 .noKeyHere
    openBlock s.mark s.tokens.size .blockMappingStart
  dropKeyPlace
  allowKey !s.isInFlow
  emitSkipping .key 1

/-- The key place, if what started there is a key. -/
def keyStart? : Lexing (Option KeyPlace) := do
  match (← get).keyPlace with
  | some place => if ← isStillKey place then return some place else return none
  | none => return none

def value : Lexing Unit := do
  let s ← get
  match ← keyStart? with
  | some place =>
    insert place.tokenNumber .key place.mark.line
    openBlock place.mark place.tokenNumber .blockMappingStart
    modify fun s => { s with keyPlace := none }
    allowKey false
  | none =>
    if !s.isInFlow then
      if !s.isKeyAllowed then fail 0 .noValueHere
      openBlock s.mark s.tokens.size .blockMappingStart
    allowKey !s.isInFlow
  emitSkipping .value 1

/-- A token that a key can start with. -/
def keyable (token : Lexing Unit) : Lexing Unit := do
  saveKeyPlace
  allowKey false
  token

def isIndicator (c : Char) : Bool :=
  "-?:,[]\x7b\x7d#&*!|>'\"%@`".toList.contains c

/-- Whether a plain scalar can start here. -/
def startsPlain (isInFlow : Bool) (c : Char) (next : Option Char) : Bool :=
  !(endsWord (some c) || isIndicator c) || (c == '-' && !isBlank next) ||
    (!isInFlow && (c == '?' || c == ':') && !endsWord next)

/-- A token of the content of a document. -/
def contentToken (c : Char) (next : Option Char) : Lexing Unit := do
  let isInFlow := (← get).isInFlow
  let line := (← get).mark.line
  if c == '[' then startFlow .flowSequenceStart
  else if c == '\x7b' then startFlow .flowMappingStart
  else if c == ']' then endFlow .flowSequenceEnd
  else if c == '\x7d' then endFlow .flowMappingEnd
  else if c == ',' then flowEntry
  else if c == '-' && endsWord next then blockEntry
  else if c == '?' && (isInFlow || endsWord next) then key
  else if c == ':' && (isInFlow || endsWord next) then value
  else if c == '*' then keyable do emit (.reference (← anchorName)) line
  else if c == '&' then keyable do emit (.anchor (← anchorName)) line
  else if c == '!' then keyable tag
  else if (c == '|' || c == '>') && !isInFlow then
    dropKeyPlace
    allowKey true
    blockScalar (c == '|')
  else if c == '\'' || c == '"' then keyable (quotedScalar (c == '\''))
  else if startsPlain isInFlow c next then keyable plainScalar
  else fail line .noTokenStart
  if (← get).tokens.back?.map Token.kind != some .blockEntry then skipLineComment

/-- Ends all blocks, before a directive or a mark between documents. -/
def endDocument : Lexing Unit := do
  closeBlocks (-1)
  dropKeyPlace
  allowKey false

/-- Reads on to the next token; false at the end of the stream. -/
def next : Lexing Bool := do
  skipToToken ((← get).rest.length + 1)
  closeBlocks (Int.ofNat (← get).mark.column)
  let s ← get
  match s.rest with
  | [] =>
    endDocument
    emit .streamEnd (if s.mark.column = 0 then s.mark.line else s.mark.line + 1)
    return false
  | c :: rest =>
    if s.mark.column == 0 && c == '%' then
      endDocument
      directive
    else if s.isAtDocumentMark then
      endDocument
      emitSkipping (if c == '-' then .documentStart else .documentEnd) 3
    else contentToken c rest.head?
    return true

/-- All tokens from a state on. Every token but the last takes at least one character. -/
def all : Nat → Lexer → TokenStream
  | 0, s => ⟨s.tokens, none⟩
  | fuel + 1, s =>
    match next.run s with
    | .ok (true, s) => all fuel s
    | .ok (false, s) => ⟨s.tokens, none⟩
    | .error p => ⟨s.tokens, some p⟩

end Lexing

/-- The tokens of a stream. -/
def TokenStream.ofChars (cs : List Char) : TokenStream :=
  Lexing.all (cs.length + 1) { rest := cs }

end Scriptlet.Yaml
