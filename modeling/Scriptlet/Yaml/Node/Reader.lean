import Scriptlet.Yaml.Input
import Scriptlet.Yaml.Node
import Scriptlet.Yaml.Token.Lexer

/-!
Reads the first document of a token stream as a node. Tokens are asked for one at a time, so a
problem behind the document goes unseen.
-/

namespace Scriptlet.Yaml

structure NodeReader where
  stream : TokenStream
  position : Nat := 0
  /-- Anchored nodes, the latest first; those still being read have no node yet. -/
  anchors : List (String × Option Node) := []
  handles : List (String × String) := []
  hasVersion : Bool := false

abbrev NodeReading := StateT NodeReader (Except Problem)

namespace NodeReading

def peek : NodeReading Token := do
  let s ← get
  s.stream.get s.position

def drop : NodeReading Unit :=
  modify fun s => { s with position := s.position + 1 }

/-- Fails, blaming the line where the construct started or, if that is the first, the line of the
token at hand. -/
def fail {α : Type} (start : Nat) (cause : Cause) : NodeReading α := do
  let here := (← peek).line
  throw ⟨cause, if start = 0 then here else start⟩

/-! Directives. -/

def standardHandles : List (String × String) :=
  [("!", "!"), ("!!", Tag.standardLead)]

def directives : Nat → NodeReading Unit
  | 0 => pure ()
  | fuel + 1 => do
    let s ← get
    match (← peek).kind with
    | .version major minor =>
      if s.hasVersion then fail 0 .repeatedVersion
      if !(major = 1 && minor = 1) then fail 0 .wrongVersion
      set { s with hasVersion := true }
      drop
      directives fuel
    | .tagDirective handle lead =>
      if (s.handles.lookup handle).isSome then fail 0 .repeatedTag
      set { s with handles := (handle, lead) :: s.handles }
      drop
      directives fuel
    | _ => pure ()

/-! Anchors and tags before a node. -/

structure Properties where
  line : Nat
  anchor : Option String := none
  tag : String := ""

def fullTag (start : Nat) (handle suffix : String) : NodeReading String := do
  if handle = "" then return suffix
  match ((← get).handles ++ standardHandles).lookup handle with
  | some lead =>
    if lead ++ suffix = "" then fail start .undefinedTag
    return lead ++ suffix
  | none => fail start .undefinedTag

def properties : NodeReading Properties := do
  let first ← peek
  match first.kind with
  | .anchor name =>
    drop
    match (← peek).kind with
    | .tag handle suffix =>
      drop
      return ⟨first.line, some name, ← fullTag first.line handle suffix⟩
    | _ => return ⟨first.line, some name, ""⟩
  | .tag handle suffix =>
    drop
    match (← peek).kind with
    | .anchor name =>
      drop
      return ⟨first.line, some name, ← fullTag first.line handle suffix⟩
    | _ => return ⟨first.line, none, ← fullTag first.line handle suffix⟩
  | _ => return ⟨first.line, none, ""⟩

/-- The tag of a node: the written one, or else the given one. A lone `!` is none. -/
def Properties.tagOr (p : Properties) (implied : Tag) : Tag :=
  if p.tag = "" || p.tag = "!" then implied else .ofText p.tag

def openAnchor (p : Properties) : NodeReading Unit := do
  if let some name := p.anchor then
    modify fun s => { s with anchors := (name, none) :: s.anchors }

/-- Gives the latest open anchor of the name its node. -/
def closeIn (name : String) (node : Node) :
    List (String × Option Node) → List (String × Option Node)
  | [] => []
  | (other, found) :: rest =>
    if other = name && found.isNone then (name, some node) :: rest
    else (other, found) :: closeIn name node rest

def closeAnchor (p : Properties) (node : Node) : NodeReading Node := do
  if let some name := p.anchor then
    modify fun s => { s with anchors := closeIn name node s.anchors }
  return node

/-! Nodes. -/

def impliedTag (text : String) : ScalarStyle → Tag
  | .plain => if text = "<<" then .merge else .ofPlain text
  | _ => .string

def scalar (p : Properties) (text : String) (style : ScalarStyle) : NodeReading Node := do
  openAnchor p
  closeAnchor p (.scalar (p.line + 1) (p.tagOr (impliedTag text style)) text)

/-- A scalar that is not written. -/
def missing (line : Nat) : Node :=
  .scalar (line + 1) .null ""

def reference (line : Nat) (name : String) : NodeReading Node := do
  match (← get).anchors.lookup name with
  | some (some target) => return .reference (line + 1) name target
  | some none => return .enclosing (line + 1) name
  | none => throw ⟨.unknownAnchor name, 0⟩

/-- Tokens before which a value or a key of a block mapping is missing. -/
def endsBlockEntry : TokenKind → Bool
  | .key | .value | .blockEnd => true
  | _ => false

mutual

/-- A node; block collections are read only in a block context, a sequence without indentation
only in a block mapping. -/
def node (inBlock inMapping : Bool) : Nat → NodeReading Node
  | 0 => fail 0 .nodeContent
  | fuel + 1 => do
    let first ← peek
    if let .reference name := first.kind then
      drop
      return ← reference first.line name
    let p ← properties
    let t ← peek
    match t.kind with
    | .scalar text style =>
      drop
      scalar p text style
    | .flowSequenceStart =>
      drop
      openAnchor p
      let items ← flowSequence t.line true fuel
      closeAnchor p (.sequence (p.line + 1) (p.tagOr .sequence) items)
    | .flowMappingStart =>
      drop
      openAnchor p
      let entries ← flowMapping t.line true fuel
      closeAnchor p (.mapping (p.line + 1) (p.tagOr .mapping) entries)
    | kind =>
      if inMapping && kind = .blockEntry then
        openAnchor p
        let items ← looseSequence fuel
        closeAnchor p (.sequence (p.line + 1) (p.tagOr .sequence) items)
      else if inBlock && kind = .blockSequenceStart then
        drop
        openAnchor p
        let items ← blockSequence t.line fuel
        closeAnchor p (.sequence (p.line + 1) (p.tagOr .sequence) items)
      else if inBlock && kind = .blockMappingStart then
        drop
        openAnchor p
        let entries ← blockMapping t.line fuel
        closeAnchor p (.mapping (p.line + 1) (p.tagOr .mapping) entries)
      else if p.anchor.isSome || p.tag ≠ "" then scalar p "" .plain
      else fail p.line .nodeContent
termination_by structural fuel => fuel

def blockSequence (start : Nat) : Nat → NodeReading (List Node)
  | 0 => fail start .entryMark
  | fuel + 1 => do
    let t ← peek
    match t.kind with
    | .blockEntry =>
      drop
      let next ← peek
      let item ←
        if next.kind = .blockEntry || next.kind = .blockEnd then pure (missing t.line)
        else node true false fuel
      return item :: (← blockSequence start fuel)
    | .blockEnd =>
      drop
      return []
    | _ => fail start .entryMark
termination_by structural fuel => fuel

/-- A sequence whose marks stand below the key that it belongs to. -/
def looseSequence : Nat → NodeReading (List Node)
  | 0 => return []
  | fuel + 1 => do
    let t ← peek
    if t.kind = .blockEntry then
      drop
      let next ← peek
      let item ←
        if next.kind = .blockEntry || endsBlockEntry next.kind then pure (missing t.line)
        else node true false fuel
      return item :: (← looseSequence fuel)
    else return []
termination_by structural fuel => fuel

def blockMapping (start : Nat) : Nat → NodeReading (List Node)
  | 0 => fail start .blockKey
  | fuel + 1 => do
    let t ← peek
    match t.kind with
    | .key =>
      drop
      let next ← peek
      let key ← if endsBlockEntry next.kind then pure (missing t.line) else node true true fuel
      let value ← blockValue fuel
      return key :: value :: (← blockMapping start fuel)
    | .blockEnd =>
      drop
      return []
    | _ => fail start .blockKey
termination_by structural fuel => fuel

def blockValue : Nat → NodeReading Node
  | 0 => fail 0 .nodeContent
  | fuel + 1 => do
    let t ← peek
    if t.kind = .value then
      drop
      let next ← peek
      if endsBlockEntry next.kind then return missing t.line
      node true true fuel
    else return missing t.line
termination_by structural fuel => fuel

def flowSequence (start : Nat) (isFirst : Bool) : Nat → NodeReading (List Node)
  | 0 => fail start .sequenceEnd
  | fuel + 1 => do
    let t ← peek
    if t.kind = .flowSequenceEnd then
      drop
      return []
    if !isFirst then
      if t.kind = .flowEntry then drop else fail start .sequenceEnd
    let t ← peek
    match t.kind with
    | .flowSequenceEnd =>
      drop
      return []
    | .key =>
      drop
      let entries ← flowPair t.line fuel
      return .mapping (t.line + 1) .mapping entries :: (← flowSequence start false fuel)
    | _ =>
      let item ← node false false fuel
      return item :: (← flowSequence start false fuel)
termination_by structural fuel => fuel

/-- A mapping of one entry inside a flow sequence, after its key token. -/
def flowPair (line : Nat) : Nat → NodeReading (List Node)
  | 0 => fail line .nodeContent
  | fuel + 1 => do
    let next ← peek
    let key ←
      if next.kind = .value || next.kind = .flowEntry || next.kind = .flowSequenceEnd then do
        drop
        pure (missing next.line)
      else node false false fuel
    let t ← peek
    if t.kind = .value then
      drop
      let next ← peek
      if next.kind = .flowEntry || next.kind = .flowSequenceEnd then
        return [key, missing next.line]
      return [key, ← node false false fuel]
    else return [key, missing t.line]
termination_by structural fuel => fuel

def flowMapping (start : Nat) (isFirst : Bool) : Nat → NodeReading (List Node)
  | 0 => fail start .mappingEnd
  | fuel + 1 => do
    let t ← peek
    if t.kind = .flowMappingEnd then
      drop
      return []
    if !isFirst then
      if t.kind = .flowEntry then drop else fail start .mappingEnd
    let t ← peek
    match t.kind with
    | .flowMappingEnd =>
      drop
      return []
    | .key =>
      drop
      let next ← peek
      let key ←
        if next.kind = .value || next.kind = .flowEntry || next.kind = .flowMappingEnd then
          pure (missing next.line)
        else node false false fuel
      let value ← flowValue fuel
      return key :: value :: (← flowMapping start false fuel)
    | _ =>
      let key ← node false false fuel
      let next ← peek
      return key :: missing next.line :: (← flowMapping start false fuel)
termination_by structural fuel => fuel

def flowValue : Nat → NodeReading Node
  | 0 => fail 0 .nodeContent
  | fuel + 1 => do
    let t ← peek
    if t.kind = .value then
      drop
      let next ← peek
      if next.kind = .flowEntry || next.kind = .flowMappingEnd then return missing next.line
      node false false fuel
    else return missing t.line
termination_by structural fuel => fuel

end

/-- Tokens before which the content of a document with a start mark is missing. -/
def endsDocument : TokenKind → Bool
  | .version _ _ | .tagDirective _ _ | .documentStart | .documentEnd | .streamEnd => true
  | _ => false

/-- The root of the first document, if the stream has one. -/
def document : NodeReading (Option Node) := do
  let fuel := 4 * (← get).stream.tokens.size + 16
  let first ← peek
  match first.kind with
  | .streamEnd => return none
  | .version _ _ | .tagDirective _ _ | .documentStart =>
    directives fuel
    if (← peek).kind ≠ .documentStart then fail 0 .documentStart
    drop
    let t ← peek
    let root ← if endsDocument t.kind then pure (missing t.line) else node true false fuel
    let _ ← peek
    return some root
  | _ =>
    let root ← node true false fuel
    let _ ← peek
    return some root

end NodeReading

/-- The first document of a stream of bytes. -/
def Node.ofBytes? (bytes : List UInt8) : Except Problem (Option Node) := do
  let cs ← streamChars bytes
  (NodeReading.document.run { stream := .ofChars cs }).map Prod.fst

end Scriptlet.Yaml
