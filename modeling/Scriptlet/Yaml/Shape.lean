import Scriptlet.Text.Base64
import Scriptlet.Text.Quoted
import Scriptlet.Yaml.Node
import Scriptlet.Yaml.Problem

/-!
Reading a document by its expected shape: texts, flags, and records of named fields. What does not
fit is listed, and the rest is still read.
-/

namespace Scriptlet.Yaml

inductive Shape where
  | text
  | flag
  | record (name : String) (fields : List (String × Shape))

/-- The name by which messages call a shape. -/
def Shape.name : Shape → String
  | text => "string"
  | flag => "bool"
  | record name _ => name

/-- The value of a field that is no record. -/
inductive Setting where
  | text (s : String)
  | flag (b : Bool)
  deriving DecidableEq, Repr

/-- A part of a document that does not fit, with its line. -/
inductive Misfit where
  | value (line : Nat) (tag : Tag) (text wanted : String)
  | unknownField (line : Nat) (name record : String)
  | repeatedKey (line : Nat) (key : String) (firstLine : Nat)
  | repeatedField (line : Nat) (name record : String)
  deriving DecidableEq, Repr

/-- Long texts are cut after seven bytes. -/
def shortened (text : String) : String :=
  if 10 < text.utf8ByteSize then
    String.ofList (Text.decode ((Text.encode text).take 7)) ++ "..."
  else text

def Misfit.message : Misfit → String
  | .value line tag text wanted =>
    "line " ++ toString line ++ ": cannot unmarshal " ++ tag.text ++
      (if tag = .sequence || tag = .mapping then "" else " `" ++ shortened text ++ "`") ++
      " into " ++ wanted
  | .unknownField line name record =>
    "line " ++ toString line ++ ": field " ++ name ++ " not found in type " ++ record
  | .repeatedKey line key firstLine =>
    "line " ++ toString line ++ ": mapping key " ++ Text.quoted key ++ " already defined at line " ++
      toString firstLine
  | .repeatedField line name record =>
    "line " ++ toString line ++ ": field " ++ name ++ " already set in type " ++ record

/-- What has been read so far: settings by the path of field names that leads to them, the later
ones last, and misfits in the order of their discovery. -/
structure Findings where
  settings : Array (List String × Setting) := #[]
  misfits : Array Misfit := #[]

abbrev Fitting := StateT Findings (Except Problem)

namespace Fitting

def misfit (m : Misfit) : Fitting Unit :=
  modify fun f => { f with misfits := f.misfits.push m }

def setting (path : List String) (s : Setting) : Fitting Unit :=
  modify fun f => { f with settings := f.settings.push (path, s) }

/-- What a scalar is, once its tag and its text agree. -/
inductive Meaning where
  | null
  | bool (b : Bool)
  | text (s : String)
  /-- A number or a time, which no shape asks for. -/
  | other

def meaning (tag : Tag) (text : String) : Fitting Meaning := do
  match tag with
  | .string => return .text text
  | .binary =>
    match Text.base64Bytes? text with
    | some bytes => return .text (String.ofList (Text.decode bytes))
    | none => throw ⟨.badBase64, 0⟩
  | tag =>
    let found := Tag.ofPlain text
    if found ≠ tag && !(found = .int && tag = .float) then
      throw ⟨.wrongTag found.text text tag.text, 0⟩
    match found with
    | .null => return .null
    | .bool => return .bool (trueWords.contains text)
    | _ => return .other

def yesWords : List String := ["y", "Y", "yes", "Yes", "YES", "on", "On", "ON"]

def noWords : List String := ["n", "N", "no", "No", "NO", "off", "Off", "OFF"]

def flag? : Meaning → Option Bool
  | .bool b => some b
  | .text s => if yesWords.contains s then some true else if noWords.contains s then some false else none
  | _ => none

/-- A null leaves the setting as it is. -/
def scalar (shape : Shape) (path : List String) (line : Nat) (tag : Tag) (text : String) :
    Fitting Unit := do
  match ← meaning tag text, shape with
  | .null, _ => pure ()
  | .text s, .text => setting path (.text s)
  | _, .text => setting path (.text text)
  | m, .flag =>
    match flag? m with
    | some b => setting path (.flag b)
    | none => misfit (.value line tag text shape.name)
  | _, .record _ _ => misfit (.value line tag text shape.name)

/-- Clashes of a key with those after it. -/
def clashes (key : Node) (later : List Node) : List Misfit :=
  later.filterMap fun other =>
    if other.sign = key.sign then some (.repeatedKey other.line other.sign.text key.line) else none

def repeatedKeys : List Node → List Misfit
  | [] => []
  | key :: later => clashes key later ++ repeatedKeys later

/-- Lists the clashes among the keys of a mapping; true if there are none. -/
def checkKeys (entries : List Node) : Fitting Bool := do
  let found := repeatedKeys (Node.keys entries)
  found.forM misfit
  return found.isEmpty

/-- The field that a key names; null names none. -/
def fieldName? : Node → Fitting (Option String)
  | .scalar _ tag text => do
    match ← meaning tag text with
    | .null => return none
    | .text s => return some s
    | _ => return some text
  | .sequence line tag _ => do
    misfit (.value line tag "" Shape.text.name)
    return none
  | .mapping line tag entries => do
    if ← checkKeys entries then misfit (.value line tag "" Shape.text.name)
    return none
  | .reference _ _ target => fieldName? target
  | .enclosing _ name => throw ⟨.selfContaining name, 0⟩

/-- The text of a key that is text. -/
def keyText? : Node → Option String
  | .scalar _ tag text => if tag = .string || tag = .merge then some text else none
  | .reference _ _ target => keyText? target
  | _ => none

/-- Fields that entries taken from other mappings must leave alone: those that a mapping has
itself, or, inside such an entry, those taken so far. -/
abbrev Taken := List String

mutual

def node (shape : Shape) (path : List String) : Node → Fitting Unit
  | .scalar line tag text => scalar shape path line tag text
  | .sequence line tag _ => misfit (.value line tag "" shape.name)
  | .mapping line tag entries => do
    if ← checkKeys entries then
      match shape with
      | .record name fields =>
        let own := (Node.keys entries).filterMap keyText?
        let (_, merge) ← fieldsOf name fields path none [] entries
        let _ ← merge own
      | _ => misfit (.value line tag "" shape.name)
  | .reference _ _ target => node shape path target
  | .enclosing _ name => throw ⟨.selfContaining name, 0⟩

/-- Reads the entries of a mapping, and gives the fields that are taken now and what remains to be
done: the entries that come from other mappings. No two keys clash, so there is one key at most
that calls for them. -/
def fieldsOf (name : String) (fields : List (String × Shape)) (path : List String)
    (taken : Option Taken) (done : List String) :
    List Node → Fitting (Option Taken × (Taken → Fitting Taken))
  | key :: value :: rest => do
    if key.isMerge then
      let (taken, _) ← fieldsOf name fields path taken done rest
      return (taken, fun taken => merged name fields path taken value)
    match ← fieldName? key with
    | none => fieldsOf name fields path taken done rest
    | some field =>
      if (taken.getD []).contains field then fieldsOf name fields path taken done rest
      else
        let taken := taken.map (field :: ·)
        match fields.lookup field with
        | some shape =>
          if done.contains field then
            misfit (.repeatedField key.line field name)
            fieldsOf name fields path taken done rest
          else
            node shape (path ++ [field]) value
            fieldsOf name fields path taken (field :: done) rest
        | none =>
          misfit (.unknownField key.line field name)
          fieldsOf name fields path taken done rest
  | _ => return (taken, pure)

/-- Takes the entries of a mapping, or of those in a list. -/
def merged (name : String) (fields : List (String × Shape)) (path : List String) (taken : Taken) :
    Node → Fitting Taken
  | .sequence _ _ items => mergedAll name fields path taken items
  | .mapping _ _ entries => do
    if ← checkKeys entries then
      let (now, merge) ← fieldsOf name fields path (some taken) [] entries
      merge (now.getD taken)
    else return taken
  | .reference _ _ target => mergedOne name fields path taken target
  | .enclosing _ anchor => throw ⟨.selfContaining anchor, 0⟩
  | .scalar _ _ _ => throw ⟨.mergeValue, 0⟩

/-- Takes the entries of one mapping. -/
def mergedOne (name : String) (fields : List (String × Shape)) (path : List String) (taken : Taken) :
    Node → Fitting Taken
  | .mapping _ _ entries => do
    if ← checkKeys entries then
      let (now, merge) ← fieldsOf name fields path (some taken) [] entries
      merge (now.getD taken)
    else return taken
  | .reference _ _ target => mergedOne name fields path taken target
  | .enclosing _ anchor => throw ⟨.selfContaining anchor, 0⟩
  | _ => throw ⟨.mergeValue, 0⟩

def mergedAll (name : String) (fields : List (String × Shape)) (path : List String)
    (taken : Taken) : List Node → Fitting Taken
  | [] => return taken
  | item :: rest => do
    let taken ← mergedOne name fields path taken item
    mergedAll name fields path taken rest

end

end Fitting

/-- Reads a document by a shape. -/
def Shape.read (shape : Shape) (root : Node) : Except Problem Findings :=
  ((Fitting.node shape [] root).run {}).map Prod.snd

end Scriptlet.Yaml
