import Scriptlet.Prompt.Line
import Scriptlet.Text.Utf8

/-!
The history of a prompt: the lines typed so far, the oldest first.
-/

namespace Scriptlet

structure History where
  entries : Array (List UInt8) := #[]

namespace History

def limit : Nat := 1000

/-- Adds an entry and forgets the oldest if there are too many. -/
def push (h : History) (line : List UInt8) : History :=
  let entries := h.entries.push line
  ⟨if limit < entries.size then entries.extract 1 entries.size else entries⟩

/-- Adds a line unless it repeats the one before. -/
def add (h : History) (line : List UInt8) : History :=
  if h.entries.back? = some line then h else h.push line

/-- Reads entries until the end, or until a line that is too long or no text. -/
def readFrom (h : History) : Nat → List UInt8 → History
  | 0, _ => h
  | fuel + 1, bytes =>
    match Line.piece? bytes with
    | none => h
    | some p =>
      if p.isPart || !Text.isWellFormed p.bytes.length p.bytes then h
      else (h.push p.bytes).readFrom fuel p.rest

def ofBytes (bytes : List UInt8) : History :=
  ({} : History).readFrom bytes.length bytes

/-- The entries, a line each. -/
def toBytes (h : History) : List UInt8 :=
  h.entries.toList.flatMap (· ++ [Line.newline])

end History

end Scriptlet
