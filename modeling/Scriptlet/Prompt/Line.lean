/-!
Lines of a byte stream. A line ends with a newline, before which a carriage return does not count.
What is longer than a limit comes in parts.
-/

namespace Scriptlet.Line

/-- Greatest number of bytes that are looked at for the end of a line. -/
def limit : Nat := 4096

def newline : UInt8 := 10

def carriageReturn : UInt8 := 13

/-- A line or a part of one. -/
structure Piece where
  bytes : List UInt8
  isPart : Bool
  rest : List UInt8

/-- A line without the carriage return before its newline. -/
def withoutReturn (line : List UInt8) : List UInt8 :=
  if line.getLast? == some carriageReturn then line.dropLast else line

/-- The first piece, `none` at the end of the stream. A carriage return at the end of a part is
left to the next piece, since a newline may follow it. The last line may lack its newline. -/
def piece? (bytes : List UInt8) : Option Piece :=
  let seen := bytes.take limit
  let line := seen.takeWhile (· != newline)
  if bytes.isEmpty then none
  else if line.length < seen.length then
    some ⟨withoutReturn line, false, bytes.drop (line.length + 1)⟩
  else if seen.length = limit then
    let kept := withoutReturn seen
    some ⟨kept, true, bytes.drop kept.length⟩
  else some ⟨seen, false, []⟩

/-- The first line or part of a line, and the bytes after it. -/
def first? (bytes : List UInt8) : Option (List UInt8 × List UInt8) :=
  (piece? bytes).map fun p => (p.bytes, p.rest)

end Scriptlet.Line
