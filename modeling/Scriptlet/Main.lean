import Scriptlet.Command.Run

/-!
The command over the files and streams of the system.
-/

namespace Scriptlet

/-- The state holds the bytes of the input that have been read and not yet asked for. -/
abbrev Terminal := StateT (List UInt8) IO

namespace Terminal

def fileError : IO.Error → FileError
  | .noFileOrDirectory _ _ _ => .notFound
  | .inappropriateType _ _ _ => .isDirectory
  | e => .other (toString e)

/-- Opens a file to see whether it is there, then reads it. -/
def readFile (path : String) : IO (Except FileFault (List UInt8)) := do
  match ← (IO.FS.Handle.mk path .read).toBaseIO with
  | .error e => return .error ⟨.opening, path, fileError e⟩
  | .ok handle =>
    match ← handle.readBinToEnd.toBaseIO with
    | .ok content => return .ok content.toList
    | .error e => return .error ⟨.reading, path, fileError e⟩

def isPresent (path : String) : IO Bool := do
  match ← (IO.FS.Handle.mk path .read).toBaseIO with
  | .ok _ => return true
  | .error _ => return false

def writeFile (path : String) (content : List UInt8) : IO (Except FileFault Unit) := do
  match ← (IO.FS.writeBinFile path ⟨content.toArray⟩).toBaseIO with
  | .ok _ => return .ok ()
  | .error e => return .error ⟨.opening, path, fileError e⟩

/-- Reads on until a line is complete, too long, or the last one. -/
partial def fill (input : IO.FS.Stream) (pending : Array UInt8) : IO (Array UInt8) := do
  if pending.back? == some Line.newline || Line.limit ≤ pending.size then return pending
  let more ← input.read 1
  if more.isEmpty then return pending
  fill input (pending ++ more.data)

def write (stream : IO.FS.Stream) (text : String) : IO Unit := do
  stream.putStr text
  stream.flush

instance : Host Terminal where
  readFile path := readFile path
  isPresent path := isPresent path
  writeFile path content := writeFile path content
  print text := do write (← IO.getStdout) text
  complain text := do write (← IO.getStderr) text
  readLine := do
    let pending ← fill (← IO.getStdin) (← get).toArray
    match Line.first? pending.toList with
    | some (line, rest) =>
      set rest
      return some line
    | none => return none

/-- More rounds than any program or conversation goes. -/
def unlimited : Nat := 1000000000000000000

def environment : IO Environment := do
  let home := (← IO.getEnv "HOME").filter (· ≠ "")
  return { home, settingsFile := (← IO.getEnv "TREELOX_CONFIG").getD "" }

end Terminal

end Scriptlet

open Scriptlet in
def main (arguments : List String) : IO UInt32 := do
  let command : Terminal Command.Exit :=
    Command.run Terminal.unlimited Terminal.unlimited (← Terminal.environment) arguments
  let (exit, _) ← command.run []
  return exit.code
