import Scriptlet.FileSystem
import Scriptlet.Prompt.Line

/-!
What a command needs from its surroundings, and surroundings that are held in memory.
-/

namespace Scriptlet

/-- Files, the two output channels and the lines of the input. -/
class Host (m : Type → Type) where
  readFile : String → m (Except FileFault (List UInt8))
  isPresent : String → m Bool
  writeFile : String → List UInt8 → m (Except FileFault Unit)
  print : String → m Unit
  complain : String → m Unit
  /-- The next line of the input, `none` at its end. -/
  readLine : m (Option (List UInt8))

/-- The variables that a command looks at. -/
structure Environment where
  /-- The home directory, if it is known. -/
  home : Option String := none
  /-- The settings file that is asked for, empty if none is. -/
  settingsFile : String := ""
  deriving DecidableEq

/-- Surroundings held in memory. -/
structure Surroundings where
  files : FileSystem := {}
  input : List UInt8 := []
  output : String := ""
  complaints : String := ""

instance : Host (StateM Surroundings) where
  readFile path := return (← get).files.read path
  isPresent path := return (← get).files.contains path
  writeFile path content := do
    let w ← get
    match w.files.write path content with
    | .ok files =>
      set { w with files }
      return .ok ()
    | .error f => return .error f
  print text := modify fun w => { w with output := w.output ++ text }
  complain text := modify fun w => { w with complaints := w.complaints ++ text }
  readLine := do
    let w ← get
    match Line.first? w.input with
    | some (line, rest) =>
      set { w with input := rest }
      return some line
    | none => return none

end Scriptlet
