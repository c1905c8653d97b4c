import Scriptlet.Host
import Scriptlet.Log
import Scriptlet.Yaml.Node.Reader
import Scriptlet.Yaml.Shape

/-!
Settings are read from a YAML file over the defaults.
-/

namespace Scriptlet

structure Settings where
  prompt : String
  historyFile : String
  banner : Bool
  listTokens : Bool
  outlineProgram : Bool
  level : String
  deriving DecidableEq, Repr

/-- The character in lower case, as far as names of levels can tell. -/
def lowered (c : Char) : Char :=
  if c = 'İ' then 'i' else c.toLower

/-- The level of a name, in any case. -/
def LogLevel.ofName? (name : String) : Option LogLevel :=
  match String.ofList (name.toList.map lowered) with
  | "debug" => some .debug
  | "info" => some .info
  | "warn" => some .warn
  | "error" => some .error
  | _ => none

/-- Why settings cannot be used. -/
inductive SettingsError where
  /-- The file cannot be opened. -/
  | missing (fault : FileFault)
  /-- The file can be opened but not read. -/
  | unreadable (fault : FileFault)
  | malformed (path : String) (problem : Yaml.Problem)
  | misfitting (path : String) (misfits : List Yaml.Misfit)
  | unknownLevel (name : String)
  deriving DecidableEq

namespace SettingsError

def issue (level : String) : String :=
  "log.level: unknown level " ++ Text.quoted level

def message : SettingsError → String
  | .missing fault => "config: open " ++ fault.path ++ ": " ++ fault.message
  | .unreadable fault => "config: parse " ++ fault.path ++ ": yaml: input error: " ++ fault.message
  | .malformed path problem => "config: parse " ++ path ++ ": yaml: " ++ problem.message
  | .misfitting path misfits =>
    "config: parse " ++ path ++ ": yaml: unmarshal errors:" ++
      String.join (misfits.map fun m => "\n  " ++ m.message)
  | .unknownLevel level => "config validation failed:\n- " ++ issue level

end SettingsError

namespace Settings

def default : Settings :=
  { prompt := "> ", historyFile := "~/.treelox_history", banner := true, listTokens := false,
    outlineProgram := false, level := "warn" }

/-- What is left when a file cannot be used. -/
def blank : Settings :=
  { prompt := "", historyFile := "", banner := false, listTokens := false, outlineProgram := false,
    level := "" }

/-- The least severe level that is logged. -/
def threshold (s : Settings) : LogLevel :=
  (LogLevel.ofName? s.level).getD .warn

def shape : Yaml.Shape :=
  .record "config.Config"
    [("repl", .record "config.Repl" [("prompt", .text), ("history_file", .text), ("banner", .flag)]),
     ("debug", .record "config.Debug" [("tokens", .flag), ("ast", .flag)]),
     ("log", .record "config.Log" [("level", .text)])]

/-- Changes the setting that a path of fields leads to. -/
def update (s : Settings) : List String × Yaml.Setting → Settings
  | (["repl", "prompt"], .text prompt) => { s with prompt }
  | (["repl", "history_file"], .text historyFile) => { s with historyFile }
  | (["repl", "banner"], .flag banner) => { s with banner }
  | (["debug", "tokens"], .flag listTokens) => { s with listTokens }
  | (["debug", "ast"], .flag outlineProgram) => { s with outlineProgram }
  | (["log", "level"], .text level) => { s with level }
  | _ => s

/-- A leading `~` stands for the home directory, if that is known. -/
def expandHome (env : Environment) (path : String) : String :=
  match path.toList, env.home with
  | ['~'], some home => Path.join home ""
  | '~' :: '/' :: rest, some home => Path.join home (String.ofList ('/' :: rest))
  | _, _ => path

/-- Settings and, if they cannot be used, the reason. -/
structure Loaded where
  settings : Settings
  error : Option SettingsError := none
  deriving DecidableEq

def finish (env : Environment) (s : Settings) : Loaded :=
  if (LogLevel.ofName? s.level).isNone then ⟨s, some (.unknownLevel s.level)⟩
  else ⟨{ s with historyFile := expandHome env s.historyFile }, none⟩

/-- The settings of a file's content. -/
def ofContent (env : Environment) (path : String) (content : List UInt8) : Loaded :=
  match Yaml.Node.ofBytes? content with
  | .error problem => ⟨blank, some (.malformed path problem)⟩
  | .ok none => finish env default
  | .ok (some root) =>
    match shape.read root with
    | .error problem => ⟨blank, some (.malformed path problem)⟩
    | .ok findings =>
      if findings.misfits.isEmpty then finish env (findings.settings.foldl update default)
      else ⟨blank, some (.misfitting path findings.misfits.toList)⟩

/-- Loads the file at a path; an empty path stands for the defaults. -/
def load {m : Type → Type} [Monad m] [Host m] (env : Environment) (path : String) : m Loaded := do
  if path = "" then return finish env default
  match ← Host.readFile path with
  | .ok content => return ofContent env path content
  | .error fault =>
    match fault.action with
    | .opening => return ⟨blank, some (.missing fault)⟩
    | .reading => return ⟨blank, some (.unreadable fault)⟩

/-- The name of the settings file in the home directory. -/
def fileName : String := ".treelox.yml"

/-- The settings file: the one asked for, else the one in the home directory if it is there. -/
def locate {m : Type → Type} [Monad m] [Host m] (env : Environment) : m String := do
  if env.settingsFile ≠ "" then return env.settingsFile
  match env.home with
  | none => return ""
  | some home =>
    let path := Path.join home fileName
    if ← Host.isPresent path then return path else return ""

end Settings

end Scriptlet
