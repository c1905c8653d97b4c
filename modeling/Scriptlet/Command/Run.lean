import Scriptlet.Command.Flags
import Scriptlet.Prompt.History
import Scriptlet.Session
import Scriptlet.Settings

/-!
The command: it runs a source file, or reads lines at a prompt and runs them one by one.
-/

namespace Scriptlet.Command

/-- How the command ends. -/
inductive Exit where
  | success
  | badFlag
  | usage
  | badSource
  | noSource
  | failed
  deriving DecidableEq, Repr

def Exit.code : Exit → UInt32
  | .success => 0
  | .badFlag => 2
  | .usage => 64
  | .badSource => 65
  | .noSource => 66
  | .failed => 70

/-- The switches that choose what is shown before a program runs. -/
def listingFlags : List (String × FlagKind) :=
  [("tokens", .switch), ("ast", .switch)]

def flags : List (String × FlagKind) :=
  ("config", .text) :: listingFlags

def usage : String :=
  "usage: treelox [-config FILE] [-tokens] [-ast] [SOURCE_FILE_PATH]\n" ++
  "  -ast\n    \tprint the parsed tree before execution\n" ++
  "  -config string\n    \tYAML config file (default $TREELOX_CONFIG or ~/.treelox.yml)\n" ++
  "  -tokens\n    \tprint the scanned tokens before parsing\n"

def banner : String :=
  "treelox REPL. Ctrl+C cancels input, Ctrl+D exits.\n"

/-- What sessions show; a switch on the command line wins over the settings. -/
def sessionOptions (f : Flags) (s : Settings) : SessionOptions :=
  ⟨f.switchOr "tokens" s.listTokens, f.switchOr "ast" s.outlineProgram⟩

/-- A prompt is a line of visible characters and spaces. -/
def isPrompt (prompt : String) : Bool :=
  prompt.toList.all fun c => Text.isPrintable c || Text.isSeparator c

variable {m : Type → Type} [Monad m] [Host m]

/-- Writes a record if the settings ask for it. -/
def log (s : Settings) (r : LogRecord) : m Unit := do
  if r.isKept s.threshold then Host.complain r.line

/-- Shows what a run has to show. -/
def showTranscript (s : Settings) (t : Transcript) : m Unit := do
  Host.print (t.listing ++ t.printed)
  t.staticReports.forM fun r => Host.complain r.text
  t.log.forM fun trace => log s trace.record
  t.failure.toList.forM fun r => Host.complain r.text

def runFile (budget : Nat) (s : Settings) (options : SessionOptions) (path : String) : m Exit := do
  match ← Host.readFile path with
  | .error fault =>
    Host.complain ("treelox: " ++ fault.message ++ "\n")
    return .noSource
  | .ok content =>
    let (t, _) := ({ options } : Session).run budget (Text.decode content)
    showTranscript s t
    match t.ending with
    | .outcome .syntaxError => return .badSource
    | .outcome .runtimeError => return .failed
    | _ => return .success

/-- Runs a line and gets ready for the next. -/
def runLine (budget : Nat) (s : Settings) (session : Session) (line : List UInt8) : m Session := do
  let (t, session) := session.run budget (Text.decode line)
  showTranscript s t
  if let .outcome o := t.ending then
    log s ⟨.debug, "line evaluated", [("outcome", o.name)]⟩
  return session.reset

/-- Reads lines and runs them, at most as many as there are rounds. Empty lines are passed over. -/
def converse (budget : Nat) (s : Settings) : Nat → Session → History → m History
  | 0, _, history => return history
  | rounds + 1, session, history => do
    if !isPrompt s.prompt then
      log s ⟨.error, "reading input", [("err", "invalid prompt")]⟩
      Host.print "\n"
      return history
    Host.print s.prompt
    match ← Host.readLine with
    | none =>
      Host.print "\n"
      return history
    | some [] => converse budget s rounds session history
    | some line =>
      let session ← runLine budget s session line
      converse budget s rounds session (history.add line)

/-- The lines of earlier conversations, none if their file cannot be read. -/
def readHistory (s : Settings) : m History := do
  if s.historyFile = "" then return {}
  match ← Host.readFile s.historyFile with
  | .ok content => return .ofBytes content
  | .error _ => return {}

def writeHistory (s : Settings) (history : History) : m Unit := do
  if s.historyFile ≠ "" then
    if let .error fault ← Host.writeFile s.historyFile history.toBytes then
      log s ⟨.warn, "cannot save history", [("path", s.historyFile), ("err", fault.message)]⟩

def runPrompt (budget rounds : Nat) (s : Settings) (options : SessionOptions) : m Exit := do
  if s.banner then Host.print banner
  let history ← readHistory s
  let history ← converse budget s rounds { options } history
  writeHistory s history
  return .success

/-- Runs the command. Loops of a program may go `budget` rounds, the conversation `rounds`. -/
def run (budget rounds : Nat) (env : Environment) (arguments : List String) : m Exit := do
  match Flags.parse flags arguments with
  | .error .helpAsked =>
    Host.complain usage
    return .success
  | .error e =>
    Host.complain (e.message ++ "\n" ++ usage)
    return .badFlag
  | .ok f =>
    if 1 < f.rest.length then
      Host.complain usage
      return .usage
    let given := f.textOr "config" ""
    let path ← if given = "" then Settings.locate env else pure given
    let loaded ← Settings.load env path
    match loaded.error with
    | some e =>
      Host.complain ("treelox: " ++ e.message ++ "\n")
      return .usage
    | none =>
      let s := loaded.settings
      let options := sessionOptions f s
      match f.rest with
      | [source] => runFile budget s options source
      | _ => runPrompt budget rounds s options

end Scriptlet.Command
