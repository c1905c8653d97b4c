import Scriptlet.Evaluation.Execution
import Scriptlet.Program.Outline
import Scriptlet.Program.Statement
import Scriptlet.Source.Scan

/-!
Sessions: source texts run one after another over the same global variables. A text with lexical or
syntax errors is not run, nor is any later one until the session is reset.
-/

namespace Scriptlet

inductive Outcome where
  | ok
  | syntaxError
  | runtimeError
  deriving DecidableEq, Repr

namespace Outcome

def name : Outcome → String
  | .ok => "ok"
  | .syntaxError => "syntax error"
  | .runtimeError => "runtime error"

/-- The outcomes numbered from zero. -/
def ofCode? (code : UInt8) : Option Outcome :=
  [ok, syntaxError, runtimeError][code.toNat]?

end Outcome

/-- What a session tells about an error. -/
inductive Report where
  | located (line : Int) (location message : String)
  | runtime (e : RuntimeError)
  deriving DecidableEq

namespace Report

def ofLexical (e : LexicalError) : Report :=
  .located e.line "" e.fault.message

def ofSyntax (e : SyntaxError) : Report :=
  .located e.token.line e.location e.message

def ofDefect (d : Defect) : Report :=
  .located 0 "" d.message

/-- The report as lines of text. -/
def text : Report → String
  | .located line location message =>
    "[line " ++ toString line ++ "] Error" ++ location ++ ": " ++ message ++ "\n"
  | .runtime e => e.describe ++ "\n"

end Report

structure SessionOptions where
  listTokens : Bool := false
  outlineProgram : Bool := false
  deriving DecidableEq

structure Session where
  options : SessionOptions := {}
  scopes : Scopes := {}
  hadError : Bool := false
  hadRuntimeError : Bool := false
  deriving DecidableEq

/-- How a run ended: with an outcome, or without one. -/
inductive Ending where
  | outcome (o : Outcome)
  | crashed
  | exhausted
  deriving DecidableEq

/-- What a run shows. Listings come before all that the program prints, reports of lexical and
syntax errors before the traces of its blocks, the report of a runtime error after them. -/
structure Transcript where
  ending : Ending
  listing : String := ""
  staticReports : List Report := []
  output : Array String := #[]
  log : Array Trace := #[]
  failure : Option Report := none

namespace Transcript

def reports (t : Transcript) : List Report :=
  t.staticReports ++ t.failure.toList

/-- The printed lines as text. -/
def printed (t : Transcript) : String :=
  t.output.foldl (fun text line => text ++ line ++ "\n") ""

end Transcript

def tokenListing (tokens : List Token) : String :=
  "Tokens scanned:\n" ++ String.join (tokens.map fun t => "  " ++ t.listing ++ "\n")

def outlineListing (program : List Stmt) : String :=
  "AST parsed:\n" ++ outline program

namespace Session

/-- Forgets earlier errors and keeps the variables. -/
def reset (s : Session) : Session :=
  { s with hadError := false, hadRuntimeError := false }

def define (s : Session) (name : String) (value : Value) : Session :=
  { s with scopes := s.scopes.define name value }

def get (s : Session) (name : Token) : Except Fault Value :=
  lookUp name s.scopes

/-- Errors that keep a source text from being run, in the order in which they are reported. -/
def staticReports (scanned : Scan) (read : Reading) : List Report :=
  scanned.errors.map Report.ofLexical ++ read.errors.map Report.ofSyntax

/-- Runs a program that has no static errors. -/
def execute (budget : Nat) (s : Session) (listing : String) (program : List Stmt) :
    Transcript × Session :=
  let (result, m) := executeAll budget program { scopes := s.scopes }
  let shown : Transcript :=
    { ending := .outcome .ok, listing, output := m.output, log := m.log }
  let s := { s with scopes := m.scopes }
  match result with
  | .ok () => (shown, s)
  | .error (.error e) =>
    ({ shown with ending := .outcome .runtimeError, failure := some (.runtime e) },
      { s with hadRuntimeError := true })
  | .error (.defect d) =>
    ({ shown with ending := .outcome .runtimeError, failure := some (.ofDefect d) },
      { s with hadRuntimeError := true })
  | .error .crash => ({ shown with ending := .crashed }, s)
  | .error .exhausted => ({ shown with ending := .exhausted }, s)

/-- Scans, parses and executes a source text. -/
def run (budget : Nat) (s : Session) (source : List Char) : Transcript × Session :=
  let scanned := scan source
  let read := parse scanned.tokens
  let reports := staticReports scanned read
  let listing := if s.options.listTokens then tokenListing scanned.tokens else ""
  if s.hadError || !reports.isEmpty then
    ({ ending := .outcome .syntaxError, listing, staticReports := reports },
      { s with hadError := true })
  else
    s.execute budget
      (listing ++ if s.options.outlineProgram then outlineListing read.program else "")
      read.program

end Session

end Scriptlet
