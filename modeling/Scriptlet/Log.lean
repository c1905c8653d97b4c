import Scriptlet.Evaluation.Execution
import Scriptlet.Text.Quoted

/-!
Log records and their two written forms: a plain one, and a line of `key=value` pairs in which a
value is quoted where it could be misread.
-/

namespace Scriptlet

inductive LogLevel where
  | debug | info | warn | error
  deriving DecidableEq, Repr

namespace LogLevel

def name : LogLevel → String
  | .debug => "DEBUG"
  | .info => "INFO"
  | .warn => "WARN"
  | .error => "ERROR"

/-- More severe levels have greater numbers. -/
def severity : LogLevel → Int
  | .debug => -4
  | .info => 0
  | .warn => 4
  | .error => 8

end LogLevel

structure LogRecord where
  level : LogLevel
  message : String
  fields : List (String × String) := []
  deriving DecidableEq

namespace LogRecord

def plain (r : LogRecord) : String :=
  r.level.name ++ " " ++ r.message ++
    String.join (r.fields.map fun (key, value) => " " ++ key ++ "=" ++ value)

/-- Characters that make a value need quotes: blanks, what cannot be printed, and the characters
that the form itself uses. -/
def callsForQuotes (c : Char) : Bool :=
  if c.toNat < 0x80 then c.toNat ≤ 0x20 || c = '"' || c = '='
  else c = '\ufffd' || Text.isBlank c || !Text.isPrintable c

def field (value : String) : String :=
  if value = "" || value.toList.any callsForQuotes then Text.quoted value else value

/-- The record as a line without its time. -/
def line (r : LogRecord) : String :=
  "level=" ++ r.level.name ++ " msg=" ++ field r.message ++
    String.join (r.fields.map fun (key, value) => " " ++ field key ++ "=" ++ field value) ++ "\n"

/-- Whether a log that starts at `threshold` keeps the record. -/
def isKept (threshold : LogLevel) (r : LogRecord) : Bool :=
  threshold.severity ≤ r.level.severity

end LogRecord

def Trace.record : Trace → LogRecord
  | .enterBlock depth size =>
    ⟨.debug, "enter block", [("depth", toString depth), ("stmts", toString size)]⟩
  | .leaveBlock depth => ⟨.debug, "leave block on error", [("depth", toString depth)]⟩

end Scriptlet
