import Scriptlet.Text.Quoted

/-!
Flags of a command line. They come before all other arguments, begin with one dash or two, and
take their value after `=` or, unless they are switches, from the next argument. Two dashes alone
end them.
-/

namespace Scriptlet

inductive FlagKind where
  | switch | text
  deriving DecidableEq, Repr

inductive FlagValue where
  | switch (on : Bool)
  | text (s : String)
  deriving DecidableEq, Repr

inductive FlagError where
  | badForm (argument : String)
  | undefined (name : String)
  | badSwitch (value name : String)
  | missingValue (name : String)
  | helpAsked
  deriving DecidableEq, Repr

def FlagError.message : FlagError → String
  | .badForm argument => "bad flag syntax: " ++ argument
  | .undefined name => "flag provided but not defined: -" ++ name
  | .badSwitch value name =>
    "invalid boolean value " ++ Text.quoted value ++ " for -" ++ name ++ ": parse error"
  | .missingValue name => "flag needs an argument: -" ++ name
  | .helpAsked => "flag: help requested"

/-- The flags given, the first one first, and the arguments after them. -/
structure Flags where
  given : List (String × FlagValue) := []
  rest : List String := []
  deriving DecidableEq, Repr

namespace Flags

/-- An argument as seen before the kinds of flags are known. -/
inductive Form where
  | terminator
  | operand
  | malformed
  | flag (name : List Char) (value : Option (List Char))
  deriving DecidableEq

/-- Splits a name from its value. The name is not empty, so its first character is no divider. -/
def splitValue : List Char → List Char × Option (List Char)
  | [] => ([], none)
  | c :: rest =>
    let name := rest.takeWhile (· != '=')
    if name.length < rest.length then (c :: name, some (rest.drop (name.length + 1)))
    else (c :: name, none)

/-- The form of a flag, given what follows its dashes. -/
def flagForm (body : List Char) : Form :=
  if body.isEmpty || body.head? = some '-' || body.head? = some '=' then .malformed
  else
    let (name, value) := splitValue body
    .flag name value

def form (argument : String) : Form :=
  match argument.toList with
  | ['-', '-'] => .terminator
  | '-' :: '-' :: body => flagForm body
  | ['-'] => .operand
  | '-' :: body => flagForm body
  | _ => .operand

def switch? : String → Option Bool
  | "1" | "t" | "T" | "TRUE" | "true" | "True" => some true
  | "0" | "f" | "F" | "FALSE" | "false" | "False" => some false
  | _ => none

def parseFrom (kinds : List (String × FlagKind)) (given : List (String × FlagValue)) :
    List String → Except FlagError Flags
  | [] => .ok ⟨given, []⟩
  | argument :: rest =>
    match form argument with
    | .operand => .ok ⟨given, argument :: rest⟩
    | .terminator => .ok ⟨given, rest⟩
    | .malformed => .error (.badForm argument)
    | .flag name value =>
      let name := String.ofList name
      match kinds.lookup name, value.map String.ofList with
      | none, _ => .error (if name = "help" || name = "h" then .helpAsked else .undefined name)
      | some .switch, none => parseFrom kinds (given ++ [(name, .switch true)]) rest
      | some .switch, some value =>
        match switch? value with
        | some on => parseFrom kinds (given ++ [(name, .switch on)]) rest
        | none => .error (.badSwitch value name)
      | some .text, some value => parseFrom kinds (given ++ [(name, .text value)]) rest
      | some .text, none =>
        match rest with
        | value :: rest => parseFrom kinds (given ++ [(name, .text value)]) rest
        | [] => .error (.missingValue name)

/-- Reads the flags of the given kinds. -/
def parse (kinds : List (String × FlagKind)) (arguments : List String) : Except FlagError Flags :=
  parseFrom kinds [] arguments

/-- The value that a flag was given last. -/
def value? (f : Flags) (name : String) : Option FlagValue :=
  f.given.reverse.lookup name

/-- A switch as given, or as set otherwise. -/
def switchOr (f : Flags) (name : String) (otherwise : Bool) : Bool :=
  match f.value? name with
  | some (.switch on) => on
  | _ => otherwise

def textOr (f : Flags) (name : String) (otherwise : String) : String :=
  match f.value? name with
  | some (.text s) => s
  | _ => otherwise

end Flags

end Scriptlet
