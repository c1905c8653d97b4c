import Scriptlet.Value

/-!
Scopes: a stack of frames above the global one. A name is looked up in the innermost frame that
binds it; a declaration always binds in the innermost frame.
-/

namespace Scriptlet

/-- The bindings of one scope, each name at most once. -/
structure Frame where
  bindings : List (String × Value) := []
  deriving DecidableEq, Inhabited

namespace Frame

def find? (name : String) : List (String × Value) → Option Value
  | [] => none
  | (n, v) :: rest => if n = name then some v else find? name rest

def put (name : String) (value : Value) : List (String × Value) → List (String × Value)
  | [] => [(name, value)]
  | (n, v) :: rest => if n = name then (n, value) :: rest else (n, v) :: put name value rest

def get? (f : Frame) (name : String) : Option Value :=
  find? name f.bindings

def binds (f : Frame) (name : String) : Bool :=
  (f.get? name).isSome

/-- Binds a name, in place of an earlier binding if there is one. -/
def set (f : Frame) (name : String) (value : Value) : Frame :=
  ⟨put name value f.bindings⟩

end Frame

structure Scopes where
  /-- The frames above the global one, the innermost first. -/
  locals : List Frame := []
  globals : Frame := {}
  deriving DecidableEq, Inhabited

namespace Scopes

/-- The number of frames above the global one. -/
def depth (σ : Scopes) : Nat :=
  σ.locals.length

/-- Binds a name in the innermost frame. -/
def define (σ : Scopes) (name : String) (value : Value) : Scopes :=
  match σ.locals with
  | [] => { σ with globals := σ.globals.set name value }
  | f :: rest => { σ with locals := f.set name value :: rest }

/-- The innermost binding of a name in a stack of frames. -/
def findIn (name : String) : List Frame → Option Value
  | [] => none
  | f :: rest =>
    match f.get? name with
    | some v => some v
    | none => findIn name rest

def get? (σ : Scopes) (name : String) : Option Value :=
  match findIn name σ.locals with
  | some v => some v
  | none => σ.globals.get? name

/-- Changes the innermost binding of a name in a stack of frames. -/
def assignIn (name : String) (value : Value) : List Frame → Option (List Frame)
  | [] => none
  | f :: rest =>
    if f.binds name then some (f.set name value :: rest)
    else (assignIn name value rest).map (f :: ·)

/-- Changes the innermost binding of a name, if there is one. -/
def assign? (σ : Scopes) (name : String) (value : Value) : Option Scopes :=
  match assignIn name value σ.locals with
  | some locals => some { σ with locals }
  | none =>
    if σ.globals.binds name then some { σ with globals := σ.globals.set name value } else none

/-- Opens a scope without bindings. -/
def enter (σ : Scopes) : Scopes :=
  { σ with locals := {} :: σ.locals }

/-- Drops the innermost scope. The global one cannot be dropped. -/
def leave? (σ : Scopes) : Option Scopes :=
  match σ.locals with
  | [] => none
  | _ :: rest => some { σ with locals := rest }

end Scopes

end Scriptlet
