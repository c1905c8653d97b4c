import Scriptlet.Path

/-!
A file system held in memory. Paths are followed part by part from the root or from the working
directory.
-/

namespace Scriptlet

inductive FileError where
  | notFound
  | notDirectory
  | isDirectory
  | invalidArgument
  | nameTooLong
  | other (message : String)
  deriving DecidableEq, Repr

def FileError.message : FileError → String
  | .notFound => "no such file or directory"
  | .notDirectory => "not a directory"
  | .isDirectory => "is a directory"
  | .invalidArgument => "invalid argument"
  | .nameTooLong => "file name too long"
  | .other message => message

/-- What was to be done with a file when an error came up. -/
inductive FileAction where
  | opening | reading
  deriving DecidableEq, Repr

def FileAction.name : FileAction → String
  | .opening => "open"
  | .reading => "read"

structure FileFault where
  action : FileAction
  path : String
  error : FileError
  deriving DecidableEq, Repr

def FileFault.message (f : FileFault) : String :=
  f.action.name ++ " " ++ f.path ++ ": " ++ f.error.message

inductive FileEntry where
  | file (content : List UInt8)
  | directory
  deriving DecidableEq

/-- Entries by the parts of their path from the root. -/
structure FileSystem where
  entries : List (List String × FileEntry) := []
  workingDirectory : List String := []

namespace FileSystem

def entry? (fs : FileSystem) (place : List String) : Option FileEntry :=
  if place = [] then some .directory else fs.entries.lookup place

/-- Greatest number of bytes in a part of a path. -/
def maximalName : Nat := 255

/-- Greatest number of bytes in a path. -/
def maximalPath : Nat := 4095

/-- Follows the parts of a path from a place that must be a directory if any are left. -/
def follow (fs : FileSystem) (place : List String) : List String → Except FileError (List String)
  | [] => .ok place
  | part :: rest =>
    match fs.entry? place with
    | none => .error .notFound
    | some (.file _) => .error .notDirectory
    | some .directory =>
      if part = "" || part = "." then follow fs place rest
      else if part = ".." then follow fs place.dropLast rest
      else if maximalName < part.utf8ByteSize then .error .nameTooLong
      else follow fs (place ++ [part]) rest

/-- The place that a path leads to, where there need not be an entry. -/
def place (fs : FileSystem) (path : String) : Except FileError (List String) :=
  if path.toList.contains '\x00' then .error .invalidArgument
  else if maximalPath < path.utf8ByteSize then .error .nameTooLong
  else if path = "" then .error .notFound
  else fs.follow (if Path.isAbsolute path then [] else fs.workingDirectory) (Path.parts path)

def find (fs : FileSystem) (path : String) : Except FileError FileEntry := do
  match fs.entry? (← fs.place path) with
  | some e => .ok e
  | none => .error .notFound

def contains (fs : FileSystem) (path : String) : Bool :=
  (fs.find path).toBool

/-- The content of a file. A directory can be opened but not read. -/
def read (fs : FileSystem) (path : String) : Except FileFault (List UInt8) :=
  match fs.find path with
  | .ok (.file content) => .ok content
  | .ok .directory => .error ⟨.reading, path, .isDirectory⟩
  | .error e => .error ⟨.opening, path, e⟩

def put (fs : FileSystem) (place : List String) (e : FileEntry) : FileSystem :=
  { fs with entries := (place, e) :: fs.entries.filter fun (other, _) => other ≠ place }

/-- The place at which a path would create a file. A path that ends with a slash names a
directory, whether there is one or not. -/
def newPlace (fs : FileSystem) (path : String) : Except FileError (List String) :=
  let trimmed := (path.dropEndWhile '/').toString
  if path.endsWith "/" && trimmed = "" then .error .isDirectory
  else do
    let place ← fs.place trimmed
    if path.endsWith "/" || fs.entry? place = some .directory then .error .isDirectory
    else return place

/-- Creates a file or replaces its content. -/
def write (fs : FileSystem) (path : String) (content : List UInt8) : Except FileFault FileSystem :=
  match fs.newPlace path with
  | .ok place => .ok (fs.put place (.file content))
  | .error e => .error ⟨.opening, path, e⟩

/-- Puts an entry at a path, with the directories that lead to it. -/
def add (fs : FileSystem) (path : String) (e : FileEntry) : FileSystem :=
  let start := if Path.isAbsolute path then [] else fs.workingDirectory
  let kept := (Path.parts (Path.clean path)).filter fun part => part ≠ "" && part ≠ "."
  let place := kept.foldl (fun place part => if part = ".." then place.dropLast else place ++ [part]) start
  let parents := ((List.range place.length).drop 1).map fun n => place.take n
  let fs := parents.foldl (fun fs p => if (fs.entry? p).isSome then fs else fs.put p .directory) fs
  fs.put place e

end FileSystem

end Scriptlet
