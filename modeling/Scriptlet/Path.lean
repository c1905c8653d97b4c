/-!
File paths as text. A clean path has no empty parts, no `.`, and `..` only at its start.
-/

namespace Scriptlet.Path

def isAbsolute (path : String) : Bool :=
  path.startsWith "/"

/-- The parts between slashes. -/
def parts (path : String) : List String :=
  path.splitOn "/"

/-- Puts a part after the clean parts before it, which stand in reverse. -/
def step (absolute : Bool) (before : List String) (part : String) : List String :=
  if part = "" || part = "." then before
  else if part = ".." then
    match before with
    | [] => if absolute then [] else [".."]
    | last :: rest => if last = ".." then ".." :: before else rest
  else part :: before

def clean (path : String) : String :=
  let kept := ((parts path).foldl (step (isAbsolute path)) []).reverse
  let joined := "/".intercalate kept
  if isAbsolute path then "/" ++ joined else if kept.isEmpty then "." else joined

/-- Two paths as one clean path; an empty one does not count. -/
def join (a b : String) : String :=
  if a = "" then if b = "" then "" else clean b
  else if b = "" then clean a
  else clean (a ++ "/" ++ b)

end Scriptlet.Path
