import FormLang.Text.Bytes
import FormLang.Text.Pieces
import FormLang.Text.Replace

/-!
# Paths

A path is a text whose names are separated by slashes. It starts at the root if it begins with a slash. A single dot names
the folder itself, and two dots the one above.
-/

namespace FormLang.Path

def isRooted (path : String) : Bool :=
  Text.startsWith "/" path

/-- The names of a path; empty ones do not count. -/
def names (path : String) : List String :=
  Text.cut (fun c => if c = '/' then .gap else .part) path

/-! ## Limits -/

def hasNull (path : String) : Bool :=
  path.toList.any fun c => c.toNat = 0

/-- A path has fewer bytes than this. -/
def maxSize : Nat := 4096

/-- Whether a path can be followed at all. -/
def isUsable (path : String) : Bool :=
  Text.size path < maxSize && !hasNull path

/-- Whether a name can stand in a folder. -/
def isUsableName (name : String) : Bool :=
  Text.size name ≤ 255 && !hasNull name

/-! ## Cleaning -/

/-- Adds a name to names already cleaned (newest first): a dot is dropped, and two dots take a name back. At the root there
is nothing to take back; a path that is not rooted keeps the dots. -/
def cleanStep (rooted : Bool) (done : List String) (name : String) : List String :=
  if name = "." then done
  else if name = ".." then
    match done with
    | [] => if rooted then [] else [".."]
    | last :: rest => if last = ".." then ".." :: done else rest
  else name :: done

def cleanNames (path : String) : List String :=
  ((names path).foldl (cleanStep (isRooted path)) []).reverse

/-- The shortest path to the same place, taking two dots as the undoing of a name. -/
def clean (path : String) : String :=
  if isRooted path then "/" ++ "/".intercalate (cleanNames path)
  else
    match cleanNames path with
    | [] => "."
    | ns => "/".intercalate ns

/-- A path followed by further names. -/
def join (base rest : String) : String :=
  clean (base ++ "/" ++ rest)

/-- The path of the folder that holds a path. -/
def parent (path : String) : String :=
  match names path with
  | [] => clean path
  | ns =>
    if Text.endsWith "/" path then clean path
    else clean ((if isRooted path then "/" else "") ++ "/".intercalate ns.dropLast)

/-- The path, or the nearest folder above that can be followed, at most `steps` up. -/
def usablePart (path : String) : (steps : Nat) → String
  | 0 => path
  | n + 1 => if Text.size path < maxSize then path else usablePart (parent path) n

end FormLang.Path
