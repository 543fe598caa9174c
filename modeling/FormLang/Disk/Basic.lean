import FormLang.Disk.Path
import FormLang.Text.Sort

/-!
# Disks

A tree of folders with texts in it, as the places of its files and of folders that were made for themselves. A folder
exists if it was made or if something lies in it. Devices take what is written to them and keep nothing.
-/

namespace FormLang

/-- A place in the tree: the names on the way down from the root. -/
abbrev Place := List String

inductive FileError where
  | missing
  /-- A name on the way is that of a file. -/
  | notFolder
  | isFolder
  /-- The path or a name in it is longer than allowed, or has a null character. -/
  | unusable
  deriving DecidableEq, Repr

/-- The failure of reading a path, as the system words it. -/
def FileError.message (e : FileError) (path : String) : String :=
  match e with
  | .missing => "open " ++ path ++ ": no such file or directory"
  | .notFolder => "open " ++ path ++ ": not a directory"
  | .isFolder => "read " ++ path ++ ": is a directory"
  | .unusable => "open " ++ path ++ (if Path.hasNull path then ": invalid argument" else ": file name too long")

/-- The device that reads as the empty text. -/
def nullDevice : Place :=
  ["dev", "null"]

/-- The device that reads as the input of the program. -/
def inputDevice : Place :=
  ["dev", "stdin"]

def isDevice (p : Place) : Bool :=
  p = nullDevice || p = inputDevice || p = ["dev", "stdout"] || p = ["dev", "stderr"]

structure Disk where
  files : List (Place × String)
  folders : List Place
  deriving DecidableEq, Repr

namespace Disk

def empty : Disk :=
  ⟨[], []⟩

def file? (d : Disk) (p : Place) : Option String :=
  d.files.lookup p

def isFolder (d : Disk) (p : Place) : Bool :=
  p.isEmpty || d.folders.any p.isPrefixOf || d.files.any fun f => p.isPrefixOf f.1.dropLast

/-- The disk with a text at a place. -/
def put (d : Disk) (p : Place) (text : String) : Disk :=
  { d with files := (p, text) :: d.files.filter (·.1 ≠ p) }

/-- Whether some file lies on the way to a place or at it. -/
def isBlocked (d : Disk) (p : Place) : Bool :=
  d.files.any fun f => f.1.isPrefixOf p

/-- The disk with a folder, and those above it, made. Nothing is made beyond a file or a name that cannot be used. -/
def makeFolder (d : Disk) (p : Place) : Disk :=
  let p := p.takeWhile Path.isUsableName
  if d.isBlocked p then d else { d with folders := p :: d.folders }

/-! ## Following paths -/

/-- Follows names from a folder. All but the last have to lead to folders. -/
def walk (d : Disk) (here : Place) : List String → Except FileError Place
  | [] => .ok here
  | name :: rest =>
    let next := if name = "." then here else if name = ".." then here.dropLast else here ++ [name]
    if !Path.isUsableName name then .error .unusable
    else if rest.isEmpty then .ok next
    else if d.isFolder next then d.walk next rest
    else if (d.file? next).isSome then .error .notFolder
    else .error .missing

/-- The place that a path leads to from a folder. What lies at it need not exist. A final slash asks for a folder. -/
def resolve (d : Disk) (here : Place) (path : String) : Except FileError Place :=
  if path = "" then .error .missing
  else if !Path.isUsable path then .error .unusable
  else
    d.walk (if Path.isRooted path then [] else here)
      (Path.names path ++ if Text.endsWith "/" path then ["."] else [])

def read (d : Disk) (here : Place) (path : String) : Except FileError String :=
  match d.resolve here path with
  | .error e => .error e
  | .ok p =>
    if d.isFolder p then .error .isFolder
    else
      match d.file? p with
      | some text => .ok text
      | none => if p = nullDevice then .ok "" else .error .missing

/-- Whether a path leads to anything. -/
def holds (d : Disk) (here : Place) (path : String) : Bool :=
  match d.resolve here path with
  | .error _ => false
  | .ok p => d.isFolder p || (d.file? p).isSome

/-- Writes a text, unless a folder is missing on the way or a folder lies there. -/
def write? (d : Disk) (here : Place) (path text : String) : Option Disk :=
  match d.resolve here path with
  | .error _ => none
  | .ok p => if d.isFolder p then none else if isDevice p then some d else some (d.put p text)

/-- The names in a folder in ascending order, each once. -/
def entries (d : Disk) (p : Place) : List String :=
  let below (q : Place) : Option String := if p.isPrefixOf q then q[p.length]? else none
  Text.sort ((d.files.filterMap fun f => below f.1) ++ d.folders.filterMap below).eraseDups

/-- The names of the folders in a folder, or nothing if there is no such folder. -/
def subfolders? (d : Disk) (here : Place) (path : String) : Option (List String) :=
  match d.resolve here path with
  | .error _ => none
  | .ok p => if d.isFolder p then some ((d.entries p).filter fun name => d.isFolder (p ++ [name])) else none

end Disk

end FormLang
