import FormLang.Diagnostic
import FormLang.Disk.Basic
import FormLang.Expr.Reader
import FormLang.Json.Decode
import FormLang.Json.Reader

/-!
# Settings

The settings of the command line come from a file of the project, else from one of the user, else they are the defaults. A
file need not give every setting. A file that exists and cannot be used is an error.
-/

namespace FormLang

structure Settings where
  maxDepth : Int
  /-- The path of the history file; empty for none. -/
  history : String
  prompt : String
  pretty : Bool
  deriving DecidableEq, Repr

inductive SettingsError where
  | unreadable (path : String) (e : FileError)
  | malformed (path : String)
  | negativeDepth (path : String) (depth : Int)
  deriving DecidableEq, Repr

namespace SettingsError

def path : SettingsError → String
  | .unreadable path _ | .malformed path | .negativeDepth path _ => path

def message : SettingsError → String
  | .unreadable path e => path ++ ": " ++ e.message path
  | .malformed path => path ++ ": not a settings record"
  | .negativeDepth path depth => path ++ ": maxDepth must not be negative, got " ++ Decimal.ofInt depth

def diagnostic (e : SettingsError) : Diagnostic :=
  .plain .settings e.message

end SettingsError

namespace Settings

/-- The settings of a user with the given home folder, if there is one. -/
def defaults (home : Option String) : Settings where
  maxDepth := defaultLimit
  history :=
    match home with
    | some h => Path.join h ".pylisp/history"
    | none => ""
  prompt := "pylisp> "
  pretty := false

/-- Sets the field of a key. -/
def set? (s : Settings) (key : String) (j : Json) : Option Settings :=
  if Json.isKey "maxDepth" key then (j.int? s.maxDepth).map fun n => { s with maxDepth := n }
  else if Json.isKey "history" key then (j.str? s.history).map fun t => { s with history := t }
  else if Json.isKey "prompt" key then (j.str? s.prompt).map fun t => { s with prompt := t }
  else if Json.isKey "pretty" key then (j.bool? s.pretty).map fun b => { s with pretty := b }
  else some s

/-- The settings that a file gives, over those it leaves out. A depth of zero stands for the default. -/
def ofText (base : Settings) (path text : String) : Except SettingsError Settings :=
  match (Json.parse? text).bind (Json.record? set? base) with
  | none => .error (.malformed path)
  | some s =>
    if s.maxDepth < 0 then .error (.negativeDepth path s.maxDepth)
    else if s.maxDepth = 0 then .ok { s with maxDepth := defaultLimit }
    else .ok s

/-- Where settings are looked for, in this order. -/
def paths (directory : String) (home : Option String) : List String :=
  Path.join directory ".pylisp.json" ::
    match home with
    | some h => [Path.join h ".pylisp/config.json"]
    | none => []

/-- The settings of the first file that exists, with its path. -/
def firstOf (d : Disk) (base : Settings) : List String → Except SettingsError (Settings × Option String)
  | [] => .ok (base, none)
  | path :: rest =>
    match d.read [] path with
    | .error .missing => firstOf d base rest
    | .error e => .error (.unreadable path e)
    | .ok text =>
      match ofText base path text with
      | .ok s => .ok (s, some path)
      | .error e => .error e

/-- The settings for a folder, and the file that they come from if any. -/
def load (d : Disk) (directory : String) (home : Option String) : Except SettingsError (Settings × Option String) :=
  firstOf d (defaults home) (paths directory home)

/-- The settings as indented JSON. Empty texts and a false flag are left out. -/
def toText (s : Settings) : String :=
  Json.fieldLines <|
    [("maxDepth", .num (Decimal.ofInt s.maxDepth))]
      ++ (if s.history = "" then [] else [("history", .str s.history)])
      ++ (if s.prompt = "" then [] else [("prompt", .str s.prompt)])
      ++ (if s.pretty then [("pretty", .bool true)] else [])

end Settings

end FormLang
