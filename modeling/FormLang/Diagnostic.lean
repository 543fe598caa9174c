import FormLang.Code
import FormLang.Decimal.Integer
import FormLang.Json.Basic

/-!
# Diagnostics

A failure as it is shown: code, message, the place of the statement if known, and a hint. It is written as JSON or as
text over several lines.
-/

namespace FormLang

/-- The file and the line on which a statement begins. -/
structure Location where
  file : String
  line : Int
  deriving DecidableEq, Repr

structure Diagnostic where
  code : Code
  message : String
  location : Option Location
  /-- Advice, or the empty text. -/
  hint : String
  deriving DecidableEq, Repr

namespace Diagnostic

/-- A diagnostic with code and message only. -/
def plain (code : Code) (message : String) : Diagnostic :=
  ⟨code, message, none, ""⟩

/-- The diagnostic placed at a line of a file. -/
def locate (d : Diagnostic) (file : String) (line : Int) : Diagnostic :=
  { d with location := some ⟨file, line⟩ }

def toJson (d : Diagnostic) : Json :=
  let location :=
    match d.location with
    | some l => [("loc", Json.obj [("file", .str l.file), ("line", .num (Decimal.ofInt l.line))])]
    | none => []
  let hint := if d.hint = "" then [] else [("hint", Json.str d.hint)]
  .obj ([("code", .str d.code.text), ("message", .str d.message)] ++ location ++ hint)

def toText (d : Diagnostic) : String :=
  let location :=
    match d.location with
    | some l => "\n  --> " ++ l.file ++ ":" ++ Decimal.ofInt l.line
    | none => ""
  let hint := if d.hint = "" then "" else "\n  hint: " ++ d.hint
  "error[" ++ d.code.text ++ "]: " ++ d.message ++ location ++ hint

def render (d : Diagnostic) (pretty : Bool) : String :=
  if pretty then d.toText else d.toJson.compact

/-- Several diagnostics: a JSON array, or texts with an empty line between them. -/
def renderAll (ds : List Diagnostic) (pretty : Bool) : String :=
  if pretty then "\n\n".intercalate (ds.map toText) else (Json.arr (ds.map toJson)).compact

/-- The diagnostics on one line. -/
def summary (ds : List Diagnostic) : String :=
  "; ".intercalate (ds.map fun d => d.code.text ++ ": " ++ d.message)

/-- The diagnostic that stands for several: the first. -/
def first (ds : List Diagnostic) : Diagnostic :=
  ds.headD (plain .internal "no diagnostics")

def exitStatus (d : Diagnostic) : ExitStatus :=
  ExitStatus.ofCode d.code

end Diagnostic

end FormLang
