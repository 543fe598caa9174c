import FormLang.Disk.Basic
import FormLang.Json.Decode
import FormLang.Json.Reader

/-!
# Conformance scenarios

A scenario is a folder with a record of a command line and of what it is expected to print, and the program that the command
line names.
-/

namespace FormLang

/-- What a command line is expected to do. Empty texts and lists expect nothing. -/
structure Expectation where
  exitCode : Int
  /-- The JSON of each value printed. -/
  outJson : List Json
  outText : String
  outContains : String
  errSubset : Option Json
  errContains : String

namespace Expectation

def empty : Expectation :=
  ⟨0, [], "", "", none, ""⟩

def items? : Json → Option (List Json)
  | .null => some []
  | .arr items => some items
  | _ => none

/-- Sets the field of a key. -/
def set? (e : Expectation) (key : String) (j : Json) : Option Expectation :=
  if Json.isKey "exitCode" key then (j.int? e.exitCode).map fun n => { e with exitCode := n }
  else if Json.isKey "stdoutJson" key then (items? j).map fun js => { e with outJson := js }
  else if Json.isKey "stdoutText" key then (j.str? e.outText).map fun t => { e with outText := t }
  else if Json.isKey "stdoutContains" key then (j.str? e.outContains).map fun t => { e with outContains := t }
  else if Json.isKey "stderrJsonSubset" key then some { e with errSubset := some j }
  else if Json.isKey "stderrContains" key then (j.str? e.errContains).map fun t => { e with errContains := t }
  else some e

def toJson (e : Expectation) : Json :=
  let text (key value : String) : List (String × Json) := if value = "" then [] else [(key, .str value)]
  .obj <|
    [("exitCode", .num (Decimal.ofInt e.exitCode))]
      ++ (if e.outJson.isEmpty then [] else [("stdoutJson", .arr e.outJson)])
      ++ text "stdoutText" e.outText
      ++ text "stdoutContains" e.outContains
      ++ (match e.errSubset with
        | some j => [("stderrJsonSubset", j)]
        | none => [])
      ++ text "stderrContains" e.errContains

end Expectation

/-- What a scenario is about. -/
structure Description where
  text : String
  tags : Json.Texts

namespace Description

def empty : Description :=
  ⟨"", .empty⟩

def set? (d : Description) (key : String) (j : Json) : Option Description :=
  if Json.isKey "description" key then (j.str? d.text).map fun t => { d with text := t }
  else if Json.isKey "tags" key then (j.texts? d.tags).map fun ts => { d with tags := ts }
  else some d

def toJson (d : Description) : Json :=
  .obj ((if d.text = "" then [] else [("description", .str d.text)])
    ++ if d.tags.items.isEmpty then [] else [("tags", .arr (d.tags.items.map .str))])

end Description

structure Scenario where
  /-- The words of the command line, if given. -/
  command : Option Json.Texts
  /-- The depth limit, if settings are given; zero stands for the default. -/
  maxDepth : Option Int
  about : Option Description
  expect : Expectation

namespace Scenario

def empty : Scenario :=
  ⟨none, none, none, .empty⟩

/-- Reads a record that may be absent. A null makes it so again. -/
def optional? {α : Type} (set : α → String → Json → Option α) (fresh : α) (old : Option α) :
    Json → Option (Option α)
  | .null => some none
  | j => (Json.record? set (old.getD fresh) j).map some

def setDepth? (n : Int) (key : String) (j : Json) : Option Int :=
  if Json.isKey "maxDepth" key then j.int? n else some n

def command? (old : Option Json.Texts) : Json → Option (Option Json.Texts)
  | .null => some none
  | j => (j.texts? (old.getD .empty)).map some

/-- Sets the field of a key. -/
def set? (s : Scenario) (key : String) (j : Json) : Option Scenario :=
  if Json.isKey "cmd" key then (command? s.command j).map fun c => { s with command := c }
  else if Json.isKey "config" key then (optional? setDepth? 0 s.maxDepth j).map fun n => { s with maxDepth := n }
  else if Json.isKey "meta" key then
    (optional? Description.set? .empty s.about j).map fun d => { s with about := d }
  else if Json.isKey "expect" key then (Json.record? Expectation.set? s.expect j).map fun e => { s with expect := e }
  else some s

def ofText? (text : String) : Option Scenario :=
  (Json.parse? text).bind (Json.record? set? empty)

def toJson (s : Scenario) : Json :=
  .obj <|
    [("cmd", match s.command with
      | some words => .arr (words.items.map .str)
      | none => .null)]
      ++ (match s.maxDepth with
        | some n => [("config", .obj (if n = 0 then [] else [("maxDepth", .num (Decimal.ofInt n))]))]
        | none => [])
      ++ (match s.about with
        | some d => [("meta", d.toJson)]
        | none => [])
      ++ [("expect", s.expect.toJson)]

/-! ## Folders of scenarios -/

def fileName : String :=
  "scenario.json"

/-- The folders below a path that hold a record, in ascending order, or nothing if the path is no folder. -/
def list? (d : Disk) (root : String) : Option (List String) :=
  (d.subfolders? [] root).map fun names => names.filter fun name => d.holds [] (Path.join (Path.join root name) fileName)

/-- The scenario of a folder, if its record can be read. -/
def load? (d : Disk) (folder : String) : Option Scenario :=
  match d.read [] (Path.join folder fileName) with
  | .ok text => ofText? text
  | .error _ => none

/-- The program that a command line names: its first word after the command that is not empty and begins with no dash. -/
def programName? (s : Scenario) : Option String :=
  ((s.command.getD .empty).items.drop 1).find? fun word => word ≠ "" && !Text.startsWith "-" word

/-- The text and the name of the program, both empty if the command line names none. -/
def program (s : Scenario) (d : Disk) (folder : String) : Except FileError (String × String) :=
  match s.programName? with
  | none => .ok ("", "")
  | some name =>
    match d.read [] (Path.join folder name) with
    | .ok text => .ok (text, name)
    | .error e => .error e

end Scenario

end FormLang
