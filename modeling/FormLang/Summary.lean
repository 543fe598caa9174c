import FormLang.Decimal.Places
import FormLang.Eval.Event
import FormLang.Json.Decode
import FormLang.Json.Reader
import FormLang.Moment
import FormLang.Text.Blank
import FormLang.Text.Bytes
import FormLang.Text.Lines
import FormLang.Value.Printer

/-!
# Summaries of traces

A trace file holds a record on each line. Its summary counts statements, calls, definitions and failures and gives the time
that passed. Lines that are no records are passed over.
-/

namespace FormLang

/-! ## Records as they are read back -/

/-- A line of a trace file. What it does not give is empty. -/
structure Entry where
  time : String
  runId : String
  event : String
  data : List (String × Json)
  deriving DecidableEq

namespace Entry

def empty : Entry :=
  ⟨"", "", "", []⟩

/-- Data given twice are merged; a null takes them back. -/
def addData? (old : List (String × Json)) : Json → Option (List (String × Json))
  | .null => some []
  | .obj fields => if Json.fieldsInRange fields then some (old ++ fields) else none
  | _ => none

/-- Sets the field of a key. -/
def set? (e : Entry) (key : String) (j : Json) : Option Entry :=
  if Json.isKey "ts" key then (j.str? e.time).map fun t => { e with time := t }
  else if Json.isKey "runId" key then (j.str? e.runId).map fun t => { e with runId := t }
  else if Json.isKey "event" key then (j.str? e.event).map fun t => { e with event := t }
  else if Json.isKey "data" key then (addData? e.data j).map fun d => { e with data := d }
  else some e

def ofLine? (line : String) : Option Entry :=
  (Json.parse? line).bind (Json.record? set? empty)

/-- The text under a key of the data. A key given twice counts as it was given last. -/
def text? (e : Entry) (key : String) : Option String :=
  match e.data.reverse.lookup key with
  | some (.str s) => some s
  | _ => none

end Entry

/-! ## Tallies -/

/-- How often each name occurred, in ascending order of names. -/
abbrev Tally := List (String × Nat)

/-- Counts a name once more. -/
def Tally.add (name : String) : Tally → Tally
  | [] => [(name, 1)]
  | (other, n) :: rest =>
    if name = other then (other, n + 1) :: rest
    else if Text.precedes name other then (name, 1) :: (other, n) :: rest
    else (other, n) :: Tally.add name rest

def Tally.addSome (name : Option String) (t : Tally) : Tally :=
  match name with
  | some n => t.add n
  | none => t

def Tally.toJson (t : Tally) : Json :=
  .obj (t.map fun (name, n) => (name, .ofNat n))

/-- A line for each name. -/
def Tally.toText (t : Tally) : String :=
  String.join (t.map fun (name, n) => "  " ++ name ++ ": " ++ Decimal.ofNat n ++ "\n")

/-! ## Summaries -/

structure Summary where
  runId : String
  totalEvents : Nat
  evaluations : Nat
  calls : Nat
  callsByName : Tally
  /-- The calls in progress. -/
  active : Nat
  /-- The largest number of calls that were in progress at once. -/
  maxActive : Nat
  /-- The defined names, newest first. -/
  defined : List String
  failures : Nat
  failuresByCode : Tally
  startTime : String
  endTime : String

namespace Summary

def empty : Summary :=
  ⟨"", 0, 0, 0, [], 0, 0, [], 0, [], "", ""⟩

/-- Counts an event of a known kind. -/
def count (s : Summary) (e : Entry) : EventKind → Summary
  | .evalStart => { s with evaluations := s.evaluations + 1 }
  | .evalEnd => s
  | .callStart =>
    { s with
      calls := s.calls + 1
      callsByName := s.callsByName.addSome (e.text? "fn")
      active := s.active + 1
      maxActive := max s.maxActive (s.active + 1) }
  | .callEnd => { s with active := s.active - 1 }
  | .defined =>
    match e.text? "fn" with
    | some name => { s with defined := name :: s.defined }
    | none => s
  | .failed =>
    { s with failures := s.failures + 1, failuresByCode := s.failuresByCode.addSome (e.text? "code") }

/-- Adds a record. The run and the start are those of the first record that gives them; the end is that of the last. -/
def add (s : Summary) (e : Entry) : Summary :=
  let s :=
    { s with
      totalEvents := s.totalEvents + 1
      runId := if s.runId = "" then e.runId else s.runId
      startTime := if s.startTime = "" then e.time else s.startTime
      endTime := e.time }
  match EventKind.ofName? e.event with
  | some kind => s.count e kind
  | none => s

def ofEntries (entries : List Entry) : Summary :=
  entries.foldl add empty

/-- Lines of this many bytes or more are refused. -/
def maxLine : Nat := 4 * 1024 * 1024

/-- The records of a trace, in order. -/
def entries (lines : List String) : List Entry :=
  lines.filterMap fun line => Entry.ofLine? (Text.trim line)

/-- The summary of a trace file, unless one of its lines is too long. -/
def ofText? (text : String) : Option Summary :=
  let lines := Text.lines text
  if lines.any fun line => maxLine ≤ Text.size line then none else some (ofEntries (entries lines))

/-- What a line that is too long is refused with. -/
def tooLong : String :=
  "bufio.Scanner: token too long"

/-- The time from start to end in milliseconds; zero if either cannot be read. -/
def duration (s : Summary) : Float :=
  match Moment.ofText? s.startTime, Moment.ofText? s.endTime with
  | some a, some b => Binary64.ofInt64 (Int64.ofInt (a.microsecondsTo b)) / 1000
  | _, _ => 0

def definitions (s : Summary) : List String :=
  s.defined.reverse

def toJson (s : Summary) : Json :=
  let time (key value : String) : List (String × Json) := if value = "" then [] else [(key, .str value)]
  .obj <|
    [("runId", .str s.runId), ("totalEvents", .ofNat s.totalEvents), ("evaluations", .ofNat s.evaluations),
      ("fnCalls", .ofNat s.calls), ("fnCallsByName", s.callsByName.toJson), ("maxCallDepth", .ofNat s.maxActive),
      ("definitions", .arr (s.definitions.map .str)), ("errors", .ofNat s.failures),
      ("errorsByCode", s.failuresByCode.toJson)]
      ++ time "startTime" s.startTime ++ time "endTime" s.endTime
      ++ [("durationMs", Value.floatJson s.duration)]

def toText (s : Summary) : String :=
  "Run: " ++ s.runId ++ "\n"
    ++ "Events: " ++ Decimal.ofNat s.totalEvents ++ "\n"
    ++ "Statements: " ++ Decimal.ofNat s.evaluations ++ "\n"
    ++ "Calls: " ++ Decimal.ofNat s.calls ++ " (max depth " ++ Decimal.ofNat s.maxActive ++ ")\n"
    ++ s.callsByName.toText
    ++ (if s.defined.isEmpty then "" else "Defined: " ++ ", ".intercalate s.definitions ++ "\n")
    ++ "Errors: " ++ Decimal.ofNat s.failures ++ "\n"
    ++ s.failuresByCode.toText
    ++ (if s.duration > 0 then "Duration: " ++ Decimal.withPlaces 0 s.duration ++ "ms\n" else "")

end Summary

end FormLang
