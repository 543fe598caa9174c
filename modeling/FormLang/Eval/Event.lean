import FormLang.Code
import FormLang.Decimal.Integer
import FormLang.Json.Basic

/-!
# Trace events

What an evaluation reports while it runs. Each record carries the identifier of the run.
-/

namespace FormLang

inductive EventKind where
  | evalStart
  | evalEnd
  | callStart
  | callEnd
  | defined
  | failed
  deriving DecidableEq, Repr

namespace EventKind

def name : EventKind → String
  | .evalStart => "eval_start"
  | .evalEnd => "eval_end"
  | .callStart => "fn_call_start"
  | .callEnd => "fn_call_end"
  | .defined => "defun"
  | .failed => "error"

def all : List EventKind :=
  [.evalStart, .evalEnd, .callStart, .callEnd, .defined, .failed]

def ofName? (name : String) : Option EventKind :=
  all.find? fun k => k.name = name

end EventKind

inductive Event where
  | evalStart (expr : String)
  | evalEnd (value : String)
  | callStart (function : String) (depth : Nat)
  | callEnd (function : String) (depth : Nat)
  | defined (function : String) (params : List String)
  | failed (code : Code) (message : String)
  deriving DecidableEq, Repr

namespace Event

def kind : Event → EventKind
  | .evalStart _ => .evalStart
  | .evalEnd _ => .evalEnd
  | .callStart .. => .callStart
  | .callEnd .. => .callEnd
  | .defined .. => .defined
  | .failed .. => .failed

def name (e : Event) : String :=
  e.kind.name

/-- The data of an event, keys in ascending order. -/
def data : Event → List (String × Json)
  | .evalStart e => [("expr", .str e)]
  | .evalEnd v => [("value", .str v)]
  | .callStart f d | .callEnd f d => [("depth", .ofNat d), ("fn", .str f)]
  | .defined f ps => [("fn", .str f), ("params", .arr (ps.map .str))]
  | .failed c m => [("code", .str c.text), ("message", .str m)]

end Event

structure Record where
  runId : String
  event : Event
  deriving DecidableEq, Repr

/-- A record as a line of a trace file, stamped with a time. -/
def Record.toJson (r : Record) (time : String) : Json :=
  .obj [("ts", .str time), ("runId", .str r.runId), ("event", .str r.event.name), ("data", .obj r.event.data)]

end FormLang
