import FormLang.Eval.Event
import FormLang.Scope

/-!
# The state of an evaluator

The heap of scopes, the counters and the records of a trace.
-/

namespace FormLang

structure Counters where
  /-- Evaluations in progress. -/
  depth : Nat
  /-- The largest depth so far. -/
  peak : Nat
  /-- Calls of functions and built-ins so far. -/
  calls : Nat
  deriving DecidableEq, Repr

namespace Counters

def zero : Counters :=
  ⟨0, 0, 0⟩

def enter (c : Counters) : Counters :=
  { c with depth := c.depth + 1, peak := max c.peak (c.depth + 1) }

def leave (c : Counters) : Counters :=
  { c with depth := c.depth - 1 }

def call (c : Counters) : Counters :=
  { c with calls := c.calls + 1 }

end Counters

/-- What is recorded of a run. -/
structure Trace where
  enabled : Bool
  runId : String
  records : Array Record

structure Machine where
  heap : Heap
  counters : Counters
  trace : Trace

namespace Machine

/-- An evaluator that has done nothing, over the given heap. -/
def start (heap : Heap) (runId : String) (tracing : Bool) : Machine :=
  ⟨heap, .zero, ⟨tracing, runId, #[]⟩⟩

def enter (m : Machine) : Machine :=
  { m with counters := m.counters.enter }

def leave (m : Machine) : Machine :=
  { m with counters := m.counters.leave }

def countCall (m : Machine) : Machine :=
  { m with counters := m.counters.call }

/-- Opens an empty scope inside `s`. Its number is the size of the heap before. -/
def openScope (m : Machine) (s : ScopeId) : Machine :=
  { m with heap := m.heap.push (some s) }

/-- Closes the newest scope. Nothing refers to it any more. -/
def closeScope (m : Machine) : Machine :=
  { m with heap := m.heap.pop }

def bindPairs (m : Machine) (s : ScopeId) (pairs : List (String × Value)) : Machine :=
  { m with heap := m.heap.bindPairs s pairs }

/-- Records an event if the run is traced. -/
def emit (m : Machine) (e : Event) : Machine :=
  if m.trace.enabled then
    { m with trace := { m.trace with records := m.trace.records.push ⟨m.trace.runId, e⟩ } }
  else m

end Machine

end FormLang
