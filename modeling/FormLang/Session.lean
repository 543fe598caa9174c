import FormLang.Eval.Basic
import FormLang.Expr.Reader
import FormLang.Registry

/-!
# Sessions

A session evaluates statements one after another in a global scope. Definitions persist, and an error ends only the
statement that raised it.
-/

namespace FormLang

/-! ## What can go wrong with a statement -/

inductive Problem where
  | parse (e : ParseError)
  | eval (e : EvalError)
  /-- An error that carries nothing but a message. -/
  | other (message : String)
  deriving DecidableEq, Repr

namespace Problem

def diagnostic : Problem → Diagnostic
  | .parse e => e.diagnostic
  | .eval e => e.diagnostic
  | .other message => .plain .internal message

def code (p : Problem) : Code :=
  p.diagnostic.code

def exitStatus (p : Problem) : ExitStatus :=
  p.diagnostic.exitStatus

/-- The problem as a diagnostic at a line of a file. -/
def locate (p : Problem) (file : String) (line : Int) : Diagnostic :=
  p.diagnostic.locate file line

end Problem

/-! ## Global scopes -/

/-- Binds every entry of a registry in a scope. -/
def Heap.seed (h : Heap) (s : ScopeId) (r : Registry) : Heap :=
  h.bindPairs s r.entries

/-- A heap with a single scope that knows everything of the language. -/
def Heap.global : Heap :=
  (Heap.empty.push none).seed 0 (.defaults 0)

/-- The number of the global scope. -/
def globalScope : ScopeId := 0

/-! ## Sessions -/

structure Session where
  machine : Machine
  /-- The depth limit as it was set. One that is not positive stands for the default. -/
  limit : Int

namespace Session

/-- A session over a heap whose first scope is the global one. -/
def start (heap : Heap) (limit : Int) (runId : String) (tracing : Bool) : Session :=
  ⟨.start heap runId tracing, limit⟩

/-- A session over a fresh global scope, untraced. -/
def fresh (limit : Int) : Session :=
  start .global limit "" false

def heap (s : Session) : Heap :=
  s.machine.heap

def counters (s : Session) : Counters :=
  s.machine.counters

/-- Reads and evaluates one statement. -/
def evaluate (s : Session) (text : String) : Session × Except Problem Value :=
  match Expr.parse s.limit (Token.ofText text) with
  | .error e => (s, .error (.parse e))
  | .ok e =>
    match evalTop (effectiveLimit s.limit) s.machine e globalScope with
    | (m, .ok v) => ({ s with machine := m }, .ok v)
    | (m, .error err) => ({ s with machine := m }, .error (.eval err))

/-- The value of a name in the global scope. -/
def get? (s : Session) (name : String) : Option Value :=
  s.heap.get? globalScope name

/-- Binds a name in the global scope. -/
def bind (s : Session) (name : String) (v : Value) : Session :=
  { s with machine := { s.machine with heap := s.machine.heap.bind globalScope name v } }

def names (s : Session) : List String :=
  s.heap.names globalScope

/-- The bindings of the global scope that print otherwise than those of a fresh one, in ascending order of names. -/
def changed (s : Session) : List (String × Value) :=
  s.names.filterMap fun name =>
    match s.get? name with
    | none => none
    | some v =>
      match Heap.global.get? globalScope name with
      | some seeded => if seeded.text = v.text then none else some (name, v)
      | none => some (name, v)

end Session

/-- Evaluates one text in a fresh global scope. -/
def evaluateText (text : String) : Except Problem Value :=
  ((Session.fresh 0).evaluate text).2

end FormLang
