import FormLang.Builtin.Apply
import FormLang.Eval.Form
import FormLang.Eval.Machine
import FormLang.Text.Case
import FormLang.Value.Printer

/-!
# Evaluation

An expression is evaluated in a scope of the heap. Each evaluation inside another takes one unit of the depth budget, and
with none left it fails. Operands, conditions and branches are evaluated in scopes of their own that end with them.

A call binds the parameters in the scope of the caller and evaluates the body in a scope inside it. The alternative of a
fresh scope for the parameters is kept beside it.

`step` says what one level does, given what the level below it does.
-/

namespace FormLang

/-- Where a call binds its parameters. -/
inductive Binding where
  | caller
  | fresh
  deriving DecidableEq, Repr

abbrev Outcome := Except EvalError Value

/-- What evaluating an expression in a scope does to the machine, and its outcome. -/
abbrev Evaluator := Machine → Expr → ScopeId → Machine × Outcome

namespace Eval

/-- Evaluates in an empty scope inside `s` that ends with the evaluation. -/
@[inline]
def inChild (rec : Evaluator) (m : Machine) (e : Expr) (s : ScopeId) : Machine × Outcome :=
  let child := m.heap.size
  match rec (m.openScope s) e child with
  | (m, r) => (m.closeScope, r)

/-- Evaluates operands from left to right up to the first failure, given the values so far (newest first). -/
@[specialize]
def operands (rec : Evaluator) (s : ScopeId) (m : Machine) (done : List Value) :
    List Expr → Machine × Except EvalError (List Value)
  | [] => (m, .ok done.reverse)
  | e :: rest =>
    match inChild rec m e s with
    | (m, .ok v) => operands rec s m (v :: done) rest
    | (m, .error err) => (m, .error err)

/-! ## Special forms -/

@[inline]
def conditional (rec : Evaluator) (m : Machine) (ops : List Expr) (s : ScopeId) : Machine × Outcome :=
  match ops with
  | [cond, yes, no] =>
    match inChild rec m cond s with
    | (m, .ok v) => inChild rec m (if v.truthy then yes else no) s
    | (m, .error err) => (m, .error err)
  | ops => (m, .error (.ifOperands ops.length))

def define (m : Machine) (ops : List Expr) (s : ScopeId) : Machine × Outcome :=
  match Definition.ofOperands ops with
  | .error err => (m, .error err)
  | .ok d =>
    let (f, heap) := m.heap.makeFunction d.name d.params d.body
    let m := { m with heap := heap.bind s d.name (.function f) }
    (m.emit (.defined d.name d.params), .ok (.str ("Defined " ++ Text.upper d.name)))

@[inline]
def format (rec : Evaluator) (m : Machine) (ops : List Expr) (s : ScopeId) : Machine × Outcome :=
  match ops with
  | [] => (m, .error .formatDestination)
  | _ :: ops =>
    match FormatText.split ops with
    | .error err => (m, .error err)
    | .ok (words, []) => (m, .ok (.str (FormatText.fill words "")))
    | .ok (words, [arg]) =>
      match inChild rec m arg s with
      | (m, .ok v) => (m, .ok (.str (FormatText.fill words v.text)))
      | (m, .error err) => (m, .error err)
    | .ok (_, rest) => (m, .error (.formatArguments rest.length))

/-! ## Calls -/

/-- Calls a function with its parameters bound to the arguments in `s`, and the body in a scope inside it. -/
@[inline]
def enterBody (rec : Evaluator) (m : Machine) (f : Function) (args : List Value) (s : ScopeId) :
    Machine × Outcome :=
  let m := (m.bindPairs s (f.params.zip args)).countCall
  let m := m.emit (.callStart f.name m.counters.depth)
  match inChild rec m f.body s with
  | (m, r) => (m.emit (.callEnd f.name m.counters.depth), r)

@[inline]
def callFunction (binding : Binding) (rec : Evaluator) (m : Machine) (f : Function) (args : List Value)
    (s : ScopeId) : Machine × Outcome :=
  if args.length = f.params.length then
    match binding with
    | .caller => enterBody rec m f args s
    | .fresh =>
      let inner := m.heap.size
      match enterBody rec (m.openScope s) f args inner with
      | (m, r) => (m.closeScope, r)
  else (m, .error (.arity f.name f.params.length args.length))

def callBuiltin (m : Machine) (b : Builtin) (args : List Value) : Machine × Outcome :=
  if b.takes args.length then
    let m := m.countCall
    match b.operation.apply args with
    | .ok v => (m, .ok v)
    | .error (.bare message) => (m, .error (.refused b.name message))
    | .error f => (m, .error (.fault f))
  else (m, .error (.arity b.name (b.expected args.length) args.length))

/-- Applies the value of a head to argument values. A number without arguments stands for itself. -/
@[inline]
def call (binding : Binding) (rec : Evaluator) (m : Machine) (head : Expr) (v : Value) (args : List Value)
    (s : ScopeId) : Machine × Outcome :=
  match v, args with
  | .function f, args => callFunction binding rec m f args s
  | .builtin b, args => callBuiltin m b args
  | .int n, [] => (m, .ok (.int n))
  | .float f, [] => (m, .ok (.float f))
  | .negativeNaN, [] => (m, .ok .negativeNaN)
  | v, _ => (m, .error (.notCallable v.kind head.flat))

/-- Evaluates the head and the operands, and applies the one to the others. -/
@[inline]
def application (binding : Binding) (rec : Evaluator) (m : Machine) (head : Expr) (ops : List Expr)
    (s : ScopeId) : Machine × Outcome :=
  match inChild rec m head s with
  | (m, .error err) => (m, .error err)
  | (m, .ok v) =>
    match operands rec s m [] ops with
    | (m, .error err) => (m, .error err)
    | (m, .ok args) => call binding rec m head v args s

/-! ## Levels -/

/-- The special forms by the name of their head. -/
inductive Keyword where
  | conditional
  | define
  | format
  deriving DecidableEq, Repr

def Keyword.ofHead? : Expr → Option Keyword
  | .symbol name =>
    if name = "if" then some .conditional
    else if name = "defun" then some .define
    else if name = "format" then some .format
    else none
  | _ => none

@[inline]
def form (binding : Binding) (rec : Evaluator) (m : Machine) (head : Expr) (ops : List Expr) (s : ScopeId) :
    Machine × Outcome :=
  match Keyword.ofHead? head with
  | some .conditional => conditional rec m ops s
  | some .define => define m ops s
  | some .format => format rec m ops s
  | none => application binding rec m head ops s

/-- What one admitted evaluation does, given the evaluation one level below. -/
@[inline]
def step (binding : Binding) (rec : Evaluator) (m : Machine) (e : Expr) (s : ScopeId) : Machine × Outcome :=
  match e with
  | .int n => (m, .ok (.int n))
  | .float f => (m, .ok (.float f))
  | .symbol name => (m, m.heap.find s name)
  | .list [] => (m, .error .emptyForm)
  | .list (head :: ops) => form binding rec m head ops s
  | .hole => (m, .error .hole)

/-- Evaluates with so many further levels left of the limit. -/
def within (binding : Binding) (limit : Nat) : (room : Nat) → Evaluator
  | 0, m, _, _ => (m.enter.leave, .error (.tooDeep limit))
  | room + 1, m, e, s =>
    match step binding (within binding limit room) m.enter e s with
    | (m, r) => (m.leave, r)

end Eval

/-- Evaluates an expression under a depth limit, from the depth that the machine is at. -/
def evalWith (binding : Binding) (limit : Nat) (m : Machine) (e : Expr) (s : ScopeId) : Machine × Outcome :=
  Eval.within binding limit (limit - m.counters.depth) m e s

/-- Evaluates an expression in a scope under a depth limit. -/
def eval (limit : Nat) (m : Machine) (e : Expr) (s : ScopeId) : Machine × Outcome :=
  evalWith .caller limit m e s

/-- Evaluates a whole statement, with the events that open and close it in a traced run. -/
def evalTop (limit : Nat) (m : Machine) (e : Expr) (s : ScopeId) : Machine × Outcome :=
  if m.trace.enabled && m.counters.depth = 0 then
    match eval limit (m.emit (.evalStart e.flat)) e s with
    | (m, .ok v) => (m.emit (.evalEnd v.text), .ok v)
    | (m, .error err) => (m.emit (.failed err.code err.message), .error err)
  else eval limit m e s

end FormLang
