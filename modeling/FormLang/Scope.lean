import FormLang.Eval.Error
import FormLang.Text.Sort

/-!
# Scopes

A scope binds names to values and may have an outer scope. Scopes live in a heap under numbers given in order, and a name
is looked up along the chain of outer scopes. Binding only ever touches the scope that is named.
-/

namespace FormLang

/-- Names bound to values, each name once. -/
abbrev Bindings := List (String × Value)

/-- The bindings with `name` bound to `v`, in the place it had or at the end. -/
def Bindings.insert (b : Bindings) (name : String) (v : Value) : Bindings :=
  match b with
  | [] => [(name, v)]
  | (x, w) :: rest => if x = name then (name, v) :: rest else (x, w) :: Bindings.insert rest name v

/-- Binds the pairs from left to right, so the last of a repeated name wins. -/
def Bindings.insertAll (b : Bindings) (pairs : List (String × Value)) : Bindings :=
  pairs.foldl (fun b p => b.insert p.1 p.2) b

abbrev ScopeId := Nat

structure Scope where
  bindings : Bindings
  outer : Option ScopeId

/-- All scopes, and the number of functions made so far. -/
structure Heap where
  scopes : Array Scope
  functions : Nat

namespace Heap

def empty : Heap :=
  ⟨#[], 0⟩

def size (h : Heap) : Nat :=
  h.scopes.size

/-- Adds an empty scope. Its number is the size of the heap before. -/
def push (h : Heap) (outer : Option ScopeId) : Heap :=
  { h with scopes := h.scopes.push ⟨[], outer⟩ }

/-- Drops the newest scope. -/
def pop (h : Heap) : Heap :=
  { h with scopes := h.scopes.pop }

def outer? (h : Heap) (s : ScopeId) : Option ScopeId :=
  h.scopes[s]?.bind (·.outer)

/-- The bindings of a scope itself. A scope that does not exist has none. -/
def bindings (h : Heap) (s : ScopeId) : Bindings :=
  (h.scopes[s]?.map (·.bindings)).getD []

/-! ## Looking up -/

def getLocal? (h : Heap) (s : ScopeId) (name : String) : Option Value :=
  (h.bindings s).lookup name

/-- Looks along a chain, at most `steps` scopes long. -/
def lookupFrom (scopes : Array Scope) (name : String) : (steps : Nat) → ScopeId → Option Value
  | 0, _ => none
  | n + 1, s =>
    match scopes[s]? with
    | none => none
    | some sc =>
      match sc.bindings.lookup name with
      | some v => some v
      | none =>
        match sc.outer with
        | some o => lookupFrom scopes name n o
        | none => none

/-- The value of a name in the nearest scope of the chain that binds it. No chain is longer than the heap. -/
def get? (h : Heap) (s : ScopeId) (name : String) : Option Value :=
  lookupFrom h.scopes name h.size s

def find (h : Heap) (s : ScopeId) (name : String) : Except EvalError Value :=
  match h.get? s name with
  | some v => .ok v
  | none => .error (.unbound name)

/-- Whether a scope of the chain binds the name. -/
def has (h : Heap) (s : ScopeId) (name : String) : Bool :=
  (h.get? s name).isSome

/-- Whether the scope itself binds the name. -/
def hasLocal (h : Heap) (s : ScopeId) (name : String) : Bool :=
  (h.getLocal? s name).isSome

/-- The names bound in a scope itself, in ascending order. -/
def names (h : Heap) (s : ScopeId) : List String :=
  Text.sort ((h.bindings s).map (·.1))

/-! ## Binding -/

/-- Binds pairs in one scope, from left to right. -/
def bindPairs (h : Heap) (s : ScopeId) (pairs : List (String × Value)) : Heap :=
  { h with scopes := h.scopes.modify s fun sc => { sc with bindings := sc.bindings.insertAll pairs } }

def bind (h : Heap) (s : ScopeId) (name : String) (v : Value) : Heap :=
  h.bindPairs s [(name, v)]

/-- Binds names to values pairwise, and fails if their numbers differ. -/
def bindAll (h : Heap) (s : ScopeId) (names : List String) (values : List Value) : Heap × Except EvalError Unit :=
  if names.length = values.length then (h.bindPairs s (names.zip values), .ok ())
  else (h, .error (.pairing names.length values.length))

/-- Adds a scope with the names bound to the values and gives its number. If the names cannot be bound, the scope is dropped. -/
def pushWith (h : Heap) (outer : Option ScopeId) (names : List String) (values : List Value) :
    Heap × Except EvalError ScopeId :=
  match (h.push outer).bindAll h.size names values with
  | (h', .ok ()) => (h', .ok h.size)
  | (h', .error e) => (h'.pop, .error e)

/-- A function with an identity of its own. -/
def makeFunction (h : Heap) (name : String) (params : List String) (body : Expr) : Function × Heap :=
  (⟨h.functions, name, params, body⟩, { h with functions := h.functions + 1 })

end Heap

end FormLang
