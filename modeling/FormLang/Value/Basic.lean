import FormLang.Binary64.Whole
import FormLang.Code
import FormLang.Expr.Basic

/-!
# Values

What an expression evaluates to: integers of 64 bits, floats, texts, booleans, functions of the user and built-ins. A void
stands where a host bound a name to no value.

Callables compare by identity. A function carries the number under which it was made, and a built-in the number of the
registry that made it.
-/

namespace FormLang

/-! ## What built-ins do -/

/-- Integer operations that fold over their arguments. -/
inductive Arithmetic where
  | add
  | subtract
  | multiply
  deriving DecidableEq, Repr

/-- The tests on an order. -/
inductive Comparison where
  | less
  | atMost
  | greater
  | atLeast
  deriving DecidableEq, Repr

inductive Extreme where
  | largest
  | smallest
  deriving DecidableEq, Repr

/-- Functions of one float. -/
inductive Unary where
  | sqrt
  | exp
  | expm1
  | log2
  | log10
  | log1p
  | sin
  | cos
  | tan
  | asin
  | acos
  | atan
  | degrees
  | radians
  | sinh
  | cosh
  | tanh
  | asinh
  | acosh
  | atanh
  | fabs
  | gamma
  | lgamma
  | erf
  | erfc
  deriving DecidableEq, Repr

/-- Functions of two floats. -/
inductive Binary where
  | atan2
  | hypot
  | fmod
  | copysign
  deriving DecidableEq, Repr

/-- Tests on one float. -/
inductive Classifier where
  | finite
  | infinite
  | nan
  deriving DecidableEq, Repr

/-- What a built-in computes from its arguments. The last three are for hosts that add built-ins of their own: to fail in either
way or to return an argument. A host function that does anything else has no operation, so results about the evaluator are over
the built-ins of this type. -/
inductive Operation where
  | arithmetic (op : Arithmetic)
  | divide
  | compare (op : Comparison)
  | equal
  | unequal
  | abs
  | extreme (e : Extreme)
  | round
  | not
  | power
  | log
  | unary (f : Unary)
  | binary (f : Binary)
  | classify (c : Classifier)
  | toInteger (d : Binary64.Direction)
  | factorial
  | gcd
  | isqrt
  /-- Fails with a bare message. -/
  | fail (message : String)
  /-- Fails with an error that has a code. -/
  | raise (code : Code) (message : String)
  /-- Returns its first argument. -/
  | first
  deriving DecidableEq, Repr

/-! ## Values -/

structure Builtin where
  name : String
  /-- The least number of arguments. -/
  least : Nat
  /-- The largest number of arguments, if there is one. -/
  most : Option Nat
  operation : Operation
  registry : Nat
  deriving DecidableEq, Repr

/-- A function of the user. It holds no scope: free names of its body are looked up where it is called. -/
structure Function where
  id : Nat
  name : String
  params : List String
  body : Expr

inductive Value where
  | int (n : Int64)
  | float (f : Float)
  /-- A NaN with a sign of its own, which an operation without a value makes. Only a copied sign tells it from the other. -/
  | negativeNaN
  | str (s : String)
  | bool (b : Bool)
  | function (f : Function)
  | builtin (b : Builtin)
  | void
  deriving Inhabited

namespace Value

inductive Kind where
  | int
  | float
  | str
  | bool
  | function
  | builtin
  | unknown
  deriving DecidableEq, Repr

def Kind.name : Kind → String
  | .int => "int"
  | .float => "float"
  | .str => "str"
  | .bool => "bool"
  | .function => "function"
  | .builtin => "builtin_function"
  | .unknown => "unknown"

def kind : Value → Kind
  | .int _ => .int
  | .float _ | .negativeNaN => .float
  | .str _ => .str
  | .bool _ => .bool
  | .function _ => .function
  | .builtin _ => .builtin
  | .void => .unknown

/-- Whether the value may be an operand of arithmetic. Booleans count, as zero and one. -/
def isNumber : Value → Bool
  | .int _ | .float _ | .negativeNaN | .bool _ => true
  | _ => false

def isInteger : Value → Bool
  | .int _ | .bool _ => true
  | _ => false

def toInt64? : Value → Option Int64
  | .int n => some n
  | .bool b => some (if b then 1 else 0)
  | _ => none

def toFloat? : Value → Option Float
  | .float f => some f
  | .negativeNaN => some Binary64.notANumber
  | v => v.toInt64?.map Binary64.ofInt64

/-- The float as a value, where a NaN may be negative. -/
def ofFloat (negative : Bool) (f : Float) : Value :=
  if negative && Binary64.isNaN f then .negativeNaN else .float f

def isNaN (v : Value) : Bool :=
  v.toFloat?.any Binary64.isNaN

def isNegativeNaN : Value → Bool
  | .negativeNaN => true
  | _ => false

/-- The sign, which zeros and NaNs have too. -/
def isNegative (v : Value) : Bool :=
  v.isNegativeNaN || v.toFloat?.any Binary64.isNegative

/-- Zero, false, the empty text and a void are false. -/
def truthy : Value → Bool
  | .int n => n != 0
  | .float f => f != 0
  | .negativeNaN => true
  | .bool b => b
  | .str s => s != ""
  | .void => false
  | .function _ | .builtin _ => true

/-- The integer values of both, if both are integers. -/
def integers? (a b : Value) : Option (Int64 × Int64) :=
  match a.toInt64?, b.toInt64? with
  | some x, some y => some (x, y)
  | _, _ => none

/-- The float values of both, if both are numbers. -/
def floats? (a b : Value) : Option (Float × Float) :=
  match a.toFloat?, b.toFloat? with
  | some x, some y => some (x, y)
  | _, _ => none

/-- Numbers are equal by value, texts by content and callables by identity. -/
def equal (a b : Value) : Bool :=
  match a.integers? b with
  | some (x, y) => x == y
  | none =>
    match a.floats? b with
    | some (x, y) => x == y
    | none =>
      match a, b with
      | .str s, .str t => s == t
      | .function f, .function g => f.id == g.id
      | .builtin f, .builtin g => f.registry == g.registry && f.name == g.name
      | _, _ => false

/-- The order of two numbers: of integers exactly, of others as floats. A NaN and what is no number have none. -/
def compare? (a b : Value) : Option Ordering :=
  match a.integers? b with
  | some (x, y) => some (if x < y then .lt else if y < x then .gt else .eq)
  | none =>
    match a.floats? b with
    | some (x, y) =>
      if x.isNaN || y.isNaN then none else some (if x < y then .lt else if y < x then .gt else .eq)
    | none => none

end Value

end FormLang
