import FormLang.Binary64.ErrorFunction
import FormLang.Binary64.Gamma
import FormLang.Builtin.Arithmetic

/-!
# Functions of floats

The operations that convert their arguments to floats. A result that is no number although the arguments were is a domain
error, and an infinite result of finite arguments is a range error. At a NaN the result is a NaN, and each operation
either hands on its sign or gives the positive one.
-/

namespace FormLang

/-- The arguments as floats. -/
def toFloats (name : String) : List Value → Except Fault (List Float)
  | [] => .ok []
  | v :: vs =>
    match v.toFloat? with
    | none => .error (.notReal name v.kind)
    | some f =>
      match toFloats name vs with
      | .ok fs => .ok (f :: fs)
      | .error e => .error e

/-- The result of a function at some arguments, if it is neither a new NaN nor a new infinity. A NaN is as negative as
told. -/
def checkResult (name : String) (args : List Float) (negative : Bool) (out : Float) : Except Fault Value :=
  if Binary64.isNaN out && !args.any Binary64.isNaN then .error (.domain name)
  else if Binary64.isInfinite out && args.all Binary64.isFinite then .error (.range name)
  else .ok (.ofFloat negative out)

/-! ## One argument -/

namespace Unary

def name : Unary → String
  | .sqrt => "sqrt"
  | .exp => "exp"
  | .expm1 => "expm1"
  | .log2 => "log2"
  | .log10 => "log10"
  | .log1p => "log1p"
  | .sin => "sin"
  | .cos => "cos"
  | .tan => "tan"
  | .asin => "asin"
  | .acos => "acos"
  | .atan => "atan"
  | .degrees => "degrees"
  | .radians => "radians"
  | .sinh => "sinh"
  | .cosh => "cosh"
  | .tanh => "tanh"
  | .asinh => "asinh"
  | .acosh => "acosh"
  | .atanh => "atanh"
  | .fabs => "fabs"
  | .gamma => "gamma"
  | .lgamma => "lgamma"
  | .erf => "erf"
  | .erfc => "erfc"

/-- Whether a number lies in the domain. A NaN is never asked about. -/
def inDomain : Unary → Float → Bool
  | .sqrt, x => x ≥ 0
  | .log2, x | .log10, x => x > 0
  | .log1p, x => x > -1
  | .sin, x | .cos, x | .tan, x => !Binary64.isInfinite x
  | .asin, x | .acos, x => x ≥ -1 && x ≤ 1
  | .acosh, x => x ≥ 1
  | .atanh, x => x > -1 && x < 1
  | .gamma, x | .lgamma, x => x > 0 || !Binary64.isWhole x
  | _, _ => true

def eval : Unary → Float → Float
  | .sqrt, x => x.sqrt
  | .exp, x => Binary64.exponential x
  | .expm1, x => Binary64.expm1 x
  | .log2, x => Binary64.log2 x
  | .log10, x => x.log10
  | .log1p, x => Binary64.log1p x
  | .sin, x => x.sin
  | .cos, x => x.cos
  | .tan, x => x.tan
  | .asin, x => x.asin
  | .acos, x => x.acos
  | .atan, x => x.atan
  | .degrees, x => x * 180 / Binary64.pi
  | .radians, x => x * Binary64.pi / 180
  | .sinh, x => Binary64.hyperbolicSine x
  | .cosh, x => Binary64.hyperbolicCosine x
  | .tanh, x => x.tanh
  | .asinh, x => x.asinh
  | .acosh, x => x.acosh
  | .atanh, x => x.atanh
  | .fabs, x => Binary64.abs x
  | .gamma, x => Binary64.gamma x
  | .lgamma, x => Binary64.lgamma x
  | .erf, x => Binary64.erf x
  | .erfc, x => Binary64.erfc x

/-- Whether the function hands on the sign of a NaN. The others give the positive one. -/
def keepsSign : Unary → Bool
  | .sqrt | .exp | .expm1 | .sin | .tan | .asin | .acos | .atan | .degrees | .radians | .sinh | .tanh | .asinh
  | .lgamma => true
  | _ => false

def apply (u : Unary) (args : List Value) : Except Fault Value :=
  match toFloats u.name args with
  | .error e => .error e
  | .ok [] => .error .missingArgument
  | .ok (x :: xs) =>
    if !Binary64.isNaN x && !u.inDomain x then .error (.domain u.name)
    else checkResult u.name (x :: xs) (u.keepsSign && args.head?.any Value.isNegativeNaN) (u.eval x)

end Unary

/-! ## Two arguments -/

namespace Binary

def name : Binary → String
  | .atan2 => "atan2"
  | .hypot => "hypot"
  | .fmod => "fmod"
  | .copysign => "copysign"

/-- The function at two floats, the second of the given sign. -/
def eval (negative : Bool) : Binary → Float → Float → Float
  | .atan2, x, y => Float.atan2 x y
  | .hypot, x, y => Binary64.hypotenuse x y
  | .fmod, x, y => Binary64.remainder x y
  | .copysign, x, _ => Binary64.ofMagnitude negative (Binary64.magnitude x)

def apply (b : Binary) (args : List Value) : Except Fault Value :=
  match toFloats b.name args with
  | .error e => .error e
  | .ok (x :: y :: rest) =>
    let negative := args[1]?.any Value.isNegative
    checkResult b.name (x :: y :: rest) (b == .copysign && negative) (b.eval negative x y)
  | .ok _ => .error .missingArgument

end Binary

/-- A power; a negative power of zero is outside the domain. -/
def raisePower (args : List Value) : Except Fault Value :=
  match toFloats "pow" args with
  | .error e => .error e
  | .ok (x :: y :: rest) =>
    if x == 0 && y < 0 then .error (.domain "pow")
    else
      let negative := y == 1 && args.head?.any Value.isNegativeNaN
      checkResult "pow" (x :: y :: rest) negative (Binary64.powerInRange x y)
  | .ok _ => .error .missingArgument

/-- A natural logarithm, or one to a given base. -/
def logarithm (args : List Value) : Except Fault Value :=
  match toFloats "log" args with
  | .error e => .error e
  | .ok [] => .error .missingArgument
  | .ok (x :: xs) =>
    if (x :: xs).any fun y => !Binary64.isNaN y && y ≤ 0 then .error (.domain "log")
    else
      match xs with
      | [b] =>
        if b.log == 0 then .error .logBase
        else .ok (.ofFloat (!Binary64.isNaN x && !Binary64.isNaN b) (x.log / b.log))
      | _ => .ok (.float x.log)

/-! ## Tests and conversions -/

namespace Classifier

def name : Classifier → String
  | .finite => "isfinite"
  | .infinite => "isinf"
  | .nan => "isnan"

def holds : Classifier → Float → Bool
  | .finite, x => Binary64.isFinite x
  | .infinite, x => Binary64.isInfinite x
  | .nan, x => Binary64.isNaN x

def apply (c : Classifier) (args : List Value) : Except Fault Value :=
  match toFloats c.name args with
  | .error e => .error e
  | .ok [] => .error .missingArgument
  | .ok (x :: _) => .ok (.bool (c.holds x))

end Classifier

/-- The name under which a rounding direction converts floats to integers. -/
def conversionName : Binary64.Direction → String
  | .down => "floor"
  | .up => "ceil"
  | .toZero => "trunc"
  | .toEven => "round"

/-- An integer stays, and a float is rounded in the direction. -/
def convertToInteger (d : Binary64.Direction) (args : List Value) : Except Fault Value :=
  match args with
  | [] => .error .missingArgument
  | v :: _ =>
    match v.toInt64? with
    | some n => .ok (.int n)
    | none =>
      match v.toFloat? with
      | some f => floatToInteger (conversionName d) d f
      | none => .error (.notReal (conversionName d) v.kind)

end FormLang
