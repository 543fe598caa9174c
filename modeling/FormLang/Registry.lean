import FormLang.Builtin.Apply
import FormLang.Text.Sort

/-!
# Registries

A registry names built-ins and constants. The default one holds everything that a fresh global scope knows.
-/

namespace FormLang

structure Registry where
  entries : List (String × Value)

namespace Registry

def empty : Registry :=
  ⟨[]⟩

def get? (r : Registry) (name : String) : Option Value :=
  r.entries.lookup name

def names (r : Registry) : List String :=
  Text.sort (r.entries.map (·.1))

/-- A built-in under its own name. -/
def builtin (registry : Nat) (name : String) (least : Nat) (most : Option Nat) (op : Operation) : String × Value :=
  (name, .builtin ⟨name, least, most, op, registry⟩)

def unary (registry : Nat) (f : Unary) : String × Value :=
  builtin registry f.name 1 (some 1) (.unary f)

def binary (registry : Nat) (f : Binary) : String × Value :=
  builtin registry f.name 2 (some 2) (.binary f)

def compare (registry : Nat) (op : Comparison) : String × Value :=
  builtin registry op.symbol 2 (some 2) (.compare op)

/-- Arithmetic, comparison and the operations on numbers of any kind. -/
def generic (registry : Nat) : List (String × Value) :=
  [builtin registry "+" 1 none (.arithmetic .add),
    builtin registry "-" 1 none (.arithmetic .subtract),
    builtin registry "*" 1 none (.arithmetic .multiply),
    builtin registry "/" 1 none .divide,
    compare registry .less,
    compare registry .atMost,
    compare registry .greater,
    compare registry .atLeast,
    builtin registry "=" 2 (some 2) .equal,
    builtin registry "!=" 2 (some 2) .unequal,
    builtin registry "abs" 1 (some 1) .abs,
    builtin registry "max" 1 none (.extreme .largest),
    builtin registry "min" 1 none (.extreme .smallest),
    builtin registry "round" 1 (some 2) .round,
    builtin registry "not" 1 (some 1) .not]

def constants : List (String × Value) :=
  [("pi", .float Binary64.pi),
    ("e", .float 2.718281828459045),
    ("tau", .float 6.283185307179586),
    ("inf", .float Binary64.infinity),
    ("nan", .float Binary64.notANumber)]

/-- The mathematical functions. -/
def functions (registry : Nat) : List (String × Value) :=
  [builtin registry "pow" 2 (some 2) .power,
    unary registry .sqrt,
    unary registry .exp,
    unary registry .expm1,
    builtin registry "log" 1 (some 2) .log,
    unary registry .log2,
    unary registry .log10,
    unary registry .log1p,
    unary registry .sin,
    unary registry .cos,
    unary registry .tan,
    unary registry .asin,
    unary registry .acos,
    unary registry .atan,
    binary registry .atan2,
    binary registry .hypot,
    unary registry .degrees,
    unary registry .radians,
    unary registry .sinh,
    unary registry .cosh,
    unary registry .tanh,
    unary registry .asinh,
    unary registry .acosh,
    unary registry .atanh,
    unary registry .fabs,
    binary registry .fmod,
    binary registry .copysign,
    builtin registry "floor" 1 (some 1) (.toInteger .down),
    builtin registry "ceil" 1 (some 1) (.toInteger .up),
    builtin registry "trunc" 1 (some 1) (.toInteger .toZero),
    builtin registry "factorial" 1 (some 1) .factorial,
    builtin registry "gcd" 2 none .gcd,
    builtin registry "isqrt" 1 (some 1) .isqrt,
    unary registry .gamma,
    unary registry .lgamma,
    unary registry .erf,
    unary registry .erfc,
    builtin registry "isfinite" 1 (some 1) (.classify .finite),
    builtin registry "isinf" 1 (some 1) (.classify .infinite),
    builtin registry "isnan" 1 (some 1) (.classify .nan)]

/-- Every built-in and constant of the language. Callables of registries with different numbers are not identical. -/
def defaults (registry : Nat) : Registry :=
  ⟨generic registry ++ constants ++ functions registry⟩

end Registry

end FormLang
