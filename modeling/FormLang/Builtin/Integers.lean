import FormLang.Builtin.Fault
import FormLang.Builtin.Word

/-!
# Functions of integers

Factorial, greatest common divisor and integer square root.
-/

namespace FormLang

/-- The argument as an integer that is not negative. -/
def natural (name : String) (v : Value) : Except Fault Int64 :=
  match v.toInt64? with
  | none => .error (.notInteger name v.kind)
  | some n => if n < 0 then .error (.negative name) else .ok n

def factorialOf (args : List Value) : Except Fault Value :=
  match args with
  | [] => .error .missingArgument
  | v :: _ =>
    match natural "factorial" v with
    | .error e => .error e
    | .ok n =>
      match Word.factorial? n.toInt.toNat with
      | some m => .ok (.int m)
      | none => .error .overflow

/-- The divisor of the arguments so far and those that follow. -/
def gcdFrom (acc : UInt64) : List Value → Except Fault UInt64
  | [] => .ok acc
  | v :: vs =>
    match v.toInt64? with
    | none => .error (.notInteger "gcd" v.kind)
    | some n => gcdFrom (Word.gcd acc (Word.magnitude n)) vs

/-- The greatest common divisor, never negative. -/
def gcdOf (args : List Value) : Except Fault Value :=
  match gcdFrom 0 args with
  | .error e => .error e
  | .ok g => if 9223372036854775807 < g then .error .overflow else .ok (.int g.toInt64)

def isqrtOf (args : List Value) : Except Fault Value :=
  match args with
  | [] => .error .missingArgument
  | v :: _ =>
    match natural "isqrt" v with
    | .error e => .error e
    | .ok n => .ok (.int (Word.isqrt n))

end FormLang
