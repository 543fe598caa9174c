import FormLang.Builtin.Analysis
import FormLang.Builtin.Integers

/-!
# Operations applied

The result of each operation, and the numbers of arguments that a built-in takes.
-/

namespace FormLang

def Operation.apply (op : Operation) (args : List Value) : Except Fault Value :=
  match op with
  | .arithmetic op => op.apply args
  | .divide => quotient args
  | .compare op =>
    match args with
    | a :: b :: _ => op.apply a b
    | _ => .error .missingArgument
  | .equal =>
    match args with
    | a :: b :: _ => .ok (.bool (a.equal b))
    | _ => .error .missingArgument
  | .unequal =>
    match args with
    | a :: b :: _ => .ok (.bool !(a.equal b))
    | _ => .error .missingArgument
  | .abs => absolute args
  | .extreme e => e.apply args
  | .round => roundNumber args
  | .not =>
    match args with
    | v :: _ => .ok (.bool !v.truthy)
    | [] => .error .missingArgument
  | .power => raisePower args
  | .log => logarithm args
  | .unary f => f.apply args
  | .binary f => f.apply args
  | .classify c => c.apply args
  | .toInteger d => convertToInteger d args
  | .factorial => factorialOf args
  | .gcd => gcdOf args
  | .isqrt => isqrtOf args
  | .fail message => .error (.bare message)
  | .raise code message => .error (.raised code message)
  | .first =>
    match args with
    | v :: _ => .ok v
    | [] => .error .missingArgument

/-- Whether the built-in takes so many arguments. -/
def Builtin.takes (b : Builtin) (n : Nat) : Bool :=
  b.least ≤ n && (match b.most with
    | some most => n ≤ most
    | none => true)

/-- The number of arguments that is named when `n` is wrong: the least if `n` is too small, else the largest. -/
def Builtin.expected (b : Builtin) (n : Nat) : Nat :=
  if b.least < n then b.most.getD 0 else b.least

end FormLang
