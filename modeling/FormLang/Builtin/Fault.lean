import FormLang.Value.Basic

/-!
# Faults

Why a built-in operation has no result.
-/

namespace FormLang

inductive Fault where
  /-- Two operands of which one at least is no number. -/
  | operands (op : String) (a b : Value.Kind)
  /-- Another number of operands, with the first that is no number. -/
  | operand (op : String) (a : Value.Kind)
  | unordered (op : String) (a b : Value.Kind)
  | overflow
  | divisionByZero (integers : Bool)
  | digits (a : Value.Kind)
  | nanToInteger (name : String)
  | infinityToInteger (name : String)
  | notReal (name : String) (a : Value.Kind)
  | domain (name : String)
  | range (name : String)
  /-- The logarithm of the base is zero. -/
  | logBase
  | notInteger (name : String) (a : Value.Kind)
  | negative (name : String)
  /-- An operation was given fewer arguments than it reads. No call that passes its arity check does so. -/
  | missingArgument
  /-- An error that a host raises with a code of its own. -/
  | raised (code : Code) (message : String)
  /-- An error that a host reports as a bare message. -/
  | bare (message : String)
  deriving DecidableEq, Repr

namespace Fault

def code : Fault → Code
  | .operands .. | .operand .. | .unordered .. | .digits _ | .notReal .. | .notInteger .. => .type
  | .missingArgument => .internal
  | .raised code _ => code
  | _ => .arithmetic

def quoteKind (k : Value.Kind) : String :=
  "'" ++ k.name ++ "'"

def message : Fault → String
  | .operands op a b =>
    "unsupported operand type(s) for " ++ op ++ ": " ++ quoteKind a ++ " and " ++ quoteKind b
  | .operand op a => "unsupported operand type for " ++ op ++ ": " ++ quoteKind a
  | .unordered op a b =>
    "'" ++ op ++ "' not supported between instances of " ++ quoteKind a ++ " and " ++ quoteKind b
  | .overflow => "integer overflow"
  | .divisionByZero integers => if integers then "division by zero" else "float division by zero"
  | .digits a => "round: ndigits must be an integer, not " ++ quoteKind a
  | .nanToInteger name => name ++ ": cannot convert float NaN to integer"
  | .infinityToInteger name => name ++ ": cannot convert float infinity to integer"
  | .notReal name a => name ++ ": must be real number, not " ++ a.name
  | .domain name => name ++ ": math domain error"
  | .range name => name ++ ": math range error"
  | .logBase => "log: float division by zero"
  | .notInteger name a => name ++ ": " ++ quoteKind a ++ " object cannot be interpreted as an integer"
  | .negative name => name ++ ": not defined for negative values"
  | .missingArgument => "missing argument"
  | .raised _ message => message
  | .bare message => message

end Fault

end FormLang
