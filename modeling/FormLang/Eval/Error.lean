import FormLang.Builtin.Fault
import FormLang.Diagnostic

/-!
# Evaluation errors

Why an expression has no value. Printed expressions are kept as texts.
-/

namespace FormLang

inductive EvalError where
  | unbound (name : String)
  | tooDeep (limit : Nat)
  | emptyForm
  | hole
  | ifOperands (count : Nat)
  | defunOperands (count : Nat)
  | defunName (text : String)
  | defunShape (name : String)
  | defunParam (name text : String)
  | defunRepeated (name param : String)
  | formatDestination
  | formatText (text : String)
  | formatUnclosed (text : String)
  | formatArguments (count : Nat)
  /-- A callable was given the wrong number of arguments. -/
  | arity (name : String) (expected actual : Nat)
  /-- So many names cannot be bound to so many values. -/
  | pairing (expected actual : Nat)
  | notCallable (kind : Value.Kind) (head : String)
  | fault (f : Fault)
  /-- A built-in reported a bare message. -/
  | refused (name message : String)
  deriving DecidableEq, Repr

namespace EvalError

def code : EvalError → Code
  | .unbound _ => .name
  | .tooDeep _ => .resource
  | .emptyForm | .notCallable .. => .notCallable
  | .hole => .internal
  | .ifOperands _ | .formatDestination | .formatArguments _ | .arity .. | .pairing .. => .arity
  | .defunOperands _ | .defunName _ | .defunShape _ | .defunParam .. | .defunRepeated .. | .formatText _
  | .formatUnclosed _ => .form
  | .fault f => f.code
  | .refused .. => .arithmetic

/-- The shape that a definition must have. -/
def shape : String :=
  "expected (defun NAME (PARAM...) BODY)"

def argumentCount (expected actual : Nat) : String :=
  "expected " ++ Decimal.ofNat expected ++ " argument(s), got " ++ Decimal.ofNat actual

def message : EvalError → String
  | .unbound name => "name '" ++ name ++ "' is not defined"
  | .tooDeep limit => "maximum recursion depth exceeded (" ++ Decimal.ofNat limit ++ ")"
  | .emptyForm => "cannot evaluate an empty form ()"
  | .hole => "unsupported expression type: <nil>"
  | .ifOperands n => "if: expected 3 operands (cond then else), got " ++ Decimal.ofNat n
  | .defunOperands n => "defun: " ++ shape ++ ", got " ++ Decimal.ofNat n ++ " operand(s)"
  | .defunName text => "defun: function name must be a symbol, got " ++ text
  | .defunShape name => "defun " ++ name ++ ": " ++ shape
  | .defunParam name text => "defun " ++ name ++ ": parameter must be a symbol, got " ++ text
  | .defunRepeated name param => "defun " ++ name ++ ": duplicate parameter '" ++ param ++ "'"
  | .formatDestination => "format: missing destination"
  | .formatText text => "format: format text must be quoted text or an atom, got " ++ text
  | .formatUnclosed text => "format: unterminated format text " ++ text
  | .formatArguments n =>
    "format: expected at most 1 argument after the format text, got " ++ Decimal.ofNat n
  | .arity name expected actual => name ++ ": " ++ argumentCount expected actual
  | .pairing expected actual => argumentCount expected actual
  | .notCallable kind head => "'" ++ kind.name ++ "' object is not callable: " ++ head
  | .fault f => f.message
  | .refused name message => name ++ ": " ++ message

/-- The name that the error is about, if there is one. -/
def subject? : EvalError → Option String
  | .unbound name => some name
  | .ifOperands _ => some "if"
  | .formatDestination | .formatArguments _ => some "format"
  | .arity name _ _ => some name
  | .refused name _ => some name
  | _ => none

def diagnostic (e : EvalError) : Diagnostic :=
  .plain e.code e.message

end EvalError

end FormLang
