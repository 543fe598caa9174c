import FormLang.Numeral
import FormLang.Token.Basic

/-!
# Expressions

An expression is an integer, a float, a symbol or a list of expressions. A hole marks a place where a host supplied no
expression: it prints as nothing and cannot be evaluated.
-/

namespace FormLang

inductive Expr where
  | int (n : Int64)
  | float (f : Float)
  | symbol (name : String)
  | list (items : List Expr)
  | hole
  deriving Inhabited

namespace Expr

/-- A token other than a parenthesis as an expression: an integer if it writes one, else a float, else a symbol. -/
def ofToken (t : Token) : Expr :=
  match Numeral.integer? t.toList with
  | some n => .int n
  | none =>
    match Numeral.float? t.toList with
    | some f => .float f
    | none => .symbol t

inductive Kind where
  | int
  | float
  | symbol
  | list
  deriving DecidableEq, Repr

def Kind.name : Kind → String
  | .int => "Int"
  | .float => "Float"
  | .symbol => "Symbol"
  | .list => "List"

/-- The kind of an expression. A hole has none. -/
def kind? : Expr → Option Kind
  | .int _ => some .int
  | .float _ => some .float
  | .symbol _ => some .symbol
  | .list _ => some .list
  | .hole => none

def isList : Expr → Bool
  | .list _ => true
  | _ => false

mutual

/-- Structural equality. Floats are compared as numbers, so a NaN equals nothing. -/
def equal : Expr → Expr → Bool
  | .int m, .int n => m == n
  | .float f, .float g => f == g
  | .symbol a, .symbol b => a == b
  | .list as, .list bs => equalItems as bs
  | .hole, .hole => true
  | _, _ => false

def equalItems : List Expr → List Expr → Bool
  | [], [] => true
  | a :: as, b :: bs => equal a b && equalItems as bs
  | _, _ => false

end

end Expr

end FormLang
