import FormLang.Decimal.Layout
import FormLang.Expr.Basic
import FormLang.Text.Bytes

/-!
# Printed expressions

An expression on one line with single spaces, or broken over lines where it would pass 72 bytes. A broken form keeps
its head and its first operand on the opening line, and the others follow one deeper.
-/

namespace FormLang

/-- Floats of the language: positional from `1e-4` up to `1e16`, always with a point or an exponent of two digits. -/
def floatLayout : Decimal.Layout where
  least := -4
  bound := 16
  keepPoint := true
  width := 2
  nan := "nan"
  infinity := "inf"

def floatText (f : Float) : String :=
  floatLayout.write f

namespace Expr

mutual

/-- The expression on one line. -/
def flat : Expr → String
  | .int n => Decimal.ofInt64 n
  | .float f => floatText f
  | .symbol name => name
  | .list items => "(" ++ " ".intercalate (flatItems items) ++ ")"
  | .hole => ""

def flatItems : List Expr → List String
  | [] => []
  | e :: rest => flat e :: flatItems rest

end

/-- The width in bytes beyond which a form is broken over lines. -/
def lineWidth : Nat := 72

def indent (depth : Nat) : String :=
  String.ofList (List.replicate (2 * depth) ' ')

/-- Appends to the last line. -/
def extendLast (suffix : String) : List String → List String
  | [] => []
  | [line] => [line ++ suffix]
  | line :: rest => line :: extendLast suffix rest

/-- Whether the expression stays on one line at this depth: it fits, or it has too few parts to break. -/
def staysFlat (depth : Nat) (e : Expr) : Bool :=
  match e with
  | .list (_ :: _ :: _ :: _) => 2 * depth + Text.size (flat e) ≤ lineWidth
  | _ => true

mutual

/-- The lines of an expression that is nested so deep. -/
def prettyLines (depth : Nat) : Expr → List String
  | .list (head :: first :: rest) =>
    if staysFlat depth (.list (head :: first :: rest)) then
      [indent depth ++ flat (.list (head :: first :: rest))]
    else
      extendLast ")" ((indent depth ++ "(" ++ flat head ++ " " ++ flat first) :: prettyItems (depth + 1) rest)
  | e => [indent depth ++ flat e]

def prettyItems (depth : Nat) : List Expr → List String
  | [] => []
  | e :: rest => prettyLines depth e ++ prettyItems depth rest

end

/-- The expression over as many lines as it needs. -/
def pretty (e : Expr) : String :=
  "\n".intercalate (prettyLines 0 e)

end Expr

end FormLang
