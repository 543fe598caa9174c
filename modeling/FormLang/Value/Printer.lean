import FormLang.Expr.Printer
import FormLang.Json.Basic
import FormLang.Value.Basic

/-!
# Printed values

A value as the text of the language and as JSON.
-/

namespace FormLang

/-- Floats of JSON: positional from `1e-6` up to `1e21`, whole numbers without a point. -/
def jsonLayout : Decimal.Layout where
  least := -6
  bound := 21
  keepPoint := false
  width := 1
  nan := "nan"
  infinity := "inf"

namespace Value

def text : Value → String
  | .int n => Decimal.ofInt64 n
  | .float f => floatText f
  | .negativeNaN => floatText Binary64.notANumber
  | .str s => s
  | .bool b => if b then "True" else "False"
  | .function f => "<function " ++ f.name ++ " (" ++ " ".intercalate f.params ++ ")>"
  | .builtin b => "<built-in function " ++ b.name ++ ">"
  | .void => ""

/-- The value in a listing of names, where a void has a mark of its own. -/
def listed : Value → String
  | .void => "%!s(<nil>)"
  | v => v.text

/-- JSON has no literal for a float that is not finite, so its text stands for it. -/
def floatJson (f : Float) : Json :=
  if Binary64.isFinite f then .num (jsonLayout.write f) else .str (floatText f)

def toJson : Value → Json
  | .int n => .num (Decimal.ofInt64 n)
  | .float f => floatJson f
  | .negativeNaN => floatJson Binary64.notANumber
  | .str s => .str s
  | .bool b => .bool b
  | .function f =>
    .obj [("function", .str f.name), ("params", .arr (f.params.map .str)), ("body", .str f.body.flat)]
  | .builtin b => .obj [("builtin", .str b.name)]
  | .void => .null

/-- The value as a program prints it: its text if pretty, else its JSON. -/
def render (v : Value) (pretty : Bool) : String :=
  if pretty then v.text else v.toJson.compact

end Value

end FormLang
