import FormLang.Eval.Error
import FormLang.Expr.Printer
import FormLang.Text.Replace

/-!
# Special forms

The parts of the forms `defun` and `format`, checked before anything is evaluated.
-/

namespace FormLang

/-! ## Definitions -/

structure Definition where
  name : String
  params : List String
  body : Expr

namespace Definition

/-- The parameters, given those before them (newest first). Each is a symbol and none is repeated. -/
def paramsFrom (name : String) (seen : List String) : List Expr → Except EvalError (List String)
  | [] => .ok seen.reverse
  | .symbol p :: rest =>
    if seen.contains p then .error (.defunRepeated name p) else paramsFrom name (p :: seen) rest
  | e :: _ => .error (.defunParam name e.flat)

/-- The definition that the operands of `defun` make. -/
def ofOperands : List Expr → Except EvalError Definition
  | [.symbol name, .list params, body] =>
    match paramsFrom name [] params with
    | .ok ps => .ok ⟨name, ps, body⟩
    | .error e => .error e
  | [.symbol name, _, _] => .error (.defunShape name)
  | [e, _, _] => .error (.defunName e.flat)
  | ops => .error (.defunOperands ops.length)

end Definition

/-! ## Format texts -/

namespace FormatText

def quoteMark : String := "\""

/-- Whether the operand opens a quoted text. -/
def opens : Expr → Bool
  | .symbol name => Text.startsWith quoteMark name
  | _ => false

/-- Whether the operand closes a quoted text. A lone quote that opens one does not close it too. -/
def closes (isFirst : Bool) : Expr → Bool
  | .symbol name => Text.endsWith quoteMark name && !(isFirst && name = quoteMark)
  | _ => false

/-- The words of a quoted text and the operands after it, given the words so far (newest first). -/
def gather (isFirst : Bool) (done : List String) : List Expr → Except EvalError (List String × List Expr)
  | [] => .error (.formatUnclosed (" ".intercalate done.reverse))
  | e :: rest =>
    if closes isFirst e then .ok ((e.flat :: done).reverse, rest) else gather false (e.flat :: done) rest

/-- Separates the words of the format text from the operands after it. Text without quotes is a single atom. -/
def split : List Expr → Except EvalError (List String × List Expr)
  | [] => .ok ([], [])
  | e :: rest =>
    if opens e then gather true [] (e :: rest)
    else if e.isList then .error (.formatText e.flat)
    else .ok ([e.flat], rest)

/-- The directive for a number with a line end, which goes before the one for a line end alone. -/
def numberDirective : String := "~D~%"

def lineDirective : String := "~%"

/-- The words without quotes, with the first directive replaced. -/
def fill (words : List String) (value : String) : String :=
  let text := Text.erase '"' (" ".intercalate words)
  if Text.hasInfix numberDirective text then Text.replaceFirst numberDirective value text
  else Text.replaceFirst lineDirective value text

end FormatText

end FormLang
