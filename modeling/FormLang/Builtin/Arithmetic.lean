import FormLang.Builtin.Fault
import FormLang.Builtin.Word
import FormLang.Binary64.Elementary
import FormLang.Text.Bytes

/-!
# Arithmetic and comparison

The operations that take numbers of any kind. Integers stay integers as long as all operands are, and an integer result
that does not fit is a fault. Booleans count as zero and one.
-/

namespace FormLang

/-! ## Operands -/

/-- All operands are numbers. -/
def checkOperands (op : String) (args : List Value) : Except Fault Unit :=
  match args.find? (!·.isNumber) with
  | none => .ok ()
  | some v =>
    match args with
    | [a, b] => .error (.operands op a.kind b.kind)
    | _ => .error (.operand op v.kind)

/-- Whether a NaN that two operands give is negative: the first NaN operand hands on its sign, and a new NaN is negative. -/
def nanSign (a b : Value) : Bool :=
  if a.isNaN then a.isNegativeNaN else if b.isNaN then b.isNegativeNaN else true

/-! ## Sums, differences and products -/

namespace Arithmetic

def symbol : Arithmetic → String
  | .add => "+"
  | .subtract => "-"
  | .multiply => "*"

def onWords : Arithmetic → Int64 → Int64 → Option Int64
  | .add => Word.add?
  | .subtract => Word.subtract?
  | .multiply => Word.multiply?

def onFloats : Arithmetic → Float → Float → Float
  | .add => (· + ·)
  | .subtract => (· - ·)
  | .multiply => (· * ·)

/-- One step of a fold. Anything that is no number counts as zero; operands are checked before. -/
def combine (op : Arithmetic) (acc next : Value) : Except Fault Value :=
  match acc.integers? next with
  | some (x, y) =>
    match op.onWords x y with
    | some n => .ok (.int n)
    | none => .error .overflow
  | none => .ok (.ofFloat (nanSign acc next) (op.onFloats (acc.toFloat?.getD 0) (next.toFloat?.getD 0)))

def foldFrom (op : Arithmetic) (acc : Value) : List Value → Except Fault Value
  | [] => .ok acc
  | v :: vs =>
    match op.combine acc v with
    | .ok next => op.foldFrom next vs
    | .error e => .error e

/-- A boolean as the integer it counts for; other values stay. -/
def unbool : Value → Value
  | .bool b => .int (if b then 1 else 0)
  | v => v

/-- Combines the operands from left to right. -/
def fold (op : Arithmetic) (args : List Value) : Except Fault Value :=
  match checkOperands op.symbol args with
  | .error e => .error e
  | .ok () =>
    match args with
    | [] => .error .missingArgument
    | v :: vs => op.foldFrom (unbool v) vs

/-- The result of an operation. The difference of a single operand is its negation. -/
def apply (op : Arithmetic) (args : List Value) : Except Fault Value :=
  match op, args with
  | .subtract, [v] => fold .subtract [.int 0, v]
  | op, args => fold op args

end Arithmetic

/-! ## Division -/

/-- Divides by each operand in turn. A zero divisor is an integer division by zero if `integral` and it is an integer. -/
def divideFrom (integral : Bool) (acc : Value) : List Value → Except Fault Value
  | [] => .ok (.ofFloat acc.isNegativeNaN (acc.toFloat?.getD 0))
  | v :: vs =>
    let d := v.toFloat?.getD 0
    if d == 0 then .error (.divisionByZero (v.isInteger && integral))
    else divideFrom integral (.ofFloat (nanSign acc v) (acc.toFloat?.getD 0 / d)) vs

/-- True division, always a float. A single operand is inverted. -/
def quotient (args : List Value) : Except Fault Value :=
  match checkOperands "/" args with
  | .error e => .error e
  | .ok () =>
    match args with
    | [] => .error .missingArgument
    | [v] => divideFrom true (.int 1) [v]
    | v :: vs => divideFrom v.isInteger v vs

/-! ## Comparison -/

namespace Comparison

def symbol : Comparison → String
  | .less => "<"
  | .atMost => "<="
  | .greater => ">"
  | .atLeast => ">="

def accepts : Comparison → Ordering → Bool
  | .less, o => o == .lt
  | .atMost, o => o != .gt
  | .greater, o => o == .gt
  | .atLeast, o => o != .lt

/-- The order of texts by their bytes. -/
def orderTexts (s t : String) : Ordering :=
  if Text.precedes s t then .lt else if Text.precedes t s then .gt else .eq

/-- Texts compare with texts and numbers with numbers. A comparison with a NaN is false. -/
def apply (op : Comparison) (a b : Value) : Except Fault Value :=
  match a, b with
  | .str s, .str t => .ok (.bool (op.accepts (orderTexts s t)))
  | a, b =>
    if !a.isNumber || !b.isNumber then .error (.unordered op.symbol a.kind b.kind)
    else
      match a.compare? b with
      | some o => .ok (.bool (op.accepts o))
      | none => .ok (.bool false)

end Comparison

/-! ## Magnitude and extremes -/

def absolute (args : List Value) : Except Fault Value :=
  match checkOperands "abs" args with
  | .error e => .error e
  | .ok () =>
    match args with
    | [] => .error .missingArgument
    | v :: _ =>
      match v.toInt64? with
      | some n =>
        match Word.absolute? n with
        | some m => .ok (.int m)
        | none => .error .overflow
      | none => .ok (.float (Binary64.abs (v.toFloat?.getD 0)))

namespace Extreme

def name : Extreme → String
  | .largest => "max"
  | .smallest => "min"

/-- Whether a value so ordered to the best one so far replaces it. -/
def improves : Extreme → Option Ordering → Bool
  | .largest, o => o == some .gt
  | .smallest, o => o == some .lt

def search (e : Extreme) (best : Value) : List Value → Value
  | [] => best
  | v :: vs => e.search (if e.improves (v.compare? best) then v else best) vs

/-- The first extreme operand, as it is. -/
def apply (e : Extreme) (args : List Value) : Except Fault Value :=
  match checkOperands e.name args with
  | .error err => .error err
  | .ok () =>
    match args with
    | [] => .error .missingArgument
    | v :: vs => .ok (e.search v vs)

end Extreme

/-! ## Rounding -/

/-- A float rounded to an integer, if it is finite and fits. -/
def floatToInteger (name : String) (d : Binary64.Direction) (f : Float) : Except Fault Value :=
  if Binary64.isNaN f then .error (.nanToInteger name)
  else if Binary64.isInfinite f then .error (.infinityToInteger name)
  else
    let n := Binary64.toInt d f
    if Numeral.fitsInt64 n then .ok (.int (Int64.ofInt n)) else .error .overflow

/-- A float rounded to so many decimal places. Places so many that the scale leaves the range change nothing. -/
def roundFloat (f : Float) (digits : Int64) : Float :=
  let scale := Binary64.power 10 (Binary64.ofInt64 digits)
  if Binary64.isInfinite scale || scale == 0 then f else Binary64.whole .toEven (f * scale) / scale

/-- Rounds ties to even: a single operand to an integer, an operand with a number of digits within its kind. -/
def roundNumber (args : List Value) : Except Fault Value :=
  match checkOperands "round" args with
  | .error e => .error e
  | .ok () =>
    match args with
    | [] => .error .missingArgument
    | [v] =>
      match v.toInt64? with
      | some n => .ok (.int n)
      | none => floatToInteger "round" .toEven (v.toFloat?.getD 0)
    | v :: d :: _ =>
      match d.toInt64? with
      | none => .error (.digits d.kind)
      | some digits =>
        match v.toInt64? with
        | some n =>
          match Word.round? n digits with
          | some m => .ok (.int m)
          | none => .error .overflow
        | none => .ok (.ofFloat v.isNegativeNaN (roundFloat (v.toFloat?.getD 0) digits))

end FormLang
