import FormLang.Binary64.Basic

/-!
# Whole parts and remainders

Rounding a double to a whole number in each of the usual directions, and the exact remainder of a division. The results
are exact: they come from natural arithmetic on mantissas.
-/

namespace FormLang.Binary64

/-- A direction of rounding, on the magnitude `num / den` of a number with the given sign. -/
inductive Direction where
  | toZero
  | toEven
  | down
  | up
  deriving DecidableEq, Repr

def Direction.apply (d : Direction) (negative : Bool) (num den : Nat) : Nat :=
  match d with
  | .toZero => num / den
  | .toEven => divNearest num den
  | .down => if negative then (num + den - 1) / den else num / den
  | .up => if negative then num / den else (num + den - 1) / den

/-- The magnitude of a finite double as a natural number, rounded. -/
def wholeMagnitude (d : Direction) (f : Float) : Nat :=
  let m := mantissa (magnitude f)
  let e := exponent (magnitude f)
  if 0 ≤ e then m * Nat.pow 2 e.toNat else d.apply (isNegative f) m (Nat.pow 2 (-e).toNat)

/-- A finite double rounded to an integer. -/
def toInt (d : Direction) (f : Float) : Int :=
  if isNegative f then -(wholeMagnitude d f : Int) else wholeMagnitude d f

/-- A double rounded toward zero to a word. What does not fit gives the nearest word, and a NaN gives zero. -/
def toWord (f : Float) : Int64 :=
  if isNaN f then 0 else Int64.ofIntClamp (toInt .toZero f)

/-- A double rounded to a whole double. Zero keeps the sign of the argument, and what is not finite stays. -/
def whole (d : Direction) (f : Float) : Float :=
  if isFinite f && exponent (magnitude f) < 0 then ofMagnitude (isNegative f) (ofRatio (wholeMagnitude d f) 1)
  else f

/-- Whether a double is a whole number. Infinities count as whole. -/
def isWhole (f : Float) : Bool :=
  !isNaN f && (whole .toZero f).toBits = f.toBits

/-- The remainder of `x / y` with the quotient rounded toward zero; it has the sign of `x`. -/
def remainder (x y : Float) : Float :=
  if isNaN x || isNaN y || isInfinite x || magnitude y = 0 then notANumber
  else if isInfinite y then x
  else
    let ex := exponent (magnitude x)
    let ey := exponent (magnitude y)
    let e := min ex ey
    let a := mantissa (magnitude x) * Nat.pow 2 (ex - e).toNat
    let b := mantissa (magnitude y) * Nat.pow 2 (ey - e).toNat
    ofMagnitude (isNegative x) (ofBinary (a % b) e)

end FormLang.Binary64
