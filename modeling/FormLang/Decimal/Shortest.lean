import FormLang.Binary64.Basic

/-!
# The fewest digits that read back

Of all decimals that round to a given double, the one with the fewest digits; of several, the one nearest to the
double, and of two equally near the one with an even last digit.

The reals that round to a double form an interval whose ends belong to it exactly when the mantissa is even. For each
number of digits, only the two neighbours of the double on that decimal grid can be nearest.
-/

namespace FormLang.Decimal

/-- A positive decimal `digits * 10 ^ exponent`. -/
structure Scaled where
  digits : Nat
  exponent : Int
  deriving DecidableEq, Repr

/-- A positive double and the ends of its rounding interval, as numerators over `den`. -/
structure Interval where
  low : Nat
  value : Nat
  high : Nat
  den : Nat
  closed : Bool

/-- The interval of reals that round to the finite nonzero magnitude `bits`. -/
def Interval.ofBits (bits : Nat) : Interval :=
  let m := Binary64.mantissa bits
  let e := Binary64.exponent bits - 2
  -- Below a power of two the spacing is half as wide.
  let gap := if m = Nat.pow 2 52 && 1 < bits / Nat.pow 2 52 then 1 else 2
  let up := if 0 ≤ e then Nat.pow 2 e.toNat else 1
  let den := if 0 ≤ e then 1 else Nat.pow 2 (-e).toNat
  { low := (4 * m - gap) * up, value := 4 * m * up, high := (4 * m + 2) * up, den := den
    closed := m % 2 = 0 }

/-- Multiplies by `10 ^ (-e)`, so that steps of `10 ^ e` become steps of one. -/
def Interval.shift (iv : Interval) (e : Int) : Interval :=
  if 0 ≤ e then { iv with den := iv.den * Nat.pow 10 e.toNat }
  else
    let s := Nat.pow 10 (-e).toNat
    { iv with low := iv.low * s, value := iv.value * s, high := iv.high * s }

/-- Whether the integer `c` lies in the interval. -/
def Interval.holds (iv : Interval) (c : Nat) : Bool :=
  if iv.closed then iv.low ≤ c * iv.den && c * iv.den ≤ iv.high
  else iv.low < c * iv.den && c * iv.den < iv.high

/-- The integer in the interval that is nearest to the value, if one of its two neighbours lies in it. -/
def Interval.nearest? (iv : Interval) : Option Nat :=
  let c := iv.value / iv.den
  let r := iv.value % iv.den
  match iv.holds c, iv.holds (c + 1) with
  | true, true => some (if 2 * r < iv.den || (2 * r = iv.den && c % 2 = 0) then c else c + 1)
  | true, false => some c
  | false, true => some (c + 1)
  | false, false => none

/-- The exponent of the leading decimal digit of `value / den`. -/
def Interval.leading (iv : Interval) : Int :=
  let guess := (((iv.value.log2 : Int) - iv.den.log2) * 30103).fdiv 100000
  let reaches (p : Int) : Bool := (iv.shift p).den ≤ (iv.shift p).value
  if reaches (guess + 1) then guess + 1 else if reaches guess then guess else guess - 1

/-- Tries ever finer grids, `steps` of them, starting with step `10 ^ e`. -/
def Interval.search (iv : Interval) (e : Int) : (steps : Nat) → Scaled
  | 0 => ⟨iv.value / iv.den, 0⟩
  | n + 1 =>
    match (iv.shift e).nearest? with
    | some c => ⟨c, e⟩
    | none => iv.search (e - 1) n

/-- Moves trailing zeros of the digits into the exponent, at most `steps` of them. -/
def Scaled.strip (s : Scaled) : (steps : Nat) → Scaled
  | 0 => s
  | n + 1 => if s.digits % 10 = 0 && s.digits ≠ 0 then Scaled.strip ⟨s.digits / 10, s.exponent + 1⟩ n else s

/-- The shortest decimal of a finite nonzero magnitude. Seventeen digits always suffice. -/
def shortest (bits : Nat) : Scaled :=
  let iv := Interval.ofBits bits
  (iv.search iv.leading 17).strip 17

end FormLang.Decimal
