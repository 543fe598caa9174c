/-!
# Double precision numbers as words

A double is a sign and a magnitude word. The magnitude is read as mantissa times a power of two, and a ratio of
naturals is rounded to the nearest magnitude, ties to the even mantissa. All of it is exact natural arithmetic on the
64-bit pattern.
-/

namespace FormLang.Binary64

/-- The pattern without its sign. -/
def magnitude (f : Float) : Nat :=
  f.toBits.toNat % Nat.pow 2 63

/-- The sign bit, which zeros and NaNs have too. -/
def isNegative (f : Float) : Bool :=
  Nat.pow 2 63 ≤ f.toBits.toNat

/-- The magnitude of infinity; a NaN lies above it. -/
def infinityBits : Nat :=
  0x7FF * Nat.pow 2 52

def isNaN (f : Float) : Bool :=
  infinityBits < magnitude f

def isInfinite (f : Float) : Bool :=
  magnitude f = infinityBits

def isFinite (f : Float) : Bool :=
  magnitude f < infinityBits

/-- The double with this sign and magnitude. -/
def ofMagnitude (negative : Bool) (bits : Nat) : Float :=
  Float.ofBits (UInt64.ofNat (if negative then Nat.pow 2 63 + bits else bits))

def infinity : Float :=
  ofMagnitude false infinityBits

def notANumber : Float :=
  ofMagnitude false (infinityBits + 1)

def negate (f : Float) : Float :=
  ofMagnitude (!isNegative f) (magnitude f)

/-- The magnitude of `f` with the sign of `g`. -/
def copySign (f g : Float) : Float :=
  ofMagnitude (isNegative g) (magnitude f)

def abs (f : Float) : Float :=
  ofMagnitude false (magnitude f)

/-- A finite magnitude word is `mantissa * 2 ^ exponent`. -/
def mantissa (bits : Nat) : Nat :=
  if bits / Nat.pow 2 52 = 0 then bits % Nat.pow 2 52 else Nat.pow 2 52 + bits % Nat.pow 2 52

def exponent (bits : Nat) : Int :=
  if bits / Nat.pow 2 52 = 0 then -1074 else (bits / Nat.pow 2 52 : Nat) - 1075

/-! ## Rounding a ratio -/

/-- `num / den` rounded to the nearest natural, ties to even. -/
def divNearest (num den : Nat) : Nat :=
  let q := num / den
  let r := num % den
  if den < 2 * r || (2 * r = den && q % 2 = 1) then q + 1 else q

/-- Numerator and denominator of `num / den` divided by `2 ^ e`. -/
def scaleDown (num den : Nat) (e : Int) : Nat × Nat :=
  if 0 ≤ e then (num, den * Nat.pow 2 e.toNat) else (num * Nat.pow 2 (-e).toNat, den)

/-- The exponent at which a positive `num / den` has a mantissa of 53 bits, but never below the least exponent. -/
def ratioExponent (num den : Nat) : Int :=
  let e : Int := (num.log2 : Int) - den.log2 - 53
  let (n, d) := scaleDown num den e
  max (if n / d < Nat.pow 2 53 then e else e + 1) (-1074)

/-- The magnitude word nearest to `num / den`. It reaches `infinityBits` when the ratio is too large. -/
def ofRatio (num den : Nat) : Nat :=
  if num = 0 then 0
  else
    let e := ratioExponent num den
    let (n, d) := scaleDown num den e
    (e + 1074).toNat * Nat.pow 2 52 + divNearest n d

/-- The double nearest to a word. -/
def ofInt64 (n : Int64) : Float :=
  ofMagnitude (n < 0) (ofRatio n.toInt.natAbs 1)

/-- The magnitude word nearest to `m * 10 ^ e`. Exponents far outside the range are decided without computing the power. -/
def ofDecimal (m : Nat) (e : Int) : Nat :=
  if m = 0 then 0
  else
    let lead : Int := (Nat.toDigits 10 m).length + e
    if 320 < lead then infinityBits
    else if lead < -340 then 0
    else if 0 ≤ e then ofRatio (m * Nat.pow 10 e.toNat) 1 else ofRatio m (Nat.pow 10 (-e).toNat)

/-- The magnitude word nearest to `m * 2 ^ e`. -/
def ofBinary (m : Nat) (e : Int) : Nat :=
  if m = 0 then 0
  else
    let lead : Int := m.log2 + e
    if 1100 < lead then infinityBits
    else if lead < -1100 then 0
    else if 0 ≤ e then ofRatio (m * Nat.pow 2 e.toNat) 1 else ofRatio m (Nat.pow 2 (-e).toNat)

end FormLang.Binary64
