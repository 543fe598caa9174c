import FormLang.Binary64.Series

/-!
# Elementary functions

Powers by repeated squaring, the binary logarithm, the length of a right triangle's longest side, and the exponential and
logarithm near one. Each is evaluated in double precision in a fixed order of operations.
-/

namespace FormLang.Binary64

/-! ## Powers -/

/-- A product `value * 2 ^ power`. -/
structure Product where
  value : Float
  power : Int

/-- Squares a factor whose value lies in `[1/2, 1)`. -/
def Product.square (x : Product) : Product :=
  let v := x.value * x.value
  if v < 0.5 then ⟨v + v, 2 * x.power - 1⟩ else ⟨v, 2 * x.power⟩

/-- Multiplies `acc` by the factor raised to `n`, at most `steps` squarings long. Once the power of the factor is out of
range it alone decides the result. -/
def Product.raise (acc factor : Product) (n : Nat) : (steps : Nat) → Product
  | 0 => acc
  | steps + 1 =>
    if n = 0 then acc
    else if factor.power < -4096 || 4096 < factor.power then { acc with power := acc.power + factor.power }
    else
      let acc := if n % 2 = 1 then ⟨acc.value * factor.value, acc.power + factor.power⟩ else acc
      acc.raise factor.square (n / 2) steps

def isOdd (f : Float) : Bool :=
  isWhole f && isFinite f && wholeMagnitude .toZero f % 2 = 1

/-- `x ^ y` for finite `x` that is not zero and finite `y`. -/
def powerFinite (x y : Float) : Float :=
  let n := wholeMagnitude .toZero y
  let frac := abs y - whole .toZero (abs y)
  if frac != 0 && x < 0 then notANumber
  else if Nat.pow 2 63 ≤ n then
    if x == -1 then 1 else if (abs x < 1) == (y > 0) then 0 else infinity
  else
    let (frac, n) := if frac > 0.5 then (frac - 1, n + 1) else (frac, n)
    let start : Product := ⟨if frac != 0 then expSeries (frac * logSeries x) else 1, 0⟩
    let (v, p) := splitPower x
    let r := start.raise ⟨v, p⟩ n 64
    if y < 0 then scale (1 / r.value) (-r.power) else scale r.value r.power

/-- `x ^ y` for infinite `x` or zero `x`. -/
def powerExtreme (x y : Float) : Float :=
  let small := (magnitude x = 0) == (y > 0)
  let negative := isNegative x && isOdd y
  if small then ofMagnitude negative 0 else ofMagnitude negative infinityBits

/-- `x ^ y` in double precision. -/
def power (x y : Float) : Float :=
  if y == 0 || x == 1 then 1
  else if y == 1 then x
  else if isNaN x || isNaN y then notANumber
  else if magnitude x = 0 then powerExtreme x y
  else if isInfinite y then
    if x == -1 then 1 else if (abs x < 1) == (y > 0) then 0 else infinity
  else if isInfinite x then powerExtreme x y
  else if y == 0.5 then x.sqrt
  else if y == -0.5 then 1 / x.sqrt
  else powerFinite x y

/-- A power that is infinite as soon as `power` is. -/
def powerInRange (x y : Float) : Float :=
  if isFinite x && isFinite y && isInfinite (power x y) then power x y else Float.pow x y

/-! ## Logarithms and lengths -/

/-- The binary logarithm; exact for powers of two. -/
def log2 (x : Float) : Float :=
  let (frac, n) := splitPower x
  if frac == 0.5 then Float.ofInt (n - 1) else frac.log * 1.4426950408889634 + Float.ofInt n

/-- The length of the longest side of a right triangle. -/
def hypotenuse (a b : Float) : Float :=
  if isInfinite a || isInfinite b then infinity
  else if isNaN a || isNaN b then notANumber
  else
    let p := if abs a < abs b then abs b else abs a
    let q := if abs a < abs b then abs a else abs b
    if p == 0 then 0
    else
      let r := q / p
      p * (1 + r * r).sqrt

/-! ## The exponential and hyperbolic functions -/

/-- Whether the exponential of a finite argument is out of range. -/
def expOverflows (x : Float) : Bool :=
  isFinite x && isInfinite (expSeries x)

/-- The exponential. The range ends where the series ends. -/
def exponential (x : Float) : Float :=
  if expOverflows x then infinity else x.exp

/-- The hyperbolic sine. It is half an exponential far from zero, and is infinite as soon as the exponential is. -/
def hyperbolicSine (x : Float) : Float :=
  if expOverflows (abs x) then copySign infinity x else x.sinh

/-- The hyperbolic cosine, infinite as soon as the exponential is. -/
def hyperbolicCosine (x : Float) : Float :=
  if expOverflows (abs x) then infinity else x.cosh

/-! ## Near one -/

/-- Adds `k` to the exponent of a normal double. -/
def addExponent (f : Float) (k : Int) : Float :=
  Float.ofBits (f.toBits + UInt64.ofInt (k * Int.pow 2 52))

/-- The argument less a multiple of the logarithm of two: the reduced argument, its correction and the multiple. -/
def reduceExp (x : Float) : Float × Float × Int :=
  let reduced (high low : Float) (k : Int) : Float × Float × Int :=
    let r := high - low
    (r, (high - r) - low, k)
  if abs x < 1.03972077083991796413e+00 then
    if x < 0 then reduced (x + ln2High) (-ln2Low) (-1) else reduced (x - ln2High) ln2Low 1
  else
    let half : Float := if x < 0 then -0.5 else 0.5
    let k := toInt .toZero (1.44269504088896338700e+00 * x + half)
    let t := Float.ofInt k
    reduced (x - t * ln2High) (t * ln2Low) k

/-- The exponential less one, from a reduced argument. -/
def expm1Reduced (x c : Float) (k : Int) : Float :=
  let half := 0.5 * x
  let sq := x * half
  let r := polynomial sq
    [1, -3.33333333333331316428e-02, 1.58730158725481460165e-03, -7.93650757867487942473e-05,
      4.00821782732936239552e-06, -2.01099218183624371326e-07]
  let t := 3 - r * half
  let e := sq * ((r - t) / (6 - x * t))
  if k = 0 then x - (x * e - sq)
  else
    let e := (x * (e - c) - c) - sq
    if k = -1 then 0.5 * (x - e) - 0.5
    else if k = 1 then
      if x < -0.25 then -2 * (e - (x + 0.5)) else 1 + 2 * (x - e)
    else if k ≤ -2 || 56 < k then addExponent (1 - (e - x)) k - 1
    else if k < 20 then addExponent ((1 - scale 1 (-k)) - (e - x)) k
    else addExponent ((x - (e + scale 1 (-k))) + 1) k

/-- The exponential less one, accurate near zero. -/
def expm1 (x : Float) : Float :=
  if isNaN x then x
  else if isInfinite x then if isNegative x then -1 else x
  else if abs x ≥ 3.88162421113569373274e+01 && x < 0 then -1
  else if x ≥ 7.09782712893383973096e+02 then infinity
  else if abs x > 3.46573590279972654709e-01 then
    let (r, c, k) := reduceExp x
    expm1Reduced r c k
  else if abs x < scale 1 (-54) then x
  else expm1Reduced x 0 0

/-- The logarithm of `2 ^ k * (1 + f)` with correction `c`; `tiny` says that `f` is below `2 ^ (-20)`. -/
def log1pReduced (f c : Float) (k : Int) (tiny : Bool) : Float :=
  let half := 0.5 * f * f
  let n := Float.ofInt k
  if tiny then
    if f == 0 then if k = 0 then 0 else n * ln2High + (c + n * ln2Low)
    else
      let r := half * (1 - 0.66666666666666666 * f)
      if k = 0 then f - r else n * ln2High - ((r - (n * ln2Low + c)) - f)
  else
    let s := f / (2 + f)
    let z := s * s
    let r := z * polynomial z
      [6.666666666666735130e-01, 3.999999999940941908e-01, 2.857142874366239149e-01, 2.222219843214978396e-01,
        1.818357216161805012e-01, 1.531383769920937332e-01, 1.479819860511658591e-01]
    if k = 0 then f - (half - s * (half + r))
    else n * ln2High - ((half - (s * (half + r) + (n * ln2Low + c))) - f)

/-- The logarithm of one plus the argument, accurate near zero. -/
def log1p (x : Float) : Float :=
  if isNaN x || x < -1 then notANumber
  else if x == -1 then -infinity
  else if isInfinite x then infinity
  else if abs x < scale 1 (-54) then x
  else if abs x < scale 1 (-29) then x - x * x * 0.5
  else if abs x < 4.142135623730950488017e-01 && x > -2.928932188134524755992e-01 then log1pReduced x 0 0 false
  else
    let small := abs x < scale 1 53
    let u := if small then 1 + x else x
    let k : Int := (u.toBits.toNat / Nat.pow 2 52 : Nat) - 1023
    let c := if small then (if 0 < k then 1 - (u - x) else x - (u - 1)) / u else 0
    let frac := u.toBits.toNat % Nat.pow 2 52
    if frac < 0x0006a09e667f3bcd then
      log1pReduced (ofMagnitude false (0x3ff * Nat.pow 2 52 + frac) - 1) c k (frac = 0)
    else
      log1pReduced (ofMagnitude false (0x3fe * Nat.pow 2 52 + frac) - 1) c (k + 1) ((Nat.pow 2 52 - frac) / 4 = 0)

end FormLang.Binary64
