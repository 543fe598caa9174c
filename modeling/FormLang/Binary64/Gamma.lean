import FormLang.Binary64.Elementary

/-!
# The gamma function

The gamma function and the logarithm of its magnitude: Stirling's series for large arguments, rational approximations
after a reduction for small ones, and the reflection formula below zero.
-/

namespace FormLang.Binary64

def pi : Float := 3.141592653589793

/-! ## Gamma -/

/-- Stirling's approximation as two factors, so that their product overflows no sooner than it must. -/
def stirling (x : Float) : Float × Float :=
  if x > 200 then (infinity, 1)
  else
    let w := 1 / x
    let w := 1 + w * polynomial w
      [8.33333333333482257126e-02, 3.47222221605458667310e-03, -2.68132617805781232825e-03,
        -2.29549961613378126380e-04, 7.87311395793093628397e-04]
    let y := expSeries x
    if x > 143.01608 then
      let v := power x (0.5 * x - 0.25)
      (v, 2.506628274631000502417 * w * (v / y))
    else (power x (x - 0.5) / y, 2.506628274631000502417 * w * 1)

/-- Gamma below -33, by reflection. -/
def gammaReflected (x : Float) : Float :=
  let q := abs x
  let p := whole .down q
  let sign : Float := if isOdd p then 1 else -1
  let z := q - p
  let z := if z > 0.5 then q - (p + 1) else z
  let z := abs (q * sinSeries (pi * z))
  if z == 0 then sign * infinity
  else
    let (a, b) := stirling q
    let d := z * a * b
    sign * (if isInfinite d then pi / z / a / b else pi / d)

/-- Gamma near zero. -/
def gammaNearZero (x z : Float) : Float :=
  if x == 0 then infinity else z / ((1 + 0.57721566490153286060651209008240243104215933593992 * x) * x)

/-- Gamma on `[2, 3)` by a rational approximation, times the factor `z`. -/
def gammaBase (x z : Float) : Float :=
  if x == 2 then z
  else
    let y := x - 2
    let p := polynomial y
      [9.99999999999999996796e-01, 4.94214826801497100753e-01, 2.07448227648435975150e-01,
        4.76367800457137231464e-02, 1.04213797561761569935e-02, 1.19135147006586384913e-03,
        1.60119522476751861407e-04]
    let q := polynomial y
      [1.00000000000000000320e+00, 7.14304917030273074085e-02, -2.34591795718243348568e-01,
        3.58236398605498653373e-02, 1.18139785222060435552e-02, -4.45641913851797240494e-03,
        5.39605580493303397842e-04, -2.31581873324120129819e-05]
    z * p / q

/-- Moves the argument up into `[2, 3)`, dividing the factor on the way. -/
def gammaRaise (x z : Float) : (steps : Nat) → Float
  | 0 => gammaBase x z
  | n + 1 =>
    if x < 2 then
      if (x < 0 && x > -1e-09) || (x ≥ 0 && x < 1e-09) then gammaNearZero x z
      else gammaRaise (x + 1) (z / x) n
    else gammaBase x z

/-- Moves the argument down below three, multiplying the factor on the way. -/
def gammaLower (x z : Float) : (steps : Nat) → Float
  | 0 => gammaRaise x z 40
  | n + 1 => if x ≥ 3 then gammaLower (x - 1) (z * (x - 1)) n else gammaRaise x z 40

/-- The gamma function; at zero and the negative integers it has no value. -/
def gamma (x : Float) : Float :=
  if isNaN x || (x < 0 && isWhole x) then notANumber
  else if isInfinite x then infinity
  else if x == 0 then copySign infinity x
  else if abs x > 33 then
    if x < 0 then gammaReflected x
    else
      let (a, b) := stirling x
      a * b
  else gammaLower x 1 40

/-! ## The logarithm of gamma -/

/-- The sine of `-π x` for positive `x`, reduced exactly. -/
def sinPi (x : Float) : Float :=
  if x < 0.25 then -sinSeries (pi * x)
  else
    let r := remainder x 2
    match toInt .toZero (r * 4) with
    | 0 => -sinSeries (pi * r)
    | 1 | 2 => -cosSeries (pi * (0.5 - r))
    | 3 | 4 => -sinSeries (pi * (1 - r))
    | 5 | 6 => cosSeries (pi * (r - 1.5))
    | _ => -sinSeries (pi * (r - 2))

/-- Near the zero at two, in the distance below it. -/
def lgammaBelowTwo (y : Float) : Float :=
  let z := y * y
  let p := polynomial z
    [7.72156649015328655494e-02, 6.73523010531292681824e-02, 7.38555086081402883957e-03,
      1.19270763183362067845e-03, 2.20862790713908385557e-04, 2.52144565451257326939e-05]
  let q := z * polynomial z
    [3.22467033424113591611e-01, 2.05808084325167332806e-02, 2.89051383673415629091e-03,
      5.10069792153511336608e-04, 1.08011567247583939954e-04, 4.48640949618915160150e-05]
  (y * p + q) - 0.5 * y

/-- Near the minimum, in the distance from it. -/
def lgammaNearMinimum (y : Float) : Float :=
  let z := y * y
  let w := z * y
  let p := polynomial w
    [4.83836122723810047042e-01, -3.27885410759859649565e-02, 6.10053870246291332635e-03,
      -1.40346469989232843813e-03, 3.15632070903625950361e-04]
  let q := polynomial w
    [-1.47587722994593911752e-01, 1.79706750811820387126e-02, -3.68452016781138256760e-03,
      8.81081882437654011382e-04, -3.12754168375120860518e-04]
  let r := polynomial w
    [6.46249402391333854778e-02, -1.03142241298341437450e-02, 2.25964780900612472250e-03,
      -5.38595305356740546715e-04, 3.35529192635519073543e-04]
  let least : Float := -1.21486290535849611461e-01
  let tail : Float := -3.63867699703950536541e-18
  least + (z * p - (tail - w * (q + y * r)))

/-- Near the zero at one, in the distance above it. -/
def lgammaAboveOne (y : Float) : Float :=
  let p := y * polynomial y
    [-7.72156649015328655494e-02, 6.32827064025093366517e-01, 1.45492250137234768737e+00,
      9.77717527963372745603e-01, 2.28963728064692451092e-01, 1.33810918536787660377e-02]
  let q := polynomial y
    [1, 2.45597793713041134822e+00, 2.12848976379893395361e+00, 7.69285150456672783825e-01,
      1.04222645593369134254e-01, 3.21709242282423911810e-03]
  (-0.5) * y + p / q

/-- On `(0, 2)`, about the nearest of the three points above, after a step up if the argument is at most 0.9. -/
def lgammaBelow (x : Float) : Float :=
  let minimum : Float := 1.46163214496836224576e+00
  if x ≤ 0.9 then
    let part :=
      if x ≥ 0.731632144968362245 then lgammaBelowTwo (1 - x)
      else if x ≥ 0.191632144968362245 then lgammaNearMinimum (x - 0.46163214496836224576)
      else lgammaAboveOne x
    (-logSeries x) + part
  else if x ≥ 1.731632144968362245 then 0 + lgammaBelowTwo (2 - x)
  else if x ≥ 1.191632144968362245 then 0 + lgammaNearMinimum (x - minimum)
  else 0 + lgammaAboveOne (x - 1)

/-- On `[2, 8)`: a rational approximation on `[2, 3)` and the logarithm of the steps up from there. -/
def lgammaMiddle (x : Float) : Float :=
  let i := wholeMagnitude .toZero x
  let y := x - Float.ofNat i
  let p := y * polynomial y
    [-7.72156649015328655494e-02, 2.14982415960608852501e-01, 3.25778796408930981787e-01,
      1.46350472652464452805e-01, 2.66422703033638609560e-02, 1.84028451407337715652e-03,
      3.19475326584100867617e-05]
  let q := polynomial y
    [1, 1.39200533467621045958e+00, 7.21935547567138069525e-01, 1.71933865632803078993e-01,
      1.86459191715652901344e-02, 7.77942496381893596434e-04, 7.32668430744625636189e-06]
  let base := 0.5 * y + p / q
  let steps := (List.range (i - 2)).reverse.foldl (fun z k => z * (y + Float.ofNat (k + 2))) 1
  if i < 3 then base else base + logSeries steps

/-- From eight on, by Stirling's series. -/
def lgammaLarge (x : Float) : Float :=
  let z := 1 / x
  let y := z * z
  let w := 4.18938533204672725052e-01 + z * polynomial y
    [8.33333333333329678849e-02, -2.77777777728775536470e-03, 7.93650558643019558500e-04,
      -5.95187557450339963135e-04, 8.36339918996282139126e-04, -1.63092934096575273989e-03]
  (x - 0.5) * (logSeries x - 1) + w

/-- The logarithm of gamma for positive arguments. -/
def lgammaPositive (x : Float) : Float :=
  if x == 1 || x == 2 then 0
  else if x < 2 then lgammaBelow x
  else if x < 8 then lgammaMiddle x
  else if x < scale 1 58 then lgammaLarge x
  else x * (logSeries x - 1)

/-- The logarithm of the magnitude of gamma. -/
def lgamma (x : Float) : Float :=
  if isNaN x then x
  else if isInfinite x then x
  else if x == 0 then infinity
  else if abs x < scale 1 (-70) then -logSeries (abs x)
  else if x < 0 then
    let q := -x
    let t := if q ≥ scale 1 52 then 0 else sinPi q
    if t == 0 then infinity else logSeries (pi / abs (t * q)) - lgammaPositive q
  else lgammaPositive x

end FormLang.Binary64
