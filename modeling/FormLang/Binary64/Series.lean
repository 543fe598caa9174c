import FormLang.Binary64.Whole

/-!
# Series for the elementary functions

The exponential, the logarithm and the circular functions by argument reduction and a short series. The compound
functions (powers, gamma, the error function) are built on these, so that their last bits do not depend on the platform.
-/

namespace FormLang.Binary64

/-- The value `c₀ + x (c₁ + x (c₂ + …))`. -/
def polynomial (x : Float) : List Float → Float
  | [] => 0
  | [c] => c
  | c :: cs => c + x * polynomial x cs

/-- A finite nonzero double as a fraction in `[1/2, 1)` with its sign, and a power of two. Zeros and what is not finite
come back unchanged with power zero. -/
def splitPower (f : Float) : Float × Int :=
  if !isFinite f || magnitude f = 0 then (f, 0)
  else
    let m := mantissa (magnitude f)
    let width : Int := m.log2 + 1
    (ofMagnitude (isNegative f) (ofBinary m (-width)), exponent (magnitude f) + width)

/-- A double times a power of two, rounded once. -/
def scale (f : Float) (n : Int) : Float :=
  if !isFinite f then f
  else
    ofMagnitude (isNegative f)
      (min infinityBits (ofBinary (mantissa (magnitude f)) (exponent (magnitude f) + n)))

/-- The mantissa of a finite double with its sign. -/
def signedMantissa (f : Float) : Int :=
  if isNegative f then -(mantissa (magnitude f) : Int) else mantissa (magnitude f)

/-- `x * y + z` for finite doubles, rounded once. -/
def fused (x y z : Float) : Float :=
  let product := signedMantissa x * signedMantissa y
  let ep := exponent (magnitude x) + exponent (magnitude y)
  let ez := exponent (magnitude z)
  let e := min ep ez
  let sum := product * Int.pow 2 (ep - e).toNat + signedMantissa z * Int.pow 2 (ez - e).toNat
  ofMagnitude (sum < 0) (min infinityBits (ofBinary sum.natAbs e))

/-- A polynomial by fused steps, the highest coefficient first. -/
def fusedPolynomial (x : Float) (leading : Float) (rest : List Float) : Float :=
  rest.foldl (fun p c => fused p x c) leading

/-! ## The exponential -/

/-- The exponential of sixteen times an argument, from the exponential less one of the argument: the step
`e²ᵗ - 1 = (eᵗ - 1) (eᵗ + 1)` four times over, the last one fused with the final addition of one. -/
def squareUp (y : Float) : Float :=
  let y := (List.replicate 3 ()).foldl (fun y _ => y * (y + 2)) y
  fused y (y + 2) 1

/-- The exponential of a finite argument: a multiple of the logarithm of two is taken off, and a sixteenth of the rest goes
into the series. A multiple of 1024 or more counts as too large. -/
def expSeries (x : Float) : Float :=
  let k := toInt .toEven (1.4426950408889634 * x)
  if x > 7.09782712893384e+02 || 1024 ≤ k then infinity
  else if x < -746 then 0
  else
    let n := Float.ofInt (-k)
    let r := fused 2.8235290563031577e-13 n (fused 0.6931471805596629565 n x)
    let t := r * 0.0625
    let p := fusedPolynomial t 2.4801587301587301587e-5
      [1.9841269841269841270e-4, 1.3888888888888888889e-3, 8.3333333333333333333e-3, 4.1666666666666666667e-2,
        1.6666666666666666667e-1, 0.5, 1]
    scale (squareUp (t * p)) k

/-! ## The logarithm -/

def ln2High : Float := 6.93147180369123816490e-01

def ln2Low : Float := 1.90821492927058770002e-10

/-- The logarithm of a positive finite argument, from the series in `f / (2 + f)` for a fraction `1 + f` near one. -/
def logPositive (x : Float) : Float :=
  let (frac, n) := splitPower x
  let (frac, n) := if frac < 0.7071067811865476 then (frac * 2, n - 1) else (frac, n)
  let f := frac - 1
  let k := Float.ofInt n
  let s := f / (2 + f)
  let s2 := s * s
  let s4 := s2 * s2
  let odd := s2 * polynomial s4
    [6.666666666666735130e-01, 2.857142874366239149e-01, 1.818357216161805012e-01, 1.479819860511658591e-01]
  let even := s4 * polynomial s4 [3.999999999940941908e-01, 2.222219843214978396e-01, 1.531383769920937332e-01]
  let half := 0.5 * f * f
  k * ln2High - ((half - (s * (half + (odd + even)) + k * ln2Low)) - f)

def logSeries (x : Float) : Float :=
  if isNaN x || x < 0 then notANumber
  else if isInfinite x then infinity
  else if x == 0 then -infinity
  else logPositive x

/-! ## The circular functions -/

/-- The sine of an argument of at most an eighth of a turn. -/
def sinOctant (z : Float) : Float :=
  let zz := z * z
  z + z * zz * polynomial zz
    [-1.66666666666666307295e-1, 8.33333333332211858878e-3, -1.98412698295895385996e-4, 2.75573136213857245213e-6,
      -2.50507477628578072866e-8, 1.58962301576546568060e-10]

/-- The cosine of an argument of at most an eighth of a turn. -/
def cosOctant (z : Float) : Float :=
  let zz := z * z
  1 - 0.5 * zz + zz * zz * polynomial zz
    [4.16666666666665929218e-2, -1.38888888888730564116e-3, 2.48015872888517045348e-5, -2.75573141792967388112e-7,
      2.08757008419747316778e-9, -1.13585365213876817300e-11]

/-- The nearest even octant of a small positive argument, and its distance from there. The eighth of a turn is taken off in
three pieces. -/
def octant (x : Float) : Nat × Float :=
  let j := wholeMagnitude .toZero (x * 1.2732395447351628)
  let j := if j % 2 = 1 then j + 1 else j
  let y := Float.ofNat j
  (j % 8, ((x - y * 7.85398125648498535156e-1) - y * 3.77489470793079817668e-8) - y * 2.69515142907905952645e-15)

/-- The sine of an argument of a few turns. -/
def sinSeries (x : Float) : Float :=
  let (j, z) := octant (abs x)
  let y := if j % 4 = 2 then cosOctant z else sinOctant z
  if isNegative x != decide (4 ≤ j) then -y else y

/-- The cosine of an argument of a few turns. -/
def cosSeries (x : Float) : Float :=
  let (j, z) := octant (abs x)
  let y := if j % 4 = 2 then sinOctant z else cosOctant z
  if j = 2 || j = 4 then -y else y

end FormLang.Binary64
