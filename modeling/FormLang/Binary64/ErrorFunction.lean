import FormLang.Binary64.Elementary

/-!
# The error function

The error function and its complement, by rational approximations on five intervals of the magnitude.
-/

namespace FormLang.Binary64

/-- The ratio of two polynomials, the second with constant term one. -/
def rational (x : Float) (num den : List Float) : Float :=
  polynomial x num / polynomial x (1 :: den)

/-- `erf x / x - 1` on `[0, 0.84375)`, in the square of the argument. -/
def erfSmall (z : Float) : Float :=
  rational z
    [1.28379167095512558561e-01, -3.25042107247001499370e-01, -2.84817495755985104766e-02,
      -5.77027029648944159157e-03, -2.37630166566501626084e-05]
    [3.97917223959155352819e-01, 6.50222499887672944485e-02, 5.08130628187576562776e-03,
      1.32494738004321644526e-04, -3.96022827877536812320e-06]

/-- The value about which `erf` is expanded near one. -/
def erfOne : Float := 8.45062911510467529297e-01

/-- `erf x - erfOne` on `[0.84375, 1.25)`, in the argument less one. -/
def erfNearOne (s : Float) : Float :=
  rational s
    [-2.36211856075265944077e-03, 4.14856118683748331666e-01, -3.72207876035701323847e-01,
      3.18346619901161753674e-01, -1.10894694282396677476e-01, 3.54783043256182359371e-02,
      -2.16637559486879084300e-03]
    [1.06420880400844228286e-01, 5.40397917702171048937e-01, 7.18286544141962662868e-02,
      1.26171219808761642112e-01, 1.36370839120290507362e-02, 1.19844998467991074170e-02]

/-- The exponent's correction for `erfc` above 1.25, in the inverse square of the argument. -/
def erfcTail (x s : Float) : Float :=
  if x < 2.857142857142857142857142857 then
    rational s
      [-9.86494403484714822705e-03, -6.93858572707181764372e-01, -1.05586262253232909814e+01,
        -6.23753324503260060396e+01, -1.62396669462573470355e+02, -1.84605092906711035994e+02,
        -8.12874355063065934246e+01, -9.81432934416914548592e+00]
      [1.96512716674392571292e+01, 1.37657754143519042600e+02, 4.34565877475229228821e+02,
        6.45387271733267880336e+02, 4.29008140027567833386e+02, 1.08635005541779435134e+02,
        6.57024977031928170135e+00, -6.04244152148580987438e-02]
  else
    rational s
      [-9.86494292470009928597e-03, -7.99283237680523006574e-01, -1.77579549177547519889e+01,
        -1.60636384855821916062e+02, -6.37566443368389627722e+02, -1.02509513161107724954e+03,
        -4.83519191608651397019e+02]
      [3.03380607434824582924e+01, 3.25792512996573918826e+02, 1.53672958608443695994e+03,
        3.19985821950859553908e+03, 2.55305040643316442583e+03, 4.74528541206955367215e+02,
        -2.24409524465858183362e+01]

/-- `x * erfc x` for `x` from 1.25 up. The square of the argument is split to keep its low bits. -/
def erfcLarge (x : Float) : Float :=
  let z := Float.ofBits (x.toBits &&& 0xffffffff00000000)
  expSeries (-z * z - 0.5625) * expSeries ((z - x) * (z + x) + erfcTail x (1 / (x * x)))

def erfPositive (x : Float) : Float :=
  if x < 0.84375 then
    if x < scale 1 (-28) then
      if x < 2.848094538889218e-306 then 0.125 * (8 * x + 1.02703333676410069053e+00 * x)
      else x + 1.28379167095512586316e-01 * x
    else x + x * erfSmall (x * x)
  else if x < 1.25 then erfOne + erfNearOne (x - 1)
  else if x ≥ 6 then 1
  else 1 - erfcLarge x / x

def erf (x : Float) : Float :=
  if isNaN x then notANumber else if x < 0 then -erfPositive (-x) else erfPositive x

/-- The complement for a magnitude below 28. -/
def erfcFinite (negative : Bool) (x : Float) : Float :=
  if x < 0.84375 then
    let y := if x < scale 1 (-56) then 0 else erfSmall (x * x)
    let t := if x < 0.25 then x + x * y else 0.5 + (x * y + (x - 0.5))
    if negative then 1 + t else 1 - t
  else if x < 1.25 then
    let r := erfNearOne (x - 1)
    if negative then 1 + erfOne + r else 1 - erfOne - r
  else if negative then if x > 6 then 2 else 2 - erfcLarge x / x
  else erfcLarge x / x

/-- One less the error function, accurate where that is small. -/
def erfc (x : Float) : Float :=
  if isNaN x then notANumber
  else if abs x < 28 then erfcFinite (x < 0) (abs x)
  else if x < 0 then 2
  else 0

end FormLang.Binary64
