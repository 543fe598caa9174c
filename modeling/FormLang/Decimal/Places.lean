import FormLang.Binary64.Basic
import FormLang.Decimal.Integer

/-!
# A fixed number of places

A finite double written with a fixed number of decimal places: its exact value is rounded to the nearest such
decimal, ties to even.
-/

namespace FormLang.Decimal

/-- A finite magnitude times `10 ^ places`, rounded to the nearest natural. -/
def roundedPlaces (places : Nat) (bits : Nat) : Nat :=
  let (n, d) := Binary64.scaleDown (Binary64.mantissa bits * Nat.pow 10 places) 1 (-Binary64.exponent bits)
  Binary64.divNearest n d

/-- The text of a finite double with exactly `places + 1` decimal places. -/
def withPlaces (places : Nat) (f : Float) : String :=
  let n := roundedPlaces (places + 1) (Binary64.magnitude f)
  let unit := Nat.pow 10 (places + 1)
  let frac := Nat.toDigits 10 (n % unit)
  (if Binary64.isNegative f then "-" else "") ++ ofNat (n / unit) ++ "."
    ++ String.ofList (List.replicate (places + 1 - frac.length) '0' ++ frac)

end FormLang.Decimal
