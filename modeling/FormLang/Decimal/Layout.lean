import FormLang.Decimal.Integer
import FormLang.Decimal.Shortest

/-!
# Writing a double

The shortest digits of a double, laid out positionally or with an exponent. A layout holds the decisions of one
format; the formats themselves stand where they are used.
-/

namespace FormLang.Decimal

/-- How one format writes doubles. -/
structure Layout where
  /-- The least exponent of the leading digit that is written positionally. -/
  least : Int
  /-- The first exponent of the leading digit that is not written positionally. -/
  bound : Int
  /-- Whether a whole number is written with a point and a zero. -/
  keepPoint : Bool
  /-- The least number of digits of an exponent. -/
  width : Nat
  /-- The text of a NaN. -/
  nan : String
  /-- The text of positive infinity. -/
  infinity : String

/-- Digits with a point after the digit of exponent zero. -/
def positional (keepPoint : Bool) (digits : List Char) (exponent : Int) : List Char :=
  let tail := if keepPoint then ['.', '0'] else []
  if 0 ≤ exponent then digits ++ List.replicate exponent.toNat '0' ++ tail
  else
    let places := (-exponent).toNat
    if places < digits.length then
      digits.take (digits.length - places) ++ '.' :: digits.drop (digits.length - places)
    else '0' :: '.' :: List.replicate (places - digits.length) '0' ++ digits

/-- One digit, the others after a point, and the exponent with its sign. -/
def scientific (width : Nat) (digits : List Char) (lead : Int) : List Char :=
  let e := Nat.toDigits 10 lead.natAbs
  let mant :=
    match digits with
    | d :: e :: rest => d :: '.' :: e :: rest
    | short => short
  mant ++ 'e' :: (if lead < 0 then '-' else '+') :: List.replicate (width - e.length) '0' ++ e

/-- The text of a magnitude that is finite. -/
def Layout.finite (l : Layout) (bits : Nat) : List Char :=
  if bits = 0 then positional l.keepPoint ['0'] 0
  else
    let s := shortest bits
    let digits := Nat.toDigits 10 s.digits
    let lead : Int := s.exponent + digits.length - 1
    if l.least ≤ lead && lead < l.bound then positional l.keepPoint digits s.exponent
    else scientific l.width digits lead

/-- The text of a double in this layout. -/
def Layout.write (l : Layout) (f : Float) : String :=
  if Binary64.isNaN f then l.nan
  else
    let sign := if Binary64.isNegative f then "-" else ""
    if Binary64.isInfinite f then sign ++ l.infinity
    else sign ++ String.ofList (l.finite (Binary64.magnitude f))

end FormLang.Decimal
