import FormLang.Value.Basic

/-!
# Arithmetic on words

Operations on integers of 64 bits that either give the exact result or report that it does not fit. The guards are
computed in 64 bits themselves and never wrap where it matters.
-/

namespace FormLang.Word

def add? (a b : Int64) : Option Int64 :=
  if (0 < b && Int64.maxValue - b < a) || (b < 0 && a < Int64.minValue - b) then none else some (a + b)

def subtract? (a b : Int64) : Option Int64 :=
  if (b < 0 && Int64.maxValue + b < a) || (0 < b && a < Int64.minValue + b) then none else some (a - b)

/-- The product is checked by dividing it again, except where that division would not fit. -/
def multiply? (a b : Int64) : Option Int64 :=
  if a == 0 || b == 0 then some 0
  else if (a == -1 && b == Int64.minValue) || (b == -1 && a == Int64.minValue) then none
  else
    let c := a * b
    if c / b == a then some c else none

def absolute? (n : Int64) : Option Int64 :=
  if n == Int64.minValue then none else some (if n < 0 then -n else n)

/-- The magnitude of an integer, which always fits without a sign. -/
def magnitude (n : Int64) : UInt64 :=
  if n < 0 then (-(n + 1)).toUInt64 + 1 else n.toUInt64

/-! ## Rounding to a power of ten -/

/-- A magnitude rounded to the nearest multiple of `p`, ties to the even multiple, if it fits. -/
def roundMagnitude? (m p : UInt64) : Option UInt64 :=
  let q := m / p
  let r := m % p
  let q := if p - r < r || (r == p - r && q % 2 == 1) then q + 1 else q
  if q != 0 && 18446744073709551615 / p < q then none else some (q * p)

/-- An integer rounded to a multiple of `10 ^ (-digits)`, if the result fits. From twenty places on it is zero. -/
def round? (n digits : Int64) : Option Int64 :=
  if 0 ≤ digits then some n
  else if digits < -19 then some 0
  else
    match roundMagnitude? (magnitude n) (10 ^ (-digits).toInt.toNat) with
    | none => none
    | some out =>
      if n < 0 then if 9223372036854775808 < out then none else some (-out).toInt64
      else if 9223372036854775807 < out then none
      else some out.toInt64

/-! ## Number theory -/

/-- Multiplies by `i`, `i + 1`, …, as many factors as given. -/
def factorialFrom (acc : Int64) (i : Nat) : (factors : Nat) → Option Int64
  | 0 => some acc
  | k + 1 =>
    match multiply? acc (Int64.ofNat i) with
    | some next => factorialFrom next (i + 1) k
    | none => none

/-- The factorial of a natural number, if it fits. -/
def factorial? (n : Nat) : Option Int64 :=
  factorialFrom 1 2 (n - 1)

/-- Euclid's algorithm. -/
def gcd (a b : UInt64) : UInt64 :=
  if b = 0 then a else gcd b (a % b)
termination_by b.toNat
decreasing_by
  rename_i h
  have hb : 0 < b.toNat := Nat.pos_of_ne_zero fun h0 => h (UInt64.toNat_inj.mp (by simpa using h0))
  simpa [UInt64.toNat_mod] using Nat.mod_lt _ hb

theorem toInt_add_one {r n : Int64} (h : r < n) : (r + 1).toInt = r.toInt + 1 := by
  have h1 := Int64.lt_iff_toInt_lt.mp h
  have h2 := Int64.toInt_lt n
  have h3 := Int64.le_toInt r
  rw [Int64.toInt_add, Int64.toInt_one]
  exact Int.bmod_eq_of_le (by omega) (by omega)

theorem toInt_sub_one {r : Int64} (h : 0 < r) : (r - 1).toInt = r.toInt - 1 := by
  have h1 := Int64.lt_iff_toInt_lt.mp h
  have h2 := Int64.toInt_lt r
  rw [Int64.toInt_zero] at h1
  rw [Int64.toInt_sub, Int64.toInt_one]
  exact Int.bmod_eq_of_le (by omega) (by omega)

/-- Lowers an estimate of the square root while its square is above `n`. -/
def lowerRoot (n r : Int64) : Int64 :=
  if h : 0 < r ∧ n / r < r then lowerRoot n (r - 1) else r
termination_by r.toInt.toNat
decreasing_by
  have h1 := Int64.lt_iff_toInt_lt.mp h.1
  rw [Int64.toInt_zero] at h1
  rw [toInt_sub_one h.1]
  omega

/-- Raises an estimate of the square root while the next square is not above `n`. An estimate below `n` has a successor,
and no root of a positive `n` lies above it. -/
def raiseRoot (n r : Int64) : Int64 :=
  if h : r < n ∧ r + 1 ≤ n / (r + 1) then raiseRoot n (r + 1) else r
termination_by (n.toInt - r.toInt).toNat
decreasing_by
  have h1 := Int64.lt_iff_toInt_lt.mp h.1
  rw [toInt_add_one h.1]
  omega

/-- The integer square root, from any estimate. -/
def isqrtFrom (n estimate : Int64) : Int64 :=
  raiseRoot n (lowerRoot n estimate)

/-- The integer square root of a natural number, from the float square root. -/
def isqrt (n : Int64) : Int64 :=
  isqrtFrom n (Binary64.toWord (Binary64.ofInt64 n).sqrt)

end FormLang.Word
