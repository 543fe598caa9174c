import FormLang.Proofs.Binary64.Pattern

/-!
# The order of floats

The place of a float is its magnitude word with its sign (`rank`). Floats that are no NaN compare as their places do
(`lt_iff_rank_lt`, `beq_iff_rank_eq`), so they are ordered like integers, except that the two zeros are equal. The order of
places is that of the numbers as well, counted in units of the least double (`unitsAt_lt_unitsAt`).

The conversion of a word to the nearest float keeps the order (`rank_ofInt64_mono`), and up to `2 ^ 53` it keeps the number
(`amount_ofInt64`). Only large words may be converted to the same float (`natAbs_of_rank_ofInt64_eq`).
-/

namespace FormLang.Binary64

open Float.Model

/-! ## Places -/

/-- The place of an unpacked number on a scale of integers: its magnitude word with its sign. -/
inductive Placed : UnpackedFloat → Int → Prop
  | infinity (s : UnpackedFloat.Sign) : Placed (.infinity s) (s.apply infinityBits)
  | zero (s : UnpackedFloat.Sign) : Placed (.zero s) 0
  | finite (s : UnpackedFloat.Sign) (bits : Nat) (h0 : bits ≠ 0) (h : bits < infinityBits) :
    Placed (.finite s (mantissa bits) (exponent bits) (mantissa_pos h0)) (s.apply bits)

/-- How a number of this sign lies to one that is nearer to zero. -/
def outward : UnpackedFloat.Sign → Ordering
  | .positive => .gt
  | .negative => .lt

section compare

variable (s : UnpackedFloat.Sign) {k v : Int}

theorem compare_apply (hlow : -k < v) (hhigh : v < k) : compare (s.apply k) v = outward s := by
  cases s with
  | positive => exact Int.compare_eq_gt.mpr hhigh
  | negative => exact Int.compare_eq_lt.mpr hlow

theorem compare_apply_right (hlow : -k < v) (hhigh : v < k) : compare v (s.apply k) = (outward s).swap := by
  cases s with
  | positive => exact Int.compare_eq_lt.mpr hhigh
  | negative => exact Int.compare_eq_gt.mpr hlow

theorem neg_lt_apply {n : Nat} (h : (n : Int) < k) : -k < s.apply n := by
  cases s with
  | positive => exact (by omega : -k < (n : Int))
  | negative => exact (by omega : -k < -(n : Int))

theorem apply_lt {n : Nat} (h : (n : Int) < k) : s.apply n < k := by
  cases s with
  | positive => exact h
  | negative => exact (by omega : -(n : Int) < k)

end compare

theorem compare_neg (a b : Int) : compare (-a) (-b) = (compare a b).swap := by
  rcases Int.lt_trichotomy a b with h | h | h
  · rw [Int.compare_eq_lt.mpr h, Int.compare_eq_gt.mpr (by omega)]
    rfl
  · rw [h, Int.compare_eq_eq.mpr rfl, Int.compare_eq_eq.mpr rfl]
    rfl
  · rw [Int.compare_eq_gt.mpr h, Int.compare_eq_lt.mpr (by omega)]
    rfl

namespace Placed

variable {a b : UnpackedFloat} {p q : Int}

theorem isNaN_eq (h : Placed a p) : a.isNaN = false := by
  cases h <;> rfl

/-- Numbers compare as their places do. -/
theorem compare_eq (ha : Placed a p) (hb : Placed b q) : a.compare b = some (compare p q) := by
  cases ha with
  | infinity s =>
    cases hb with
    | infinity t =>
      cases s <;> cases t <;> rfl
    | zero t =>
      rw [compare_apply s (by decide) (by decide)]
      cases s <;> rfl
    | finite t n h0 h =>
      rw [compare_apply s (neg_lt_apply t (by omega)) (apply_lt t (by omega))]
      cases s <;> rfl
  | zero s =>
    cases hb with
    | infinity t =>
      rw [compare_apply_right t (by decide) (by decide)]
      cases t <;> rfl
    | zero t => rfl
    | finite t n h0 h =>
      rw [compare_apply_right t (by omega) (by omega)]
      cases t <;> rfl
  | finite s m h0 h =>
    cases hb with
    | infinity t =>
      rw [compare_apply_right t (neg_lt_apply s (by omega)) (apply_lt s (by omega))]
      cases t <;> rfl
    | zero t =>
      rw [compare_apply s (by omega) (by omega)]
      cases s <;> rfl
    | finite t n h0' h' =>
      cases s with
      | positive =>
        cases t with
        | positive => exact congrArg some (compare_parts _ _)
        | negative => exact congrArg some (Int.compare_eq_gt.mpr (by omega : -(n : Int) < m)).symm
      | negative =>
        cases t with
        | positive => exact congrArg some (Int.compare_eq_lt.mpr (by omega : -(m : Int) < n)).symm
        | negative =>
          have hswap := congrArg Ordering.swap (compare_parts m n)
          exact congrArg some (hswap.trans (compare_neg _ _).symm)

end Placed

/-! ## Floats -/

/-- The place of a float: its magnitude word with its sign. Both zeros have the same place. -/
def rank (f : Float) : Int :=
  if isNegative f then -(magnitude f : Int) else magnitude f

theorem apply_signOf (f : Float) : (signOf f.toBits.toNat).apply (magnitude f) = rank f := by
  rw [rank, signOf, isNegative]
  change (if 2 ^ 63 ≤ f.toBits.toNat then _ else _ : UnpackedFloat.Sign).apply _ =
    if decide (2 ^ 63 ≤ f.toBits.toNat) = true then _ else _
  by_cases h : 2 ^ 63 ≤ f.toBits.toNat
  · rw [if_pos h, if_pos (decide_eq_true h)]
    rfl
  · rw [if_neg h, if_neg (by simpa using h)]
    rfl

theorem placed_unpack {f : Float} (h : isNaN f = false) : Placed f.toModel.unpack (rank f) := by
  have hle : magnitude f ≤ infinityBits := by simpa [isNaN] using h
  rcases Nat.lt_or_eq_of_le hle with hlt | heq
  · by_cases hzero : magnitude f = 0
    · have hunpack : f.toModel.unpack = .zero (signOf f.toBits.toNat) := unpack_zero hzero
      have hrank : rank f = 0 := by
        rw [rank, hzero]
        split <;> rfl
      rw [hunpack, hrank]
      exact .zero _
    · have hunpack : f.toModel.unpack = .finite (signOf f.toBits.toNat) (mantissa (magnitude f)) (exponent (magnitude f))
          (mantissa_pos hzero) := unpack_finite hzero hlt
      rw [← apply_signOf, hunpack]
      exact .finite _ _ hzero hlt
  · have hunpack : f.toModel.unpack = .infinity (signOf f.toBits.toNat) := unpack_infinity heq
    rw [← apply_signOf, hunpack, heq]
    exact .infinity _

theorem rank_ofMagnitude (negative : Bool) {bits : Nat} (h : bits ≤ infinityBits) :
    rank (ofMagnitude negative bits) = if negative then -(bits : Int) else bits := by
  rw [rank, isNegative_ofMagnitude negative h, magnitude_ofMagnitude negative h]

theorem isNaN_eq (f : Float) : f.isNaN = isNaN f := by
  have hmodel : f.isNaN = f.toModel.unpack.isNaN := rfl
  rw [hmodel]
  cases h : isNaN f with
  | true =>
    have hunpack : f.toModel.unpack = .notANumber := unpack_notANumber (of_decide_eq_true h)
    rw [hunpack]
    rfl
  | false => exact (placed_unpack h).isNaN_eq

section order

variable {x y : Float} (hx : isNaN x = false) (hy : isNaN y = false)

include hx hy

theorem compare_unpack : x.toModel.unpack.compare y.toModel.unpack = some (compare (rank x) (rank y)) :=
  (placed_unpack hx).compare_eq (placed_unpack hy)

theorem lt_iff_rank_lt : x < y ↔ rank x < rank y := by
  have hmodel : x < y ↔ (x.toModel.unpack.compare y.toModel.unpack == some .lt) = true := decide_eq_true_iff
  rw [hmodel, compare_unpack hx hy, beq_iff_eq, Option.some.injEq]
  exact Int.compare_eq_lt

theorem beq_iff_rank_eq : (x == y) = true ↔ rank x = rank y := by
  have hmodel : (x == y) = (x.toModel.unpack.compare y.toModel.unpack == some .eq) := rfl
  rw [hmodel, compare_unpack hx hy, beq_iff_eq, Option.some.injEq]
  exact Int.compare_eq_eq

end order

/-! ## Amounts -/

/-- A float in units of the least double. An infinity counts as the power of two that follows the largest double. -/
def amount (f : Float) : Int :=
  if isNegative f then -(units (magnitude f) : Int) else units (magnitude f)

/-- The units at a place. -/
def unitsAt (r : Int) : Int :=
  if r < 0 then -(units r.natAbs : Int) else units r.natAbs

theorem unitsAt_rank (f : Float) : unitsAt (rank f) = amount f := by
  rw [unitsAt, rank, amount]
  cases isNegative f with
  | false => simp
  | true =>
    by_cases h : magnitude f = 0
    · rw [h]
      rfl
    · simp [Nat.pos_of_ne_zero h]

theorem unitsAt_lt_unitsAt {r t : Int} (h : r < t) : unitsAt r < unitsAt t := by
  have hpos : ∀ {n : Nat}, 0 < n → 0 < units n := fun h => Nat.zero_lt_of_lt (units_lt_units h)
  rw [unitsAt, unitsAt]
  by_cases hr : r < 0
  · rw [if_pos hr]
    by_cases ht : t < 0
    · have hunits := units_lt_units (by omega : t.natAbs < r.natAbs)
      rw [if_pos ht]
      omega
    · have hunits := hpos (by omega : 0 < r.natAbs)
      rw [if_neg ht]
      omega
  · have hunits := units_lt_units (by omega : r.natAbs < t.natAbs)
    rw [if_neg hr, if_neg (by omega)]
    omega

/-! ## Words as floats -/

/-- The place of the float nearest to an integer. -/
def nearest (i : Int) : Int :=
  if i < 0 then -(ofRatio i.natAbs 1 : Int) else ofRatio i.natAbs 1

theorem natAbs_toInt_lt (n : Int64) : n.toInt.natAbs < 2 ^ 64 := by
  have hlow := Int64.le_toInt n
  have hhigh := Int64.toInt_lt n
  omega

theorem isNaN_ofInt64 (n : Int64) : isNaN (ofInt64 n) = false :=
  isNaN_ofMagnitude _ (ofRatio_one_lt (natAbs_toInt_lt n)).le

theorem rank_ofInt64 (n : Int64) : rank (ofInt64 n) = nearest n.toInt := by
  rw [ofInt64, rank_ofMagnitude _ (ofRatio_one_lt (natAbs_toInt_lt n)).le, nearest]
  simp only [decide_eq_true_eq, Int64.lt_iff_toInt_lt, Int64.toInt_zero]

theorem nearest_mono {i j : Int} (h : i ≤ j) : nearest i ≤ nearest j := by
  rw [nearest, nearest]
  by_cases hi : i < 0
  · rw [if_pos hi]
    by_cases hj : j < 0
    · have hword := ofRatio_one_mono (by omega : j.natAbs ≤ i.natAbs)
      rw [if_pos hj]
      omega
    · rw [if_neg hj]
      omega
  · have hword := ofRatio_one_mono (by omega : i.natAbs ≤ j.natAbs)
    rw [if_neg hi, if_neg (by omega)]
    omega

/-- The conversion to the nearest float keeps the order of words. -/
theorem rank_ofInt64_mono {a b : Int64} (h : a.toInt ≤ b.toInt) : rank (ofInt64 a) ≤ rank (ofInt64 b) := by
  rw [rank_ofInt64, rank_ofInt64]
  exact nearest_mono h

theorem nearest_lt_nearest {i j : Int} (h : i < j) (hsmall : i.natAbs < 2 ^ 53 ∨ j.natAbs < 2 ^ 53) :
    nearest i < nearest j := by
  rw [nearest, nearest]
  by_cases hi : i < 0
  · rw [if_pos hi]
    by_cases hj : j < 0
    · have hword := ofRatio_one_lt_ofRatio (by omega : j.natAbs < i.natAbs) (by omega)
      rw [if_pos hj]
      omega
    · have hword := ofRatio_one_lt_ofRatio (by omega : 0 < i.natAbs) (by decide)
      rw [if_neg hj]
      omega
  · have hword := ofRatio_one_lt_ofRatio (by omega : i.natAbs < j.natAbs) (by omega)
    rw [if_neg hi, if_neg (by omega)]
    omega

/-- Only large words have a nearest float in common. -/
theorem natAbs_of_rank_ofInt64_eq {a b : Int64} (h : rank (ofInt64 a) = rank (ofInt64 b)) (hne : a.toInt ≠ b.toInt) :
    2 ^ 53 ≤ a.toInt.natAbs ∧ 2 ^ 53 ≤ b.toInt.natAbs := by
  rw [rank_ofInt64, rank_ofInt64] at h
  by_contra hsmall
  rcases Int.lt_or_gt_of_ne hne with hlt | hgt
  · exact absurd h (nearest_lt_nearest hlt (by omega)).ne
  · exact absurd h (nearest_lt_nearest hgt (by omega)).ne'

/-- Words up to `2 ^ 53` keep their value. -/
theorem amount_ofInt64 {n : Int64} (h : n.toInt.natAbs ≤ 2 ^ 53) : amount (ofInt64 n) = n.toInt * unitsPerOne := by
  have hword : ofRatio n.toInt.natAbs 1 ≤ infinityBits := (ofRatio_one_lt (natAbs_toInt_lt n)).le
  rw [amount, ofInt64, isNegative_ofMagnitude _ hword, magnitude_ofMagnitude _ hword, units_ofRatio_one h, Nat.cast_mul]
  simp only [decide_eq_true_eq, Int64.lt_iff_toInt_lt, Int64.toInt_zero]
  by_cases hneg : n.toInt < 0
  · rw [if_pos hneg, ← neg_mul, (by omega : -(n.toInt.natAbs : Int) = n.toInt)]
  · rw [if_neg hneg, (by omega : (n.toInt.natAbs : Int) = n.toInt)]

end FormLang.Binary64
