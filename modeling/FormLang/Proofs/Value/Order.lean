import FormLang.Proofs.Binary64.Order
import FormLang.Proofs.Builtin.Exact

/-!
# The order of numbers

Numbers that are no NaN have an order (`Value.order`): integers are compared exactly, and as soon as one of the two is a float
both are compared as floats. Equality and comparison both follow it (`compare?_eq`, `equal_eq`).

The two ways to compare fit together because the conversion to floats keeps the order (`place_mono`). So what is less is
less on the way over a third number, of whatever kind (`order_lt_trans`). What is equal need not be: two integers beyond
`2 ^ 53` may be equal to the same float (`order_eq_trans`). Up to there numbers are compared by their value
(`order_eq_compare_amount`).
-/

namespace FormLang.Value

/-- The value is a number and no NaN. -/
def Comparable (v : Value) : Prop :=
  v.isNumber = true ∧ v.isNaN = false

/-- The place of a number among the floats. -/
def place (v : Value) : Int :=
  Binary64.rank (v.toFloat?.getD 0)

/-- How two numbers are ordered: integers as integers, and otherwise as floats. -/
def order (a b : Value) : Ordering :=
  if a.isInteger && b.isInteger then compare a.whole b.whole else compare a.place b.place

/-- A number in units of the least double. -/
def amount : Value → Int
  | .float f => Binary64.amount f
  | v => v.whole * Binary64.unitsPerOne

/-! ## Integers and floats -/

theorem toFloat?_of_toInt64? {v : Value} {n : Int64} (h : v.toInt64? = some n) : v.toFloat? = some (Binary64.ofInt64 n) := by
  cases v with
  | int k =>
    obtain rfl := Option.some.inj h
    rfl
  | bool b =>
    obtain rfl := Option.some.inj h
    rfl
  | _ => cases h

theorem isNaN_of_isInteger {v : Value} (h : v.isInteger = true) : v.isNaN = false := by
  obtain ⟨n, hn, -⟩ := toInt64?_of_isInteger h
  rw [isNaN, toFloat?_of_toInt64? hn]
  exact Binary64.isNaN_ofInt64 n

theorem comparable_of_isInteger {v : Value} (h : v.isInteger = true) : v.Comparable :=
  ⟨isNumber_of_isInteger h, isNaN_of_isInteger h⟩

theorem isNaN_notANumber : Binary64.isNaN Binary64.notANumber = true := by
  decide +kernel

/-- A comparable number is an integer or a float. -/
theorem Comparable.cases {v : Value} (h : v.Comparable) :
    (v.isInteger = true ∧ ∃ n : Int64, v.toInt64? = some n ∧ n.toInt = v.whole ∧ v.toFloat? = some (Binary64.ofInt64 n)) ∨
      (v.isInteger = false ∧ ∃ f : Float, v = .float f ∧ Binary64.isNaN f = false) := by
  obtain ⟨hnumber, hnan⟩ := h
  cases v with
  | int n => exact .inl ⟨rfl, n, rfl, rfl, rfl⟩
  | bool b =>
    obtain ⟨n, hn, hwhole⟩ := toInt64?_of_isInteger (rfl : (Value.bool b).isInteger = true)
    exact .inl ⟨rfl, n, hn, hwhole, toFloat?_of_toInt64? hn⟩
  | float f => exact .inr ⟨rfl, f, rfl, hnan⟩
  | negativeNaN => exact absurd (isNaN_notANumber.symm.trans hnan) (by decide)
  | _ => cases hnumber

theorem Comparable.toFloat? {v : Value} (h : v.Comparable) :
    ∃ f : Float, v.toFloat? = some f ∧ Binary64.isNaN f = false ∧ v.place = Binary64.rank f := by
  rcases h.cases with ⟨-, n, -, -, hfloat⟩ | ⟨-, f, rfl, hnan⟩
  · exact ⟨_, hfloat, Binary64.isNaN_ofInt64 n, by rw [place, hfloat]; rfl⟩
  · exact ⟨f, rfl, hnan, rfl⟩

theorem integers?_eq_none {a b : Value} (h : (a.isInteger && b.isInteger) = false) : a.integers? b = none := by
  have hnone : ∀ v : Value, v.isInteger = false → v.toInt64? = none := by
    intro v hv
    cases v with
    | int _ | bool _ => cases hv
    | _ => rfl
  rw [integers?]
  rcases Bool.and_eq_false_iff.mp h with ha | hb
  · rw [hnone a ha]
  · rw [hnone b hb]
    cases a.toInt64? <;> rfl

/-! ## Comparison follows the order -/

theorem ordering_eq_compare {p q : Prop} [Decidable p] [Decidable q] {i j : Int} (hp : p ↔ i < j) (hq : q ↔ j < i) :
    (if p then .lt else if q then .gt else .eq) = compare i j := by
  rcases Int.lt_trichotomy i j with h | h | h
  · rw [if_pos (hp.mpr h), Int.compare_eq_lt.mpr h]
  · rw [if_neg (mt hp.mp (by omega)), if_neg (mt hq.mp (by omega)), Int.compare_eq_eq.mpr h]
  · rw [if_neg (mt hp.mp (by omega)), if_pos (hq.mpr h), Int.compare_eq_gt.mpr h]

theorem eq_compare_beq {r : Bool} {i j : Int} (h : r = true ↔ i = j) : r = (compare i j == .eq) := by
  rw [Bool.eq_iff_iff, h, beq_iff_eq, Int.compare_eq_eq]

section follows

variable {a b : Value} (ha : a.Comparable) (hb : b.Comparable)

include ha hb

/-- Both numbers are integers, or both are taken as floats. -/
theorem integers?_or_floats? :
    (∃ x y : Int64, a.integers? b = some (x, y) ∧ a.order b = compare x.toInt y.toInt) ∨
      (∃ x y : Float, a.integers? b = none ∧ a.floats? b = some (x, y) ∧ Binary64.isNaN x = false ∧ Binary64.isNaN y = false ∧
        a.order b = compare (Binary64.rank x) (Binary64.rank y)) := by
  cases hboth : a.isInteger && b.isInteger with
  | true =>
    obtain ⟨hai, hbi⟩ := Bool.and_eq_true_iff.mp hboth
    obtain ⟨x, hx, hxw⟩ := toInt64?_of_isInteger hai
    obtain ⟨y, hy, hyw⟩ := toInt64?_of_isInteger hbi
    refine .inl ⟨x, y, by rw [integers?, hx, hy], ?_⟩
    rw [order, hboth, if_pos rfl, hxw, hyw]
  | false =>
    obtain ⟨x, hx, hxn, hxp⟩ := ha.toFloat?
    obtain ⟨y, hy, hyn, hyp⟩ := hb.toFloat?
    refine .inr ⟨x, y, integers?_eq_none hboth, by rw [floats?, hx, hy], hxn, hyn, ?_⟩
    rw [order, hboth, if_neg (by decide), hxp, hyp]

theorem compare?_eq : a.compare? b = some (a.order b) := by
  rcases integers?_or_floats? ha hb with ⟨x, y, hints, horder⟩ | ⟨x, y, hints, hfloats, hx, hy, horder⟩
  · rw [compare?, hints, horder]
    exact congrArg some (ordering_eq_compare Int64.lt_iff_toInt_lt Int64.lt_iff_toInt_lt)
  · rw [compare?, hints, hfloats, horder]
    simp only [Binary64.isNaN_eq, hx, hy, Bool.or_false, Bool.false_eq_true, if_false]
    exact congrArg some (ordering_eq_compare (Binary64.lt_iff_rank_lt hx hy) (Binary64.lt_iff_rank_lt hy hx))

theorem equal_eq : a.equal b = (a.order b == .eq) := by
  rcases integers?_or_floats? ha hb with ⟨x, y, hints, horder⟩ | ⟨x, y, hints, hfloats, hx, hy, horder⟩
  · unfold equal
    simp only [hints, horder]
    exact eq_compare_beq (beq_iff_eq.trans Int64.toInt_inj.symm)
  · unfold equal
    simp only [hints, hfloats, horder]
    exact eq_compare_beq (Binary64.beq_iff_rank_eq hx hy)

end follows

/-! ## Laws of the order -/

theorem order_swap (a b : Value) : (a.order b).swap = b.order a := by
  rw [order, order, Bool.and_comm]
  split <;> exact Int.compare_swap _ _

/-- Two numbers are compared as integers, or one of them is not an integer. -/
theorem integers_or_float (a b : Value) :
    (a.isInteger = true ∧ b.isInteger = true) ∨ (a.isInteger = false ∨ b.isInteger = false) := by
  cases a.isInteger <;> cases b.isInteger <;> simp

theorem order_of_integers {a b : Value} (h : a.isInteger = true ∧ b.isInteger = true) :
    a.order b = compare a.whole b.whole := by
  rw [order, h.1, h.2]
  rfl

theorem order_of_float {a b : Value} (h : a.isInteger = false ∨ b.isInteger = false) : a.order b = compare a.place b.place := by
  rw [order, Bool.and_eq_false_iff.mpr h]
  rfl

/-- The conversion to floats keeps the order of integers. -/
theorem place_mono {a b : Value} (hints : a.isInteger = true ∧ b.isInteger = true) (h : a.whole ≤ b.whole) :
    a.place ≤ b.place := by
  obtain ⟨x, hx, hxw⟩ := toInt64?_of_isInteger hints.1
  obtain ⟨y, hy, hyw⟩ := toInt64?_of_isInteger hints.2
  rw [place, place, toFloat?_of_toInt64? hx, toFloat?_of_toInt64? hy]
  exact Binary64.rank_ofInt64_mono (by rw [hxw, hyw]; exact h)

section laws

variable {a b c : Value}

theorem place_le_of_order_lt (h : a.order b = .lt) : a.place ≤ b.place := by
  rcases integers_or_float a b with hints | hfloat
  · rw [order_of_integers hints, Int.compare_eq_lt] at h
    exact place_mono hints h.le
  · rw [order_of_float hfloat, Int.compare_eq_lt] at h
    exact h.le

theorem place_eq_of_order_eq (h : a.order b = .eq) : a.place = b.place := by
  rcases integers_or_float a b with hints | hfloat
  · rw [order_of_integers hints, Int.compare_eq_eq] at h
    exact le_antisymm (place_mono hints h.le) (place_mono hints.symm h.ge)
  · rw [order_of_float hfloat, Int.compare_eq_eq] at h
    exact h

/-- What is less than something less is less, whatever the kinds of the three numbers. -/
theorem order_lt_trans (hab : a.order b = .lt) (hbc : b.order c = .lt) : a.order c = .lt := by
  have hle := place_le_of_order_lt hab
  have hle' := place_le_of_order_lt hbc
  rcases integers_or_float a c with hints | hfloat
  · rw [order_of_integers hints, Int.compare_eq_lt]
    cases hb : b.isInteger with
    | true =>
      rw [order_of_integers ⟨hints.1, hb⟩, Int.compare_eq_lt] at hab
      rw [order_of_integers ⟨hb, hints.2⟩, Int.compare_eq_lt] at hbc
      exact hab.trans hbc
    | false =>
      -- Between two integers stands a float, and the conversion would not turn them round.
      rw [order_of_float (.inr hb), Int.compare_eq_lt] at hab
      by_contra hge
      have hmono := place_mono hints.symm (Int.not_lt.mp hge)
      omega
  · rw [order_of_float hfloat, Int.compare_eq_lt]
    rcases hfloat with ha | hc
    · rw [order_of_float (.inl ha), Int.compare_eq_lt] at hab
      omega
    · rw [order_of_float (.inr hc), Int.compare_eq_lt] at hbc
      omega

/-- What is equal to something equal is equal, except for two integers beyond `2 ^ 53` that are equal to one float. -/
theorem order_eq_trans (hab : a.order b = .eq) (hbc : b.order c = .eq) :
    a.order c = .eq ∨
      (a.isInteger = true ∧ b.isInteger = false ∧ c.isInteger = true ∧ a.whole ≠ c.whole ∧
        2 ^ 53 ≤ a.whole.natAbs ∧ 2 ^ 53 ≤ c.whole.natAbs) := by
  have hplace : a.place = c.place := (place_eq_of_order_eq hab).trans (place_eq_of_order_eq hbc)
  rcases integers_or_float a c with hints | hfloat
  · rw [order_of_integers hints, Int.compare_eq_eq]
    by_cases heq : a.whole = c.whole
    · exact .inl heq
    · cases hb : b.isInteger with
      | true =>
        rw [order_of_integers ⟨hints.1, hb⟩, Int.compare_eq_eq] at hab
        rw [order_of_integers ⟨hb, hints.2⟩, Int.compare_eq_eq] at hbc
        exact absurd (hab.trans hbc) heq
      | false =>
        obtain ⟨x, hx, hxw⟩ := toInt64?_of_isInteger hints.1
        obtain ⟨y, hy, hyw⟩ := toInt64?_of_isInteger hints.2
        rw [place, place, toFloat?_of_toInt64? hx, toFloat?_of_toInt64? hy] at hplace
        have hlarge := Binary64.natAbs_of_rank_ofInt64_eq hplace (by rw [hxw, hyw]; exact heq)
        rw [hxw, hyw] at hlarge
        exact .inr ⟨hints.1, rfl, hints.2, heq, hlarge⟩
  · rw [order_of_float hfloat, Int.compare_eq_eq]
    exact .inl hplace

end laws

/-! ## Comparison by value -/

theorem amount_of_isInteger {v : Value} (h : v.isInteger = true) : v.amount = v.whole * Binary64.unitsPerOne := by
  cases v with
  | float f => cases h
  | _ => rfl

/-- A number that fits into a float is compared by its value there. -/
theorem Comparable.amount_eq {v : Value} (h : v.Comparable) (hsmall : v.whole.natAbs ≤ 2 ^ 53) :
    v.amount = Binary64.unitsAt v.place := by
  rcases h.cases with ⟨hint, n, hn, hwhole, hfloat⟩ | ⟨-, f, rfl, -⟩
  · rw [← hwhole] at hsmall
    rw [amount_of_isInteger hint, place, hfloat, ← hwhole, ← Binary64.amount_ofInt64 hsmall]
    exact (Binary64.unitsAt_rank _).symm
  · exact (Binary64.unitsAt_rank f).symm

/-- A function that keeps the order of integers keeps their comparison. -/
theorem compare_of_lt {f : Int → Int} (hf : ∀ {i j : Int}, i < j → f i < f j) (i j : Int) :
    compare (f i) (f j) = compare i j := by
  rcases Int.lt_trichotomy i j with h | h | h
  · rw [Int.compare_eq_lt.mpr h, Int.compare_eq_lt.mpr (hf h)]
  · rw [h, Int.compare_eq_eq.mpr rfl, Int.compare_eq_eq.mpr rfl]
  · rw [Int.compare_eq_gt.mpr h, Int.compare_eq_gt.mpr (hf h)]

theorem mul_unitsPerOne_lt {i j : Int} (h : i < j) : i * Binary64.unitsPerOne < j * Binary64.unitsPerOne :=
  Int.mul_lt_mul_of_pos_right h (Int.natCast_pos.mpr Binary64.unitsPerOne_pos)

theorem whole_of_not_isInteger {v : Value} (h : v.isInteger = false) : v.whole = 0 := by
  cases v with
  | int _ | bool _ => cases h
  | _ => rfl

/-- Two integers, two floats, or numbers of which the integer is at most `2 ^ 53`. -/
def Exact (a b : Value) : Prop :=
  a.isInteger = b.isInteger ∨ (a.whole.natAbs ≤ 2 ^ 53 ∧ b.whole.natAbs ≤ 2 ^ 53)

/-- Numbers are compared by their value, unless an integer beyond `2 ^ 53` meets a float. -/
theorem order_eq_compare_amount {a b : Value} (ha : a.Comparable) (hb : b.Comparable) (h : Exact a b) :
    a.order b = compare a.amount b.amount := by
  rcases integers_or_float a b with hints | hfloat
  · rw [order_of_integers hints, amount_of_isInteger hints.1, amount_of_isInteger hints.2]
    exact (compare_of_lt mul_unitsPerOne_lt _ _).symm
  · have hsmall : a.whole.natAbs ≤ 2 ^ 53 ∧ b.whole.natAbs ≤ 2 ^ 53 := by
      rcases h with hkind | hsmall
      · have hnot : a.isInteger = false ∧ b.isInteger = false := by
          rw [← hkind, or_self] at hfloat
          exact ⟨hfloat, hkind ▸ hfloat⟩
        rw [whole_of_not_isInteger hnot.1, whole_of_not_isInteger hnot.2]
        decide
      · exact hsmall
    rw [order_of_float hfloat, ha.amount_eq hsmall.1, hb.amount_eq hsmall.2]
    exact (compare_of_lt Binary64.unitsAt_lt_unitsAt _ _).symm

end FormLang.Value
