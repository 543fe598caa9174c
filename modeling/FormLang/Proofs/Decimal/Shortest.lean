import Mathlib.Algebra.Order.Field.Basic
import FormLang.Decimal.Shortest
import FormLang.Proofs.Binary64.Rounding

/-!
# The shortest decimal is nearest to its double

The digits that are printed for a double make up a decimal that is nearest to this double (`shortest_roundsTo`). The search
stops at a grid with a decimal in the interval of the double (`contains_search`). It does so within seventeen steps, because the
spacing of doubles is never much less than the last of seventeen digits: on a grid with steps of less than `x / 2 ^ 53` one of the
two neighbours of `x` is nearest to it (`roundsTo_of_near`).
-/

namespace FormLang.Decimal

open Binary64 (RoundsTo reach mantissa exponent)

/-- The number that a decimal stands for. -/
def Scaled.toRat (s : Scaled) : ℚ :=
  s.digits * 10 ^ s.exponent

/-- The number in the middle of an interval. -/
def Interval.toRat (iv : Interval) : ℚ :=
  iv.value / iv.den

/-- The rational lies in the interval. -/
structure Interval.Contains (iv : Interval) (x : ℚ) : Prop where
  low : iv.low ≤ x * iv.den
  high : x * iv.den ≤ iv.high
  inside : iv.closed = false → iv.low < x * iv.den ∧ x * iv.den < iv.high

/-! ## Grids -/

namespace Interval

variable (iv : Interval)

theorem shift_eq (e : ℤ) : iv.shift e =
    ⟨iv.low * 10 ^ (-e).toNat, iv.value * 10 ^ (-e).toNat, iv.high * 10 ^ (-e).toNat, iv.den * 10 ^ e.toNat, iv.closed⟩ := by
  rw [shift]
  by_cases h : 0 ≤ e
  · rw [if_pos h, (by omega : (-e).toNat = 0), pow_zero, Nat.mul_one, Nat.mul_one, Nat.mul_one]
    rfl
  · rw [if_neg h, (by omega : e.toNat = 0), pow_zero, Nat.mul_one]
    rfl

/-- On the grid of an exponent the integers stand for its multiples. -/
theorem holds_shift_iff (e : ℤ) (c : Nat) : (iv.shift e).holds c = true ↔ iv.Contains (c * 10 ^ e) := by
  have hscale : (0 : ℚ) < 10 ^ (-e).toNat := pow_pos (by norm_num) _
  have hle : ∀ a : Nat, a * 10 ^ (-e).toNat ≤ c * (iv.den * 10 ^ e.toNat) ↔ (a : ℚ) ≤ c * 10 ^ e * iv.den := by
    intro a
    rw [Binary64.zpow_eq_div, mul_div_assoc', div_mul_eq_mul_div, le_div_iff₀ hscale, mul_right_comm, mul_assoc]
    exact_mod_cast Iff.rfl
  have hge : ∀ a : Nat, c * (iv.den * 10 ^ e.toNat) ≤ a * 10 ^ (-e).toNat ↔ (c : ℚ) * 10 ^ e * iv.den ≤ a := by
    intro a
    rw [Binary64.zpow_eq_div, mul_div_assoc', div_mul_eq_mul_div, div_le_iff₀ hscale, mul_right_comm, mul_assoc]
    exact_mod_cast Iff.rfl
  have hparts : iv.Contains (c * 10 ^ e) ↔ (iv.low : ℚ) ≤ c * 10 ^ e * iv.den ∧ (c : ℚ) * 10 ^ e * iv.den ≤ iv.high ∧
      (iv.closed = false → (iv.low : ℚ) < c * 10 ^ e * iv.den ∧ (c : ℚ) * 10 ^ e * iv.den < iv.high) :=
    ⟨fun h => ⟨h.low, h.high, h.inside⟩, fun h => ⟨h.1, h.2.1, h.2.2⟩⟩
  rw [hparts, ← not_le, ← not_le, ← hle, ← hge, ← hge, ← hle, not_le, not_le, shift_eq, holds]
  cases iv.closed with
  | true => simp
  | false =>
    simp only [Bool.false_eq_true, if_false, Bool.and_eq_true, decide_eq_true_eq, forall_const]
    omega

theorem toRat_shift (e : ℤ) : (iv.shift e).toRat = iv.toRat / 10 ^ e := by
  rw [shift_eq, toRat, toRat, Binary64.zpow_eq_div, div_div_div_eq]
  push_cast
  rfl

/-- A grid whose integer is found holds a decimal of the interval. -/
theorem contains_of_nearest? {e : ℤ} {c : Nat} (h : (iv.shift e).nearest? = some c) : iv.Contains (c * 10 ^ e) := by
  rw [← holds_shift_iff]
  rw [nearest?] at h
  split at h
  · cases h
    split <;> assumption
  · cases h
    assumption
  · cases h
    assumption
  · cases h

/-- Nothing is found only if neither neighbour of the value lies in the interval. -/
theorem nearest?_ne_none {e : ℤ} (h : iv.Contains (((iv.shift e).value / (iv.shift e).den : Nat) * 10 ^ e) ∨
    iv.Contains (((iv.shift e).value / (iv.shift e).den + 1 : Nat) * 10 ^ e)) : (iv.shift e).nearest? ≠ none := by
  rw [← holds_shift_iff, ← holds_shift_iff] at h
  rw [nearest?]
  rcases h with h | h
  · simp only [h]
    split <;> simp_all
  · simp only [h]
    split <;> simp_all

/-- If a later grid holds a decimal, the search ends with one. -/
theorem contains_search {e : ℤ} {n : Nat} (h : (iv.shift (e - n)).nearest? ≠ none) :
    iv.Contains (iv.search e (n + 1)).toRat := by
  induction n generalizing e with
  | zero =>
    rw [Nat.cast_zero, sub_zero] at h
    obtain ⟨c, hc⟩ := Option.ne_none_iff_exists'.mp h
    rw [search, hc]
    exact contains_of_nearest? iv hc
  | succ n ih =>
    rw [search]
    split
    · exact contains_of_nearest? iv ‹_›
    · refine ih ?_
      rwa [sub_sub, add_comm 1 (n : ℤ), ← Nat.cast_succ]

/-- One of the two neighbours on a grid is at most half a step away. -/
theorem neighbour_near (hden : iv.den ≠ 0) (e : ℤ) :
    |((iv.shift e).value / (iv.shift e).den : Nat) * 10 ^ e - iv.toRat| ≤ 10 ^ e / 2 ∨
    |((iv.shift e).value / (iv.shift e).den + 1 : Nat) * 10 ^ e - iv.toRat| ≤ 10 ^ e / 2 := by
  have hten : (0 : ℚ) < 10 ^ e := zpow_pos (by norm_num) e
  have hpos : 0 < (iv.shift e).den := by
    rw [shift_eq]
    exact Nat.mul_pos (Nat.pos_of_ne_zero hden) (pow_pos (by decide) _)
  have hposq : (0 : ℚ) < (iv.shift e).den := by exact_mod_cast hpos
  have hrat : iv.toRat = (iv.shift e).toRat * 10 ^ e := by
    rw [toRat_shift, div_mul_cancel₀ _ hten.ne']
  rw [hrat, toRat, ← sub_mul, ← sub_mul, abs_mul, abs_mul, abs_of_pos hten, div_eq_inv_mul _ (2 : ℚ),
    mul_le_mul_iff_left₀ hten, mul_le_mul_iff_left₀ hten, abs_le, abs_le]
  generalize (iv.shift e).value = v, (iv.shift e).den = d at *
  have hlow : ((v / d : Nat) : ℚ) ≤ (v : ℚ) / d := by
    rw [le_div_iff₀ hposq]
    exact_mod_cast Nat.div_mul_le_self v d
  have hhigh : (v : ℚ) / d < (v / d : Nat) + 1 := by
    rw [div_lt_iff₀ hposq]
    exact_mod_cast (Nat.div_lt_iff_lt_mul hpos).mp (Nat.lt_succ_self (v / d))
  push_cast
  rcases le_total ((v : ℚ) / d - (v / d : Nat)) 2⁻¹ with h | h
  · exact .inl ⟨by linarith, by linarith⟩
  · exact .inr ⟨by linarith, by linarith⟩

end Interval

/-! ## The interval of a double -/

section ofBits

variable {bits : Nat}

theorem ofBits_eq (bits : Nat) : Interval.ofBits bits =
    ⟨(4 * mantissa bits - if mantissa bits = 2 ^ 52 ∧ 1 < bits / 2 ^ 52 then 1 else 2) * 2 ^ (exponent bits - 2).toNat,
      4 * mantissa bits * 2 ^ (exponent bits - 2).toNat, (4 * mantissa bits + 2) * 2 ^ (exponent bits - 2).toNat,
      2 ^ (-(exponent bits - 2)).toNat, mantissa bits % 2 = 0⟩ := by
  have hup : (if 0 ≤ exponent bits - 2 then Nat.pow 2 (exponent bits - 2).toNat else 1) = 2 ^ (exponent bits - 2).toNat := by
    split
    · rfl
    · rw [(by omega : (exponent bits - 2).toNat = 0), pow_zero]
  have hden : (if 0 ≤ exponent bits - 2 then 1 else Nat.pow 2 (-(exponent bits - 2)).toNat) =
      2 ^ (-(exponent bits - 2)).toNat := by
    split
    · rw [(by omega : (-(exponent bits - 2)).toNat = 0), pow_zero]
    · rfl
  rw [Interval.ofBits]
  simp only [hup, hden, Bool.and_eq_true, decide_eq_true_eq]
  rfl

theorem den_ofBits (bits : Nat) : (Interval.ofBits bits).den ≠ 0 := by
  rw [ofBits_eq]
  exact (Nat.two_pow_pos _).ne'

/-- A quarter of the last place, over the denominator of the interval. -/
theorem quarter_eq (bits : Nat) : (2 : ℚ) ^ (exponent bits - 2).toNat = 2 ^ exponent bits / 4 * 2 ^ (-(exponent bits - 2)).toNat := by
  have hpow : (2 : ℚ) ^ (exponent bits - 2) = 2 ^ exponent bits / 4 := by
    rw [zpow_sub₀ two_ne_zero]
    norm_num
  rw [← hpow, Binary64.zpow_eq_div, div_mul_cancel₀ _ (pow_ne_zero _ two_ne_zero)]

theorem toRat_ofBits (bits : Nat) : (Interval.ofBits bits).toRat = mantissa bits * 2 ^ exponent bits := by
  rw [Interval.toRat, div_eq_iff (by exact_mod_cast den_ofBits bits), ofBits_eq]
  push_cast
  rw [quarter_eq]
  ring

theorem low_ofBits (hbits : bits ≠ 0) :
    ((Interval.ofBits bits).low : ℚ) = (mantissa bits - reach bits) * 2 ^ exponent bits * (Interval.ofBits bits).den := by
  have hmantissa := Binary64.mantissa_pos hbits
  rw [ofBits_eq, reach]
  split
  · rw [Nat.cast_mul, Nat.cast_sub (by omega)]
    push_cast
    rw [quarter_eq]
    ring
  · rw [Nat.cast_mul, Nat.cast_sub (by omega)]
    push_cast
    rw [quarter_eq]
    ring

theorem high_ofBits (bits : Nat) :
    ((Interval.ofBits bits).high : ℚ) = (mantissa bits + 1 / 2) * 2 ^ exponent bits * (Interval.ofBits bits).den := by
  rw [ofBits_eq]
  push_cast
  rw [quarter_eq]
  ring

/-- The interval of a double holds the rationals that are nearest to it. -/
theorem contains_ofBits_iff (hbits : bits ≠ 0) (x : ℚ) : (Interval.ofBits bits).Contains x ↔ RoundsTo x bits := by
  have hpos : (0 : ℚ) < 2 ^ exponent bits := zpow_pos two_pos _
  have hden : (0 : ℚ) < (Interval.ofBits bits).den := by exact_mod_cast Nat.pos_of_ne_zero (den_ofBits bits)
  have hclosed : (Interval.ofBits bits).closed = false ↔ mantissa bits % 2 = 1 := by
    rw [ofBits_eq]
    simp
  have hle : (Interval.ofBits bits).low ≤ x * (Interval.ofBits bits).den ↔
      mantissa bits - reach bits ≤ x / 2 ^ exponent bits := by
    rw [low_ofBits hbits, mul_le_mul_iff_left₀ hden, le_div_iff₀ hpos]
  have hge : x * (Interval.ofBits bits).den ≤ (Interval.ofBits bits).high ↔
      x / 2 ^ exponent bits ≤ mantissa bits + 1 / 2 := by
    rw [high_ofBits, mul_le_mul_iff_left₀ hden, div_le_iff₀ hpos]
  have hlt : (Interval.ofBits bits).low < x * (Interval.ofBits bits).den ↔
      mantissa bits - reach bits < x / 2 ^ exponent bits := by
    rw [low_ofBits hbits, mul_lt_mul_iff_left₀ hden, lt_div_iff₀ hpos]
  have hgt : x * (Interval.ofBits bits).den < (Interval.ofBits bits).high ↔
      x / 2 ^ exponent bits < mantissa bits + 1 / 2 := by
    rw [high_ofBits, mul_lt_mul_iff_left₀ hden, div_lt_iff₀ hpos]
  exact ⟨fun h => ⟨hle.mp h.low, hge.mp h.high, fun hodd => (h.inside (hclosed.mpr hodd)).imp hlt.mp hgt.mp⟩,
    fun h => ⟨hle.mpr h.low, hge.mpr h.high, fun hopen => (h.inside (hclosed.mp hopen)).imp hlt.mpr hgt.mpr⟩⟩

/-- What differs from a double by less than a part in `2 ^ 54` is nearest to it. -/
theorem roundsTo_of_near {x : ℚ} (h : |x - mantissa bits * 2 ^ exponent bits| * 2 ^ 54 < mantissa bits * 2 ^ exponent bits) :
    RoundsTo x bits := by
  have hpos : (0 : ℚ) < 2 ^ exponent bits := zpow_pos two_pos _
  have hmantissa : (mantissa bits : ℚ) < 2 ^ 53 := by exact_mod_cast Binary64.mantissa_lt bits
  have hreach : (mantissa bits : ℚ) / 2 ^ 54 ≤ reach bits := by
    rw [reach]
    split
    · rename_i hpower
      rw [hpower.1]
      norm_num
    · linarith
  have hnear : |x / 2 ^ exponent bits - mantissa bits| < mantissa bits / 2 ^ 54 := by
    rw [lt_div_iff₀ (by norm_num), div_sub' hpos.ne', abs_div, abs_of_pos hpos, div_mul_eq_mul_div, div_lt_iff₀ hpos,
      mul_comm (2 ^ _) (mantissa bits : ℚ)]
    exact h
  rw [abs_lt] at hnear
  have hhalf : (mantissa bits : ℚ) / 2 ^ 54 < 1 / 2 := by linarith
  exact ⟨by linarith, by linarith, fun _ => ⟨by linarith, by linarith⟩⟩

end ofBits

/-! ## Seventeen digits -/

/-- Powers of ten against powers of two, where `10 ^ b` is close to `2 ^ a`. -/
theorem ten_zpow_le_two_zpow {a b : Nat} (ha : a ≠ 0) (hlow : 2 ^ a ≤ 10 ^ b) (hhigh : 10 ^ b ≤ 2 ^ (a + 1)) {g k : ℤ}
    (hg : a * g ≤ b * k) (hk : k ≤ a) : (10 : ℚ) ^ (g - 1) ≤ 2 ^ (k - 1) := by
  have hlow : (2 : ℚ) ^ a ≤ 10 ^ b := by exact_mod_cast hlow
  have hhigh : (10 : ℚ) ^ b ≤ 2 ^ (a + 1) := by exact_mod_cast hhigh
  have hpower : ((10 : ℚ) ^ g) ^ a ≤ (10 ^ b) ^ k := by
    rw [← zpow_natCast, ← zpow_natCast, ← zpow_mul, ← zpow_mul, mul_comm]
    exact zpow_le_zpow_right₀ (by norm_num) hg
  have hle : (10 : ℚ) ^ g ≤ 2 ^ (k + 1) := by
    rw [← pow_le_pow_iff_left₀ (zpow_nonneg (by norm_num) _) (zpow_nonneg (by norm_num) _) ha]
    refine hpower.trans ?_
    rcases le_total 0 k with hpos | hneg
    · refine (zpow_le_zpow_left₀ hpos (by positivity) hhigh).trans ?_
      rw [← zpow_natCast, ← zpow_natCast, ← zpow_mul, ← zpow_mul]
      exact zpow_le_zpow_right₀ one_le_two (by push_cast; linarith)
    · have hinv : ((10 : ℚ) ^ b) ^ k ≤ (2 ^ a) ^ k := by
        obtain ⟨j, rfl⟩ := Int.exists_eq_neg_ofNat hneg
        rw [zpow_neg, zpow_neg, zpow_natCast, zpow_natCast]
        exact inv_anti₀ (by positivity) (pow_le_pow_left₀ (by positivity) hlow j)
      refine hinv.trans ?_
      rw [← zpow_natCast, ← zpow_natCast, ← zpow_mul, ← zpow_mul]
      exact zpow_le_zpow_right₀ one_le_two (by linarith)
  have htwo : (2 : ℚ) ^ (k + 1) = 2 ^ (k - 1) * 4 := by
    rw [(by ring : k + 1 = k - 1 + 2), zpow_add₀ two_ne_zero]
    norm_num
  have hpos : (0 : ℚ) < 2 ^ (k - 1) := zpow_pos two_pos _
  rw [zpow_sub_one₀ (by norm_num)]
  linarith

/-- The exponent that the search starts with is not too large. -/
theorem ten_zpow_leading_le {iv : Interval} (hvalue : iv.value ≠ 0) (hden : iv.den ≠ 0) (hlog : iv.value.log2 ≤ 100000) :
    (10 : ℚ) ^ iv.leading ≤ iv.toRat := by
  have hreaches : ∀ p : ℤ, (iv.shift p).den ≤ (iv.shift p).value → (10 : ℚ) ^ p ≤ iv.toRat := by
    intro p h
    have hten : (0 : ℚ) < 10 ^ p := zpow_pos (by norm_num) p
    have hpos : 0 < (iv.shift p).den := by
      rw [Interval.shift_eq]
      exact Nat.mul_pos (Nat.pos_of_ne_zero hden) (pow_pos (by decide) _)
    rw [← one_le_div hten, ← Interval.toRat_shift, Interval.toRat, one_le_div (by exact_mod_cast hpos)]
    exact_mod_cast h
  unfold Interval.leading
  simp only
  split
  · exact hreaches _ (of_decide_eq_true ‹_›)
  · split
    · exact hreaches _ (of_decide_eq_true ‹_›)
    · have hlow : 2 ^ 100000 ≤ 10 ^ 30103 := by decide +kernel
      have hhigh : 10 ^ 30103 ≤ 2 ^ (100000 + 1) := by decide +kernel
      refine (ten_zpow_le_two_zpow (by decide) hlow hhigh ?_ (by omega)).trans (Binary64.ratio_bounds hvalue hden).1
      have hfloor := Int.mul_ediv_self_le (x := ((iv.value.log2 : ℤ) - iv.den.log2) * 30103) (k := 100000) (by decide)
      rw [Int.fdiv_eq_ediv_of_nonneg _ (by decide)]
      push_cast
      omega

/-- On a fine grid the search finds a decimal. -/
theorem nearest?_ofBits_ne_none {bits : Nat} (hbits : bits ≠ 0) {e : ℤ}
    (h : (10 : ℚ) ^ e * 2 ^ 53 < (Interval.ofBits bits).toRat) : ((Interval.ofBits bits).shift e).nearest? ≠ none := by
  have hnear : ∀ x : ℚ, |x - (Interval.ofBits bits).toRat| ≤ 10 ^ e / 2 → (Interval.ofBits bits).Contains x := by
    intro x hx
    rw [contains_ofBits_iff hbits]
    rw [toRat_ofBits] at h hx
    exact roundsTo_of_near (by linarith)
  refine Interval.nearest?_ne_none _ ?_
  exact (Interval.neighbour_near _ (den_ofBits bits) e).imp (hnear _) (hnear _)

theorem log2_value_ofBits {bits : Nat} (hbits : bits ≠ 0) (hfinite : bits < Binary64.infinityBits) :
    (Interval.ofBits bits).value ≠ 0 ∧ (Interval.ofBits bits).value.log2 < 1024 := by
  have hpos := Binary64.mantissa_pos hbits
  have hmantissa := Binary64.mantissa_lt bits
  have hexponent : (exponent bits - 2).toNat ≤ 969 := by
    rw [Binary64.infinityBits_eq] at hfinite
    rw [Binary64.exponent_eq, Binary64.doublings]
    omega
  have hvalue : (Interval.ofBits bits).value = 4 * mantissa bits * 2 ^ (exponent bits - 2).toNat := by rw [ofBits_eq]
  have hne : (Interval.ofBits bits).value ≠ 0 := by
    rw [hvalue]
    exact (Nat.mul_pos (by omega) (Nat.two_pow_pos _)).ne'
  have hlt : (Interval.ofBits bits).value < 2 ^ (55 + (exponent bits - 2).toNat) := by
    rw [hvalue, pow_add]
    exact Nat.mul_lt_mul_of_pos_right (by omega) (Nat.two_pow_pos _)
  exact ⟨hne, ((Nat.log2_lt hne).mpr hlt).trans_le (by omega)⟩

/-- Seventeen digits suffice, since `2 ^ 53` is less than `10 ^ 16`. -/
theorem search_roundsTo {bits : Nat} (hbits : bits ≠ 0) (hfinite : bits < Binary64.infinityBits) :
    RoundsTo ((Interval.ofBits bits).search (Interval.ofBits bits).leading 17).toRat bits := by
  obtain ⟨hvalue, hlog⟩ := log2_value_ofBits hbits hfinite
  have hleading := ten_zpow_leading_le hvalue (den_ofBits bits) (by omega)
  generalize (Interval.ofBits bits).leading = lead at hleading ⊢
  have hpos : (0 : ℚ) < 10 ^ lead := zpow_pos (by norm_num) lead
  rw [← contains_ofBits_iff hbits]
  refine Interval.contains_search _ (nearest?_ofBits_ne_none hbits (hleading.trans_lt' ?_))
  rw [zpow_sub₀ (by norm_num), zpow_natCast, div_mul_eq_mul_div, div_lt_iff₀ (by norm_num)]
  exact mul_lt_mul_of_pos_left (by norm_num) hpos

theorem Scaled.toRat_strip (s : Scaled) (n : Nat) : (s.strip n).toRat = s.toRat := by
  induction n generalizing s with
  | zero => rfl
  | succ n ih =>
    rw [strip]
    split
    · rename_i h
      have hzero : s.digits % 10 = 0 := by
        rw [Bool.and_eq_true, decide_eq_true_eq] at h
        exact h.1
      have hdigits : (s.digits : ℚ) = (s.digits / 10 : Nat) * 10 := by
        exact_mod_cast (by omega : s.digits = s.digits / 10 * 10)
      rw [ih, toRat, toRat, hdigits, zpow_add_one₀ (by norm_num)]
      ring
    · rfl

/-- **The shortest decimal of a double is nearest to it.** -/
theorem shortest_roundsTo {bits : Nat} (hbits : bits ≠ 0) (hfinite : bits < Binary64.infinityBits) :
    RoundsTo (shortest bits).toRat bits := by
  rw [shortest, Scaled.toRat_strip]
  exact search_roundsTo hbits hfinite

end FormLang.Decimal
