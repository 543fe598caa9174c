import Mathlib.Order.Monotone.Basic
import Mathlib.Tactic.Ring
import FormLang.Binary64.Basic

/-!
# Magnitude words as numbers

A magnitude word is the number of the least doubles that its mantissa and its exponent make up (`units`). Larger words are
larger numbers (`units_lt_units_iff`), so magnitudes can be compared as words.

The word nearest to a natural number has the exponent of the leading bit of that number (`ofRatio_one`). Rounding keeps the
order (`ofRatio_one_mono`), and up to `2 ^ 53` nothing is rounded at all (`units_ofRatio_one`).
-/

namespace FormLang.Binary64

/-! ## Units of the least double -/

/-- How often the least double is doubled for the last bit of the mantissa. -/
def doublings (bits : Nat) : Nat :=
  bits / 2 ^ 52 - 1

/-- A magnitude in units of the least double. Infinity counts as the power of two that follows the largest double. -/
def units (bits : Nat) : Nat :=
  mantissa bits * 2 ^ doublings bits

/-- The number of units in one. -/
def unitsPerOne : Nat :=
  2 ^ 1074

theorem unitsPerOne_pos : 0 < unitsPerOne :=
  pow_pos two_pos 1074

theorem infinityBits_eq : infinityBits = 2047 * 2 ^ 52 := rfl

theorem mantissa_eq (bits : Nat) :
    mantissa bits = if bits / 2 ^ 52 = 0 then bits % 2 ^ 52 else 2 ^ 52 + bits % 2 ^ 52 := rfl

theorem exponent_eq (bits : Nat) : exponent bits = doublings bits - 1074 := by
  have hdef : exponent bits = if bits / 2 ^ 52 = 0 then -1074 else ((bits / 2 ^ 52 : Nat) : Int) - 1075 := rfl
  rw [hdef, doublings]
  split <;> omega

/-- A word is the number of doublings followed by the mantissa, whose leading bit runs over into that number. -/
theorem bits_eq (bits : Nat) : bits = doublings bits * 2 ^ 52 + mantissa bits := by
  rw [doublings, mantissa_eq]
  split <;> omega

theorem mantissa_lt (bits : Nat) : mantissa bits < 2 ^ 53 := by
  rw [mantissa_eq]
  split <;> omega

theorem le_mantissa {bits : Nat} (h : 0 < doublings bits) : 2 ^ 52 ≤ mantissa bits := by
  rw [doublings] at h
  rw [mantissa_eq, if_neg (by omega)]
  omega

theorem mantissa_pos {bits : Nat} (h : bits ≠ 0) : 0 < mantissa bits := by
  rw [mantissa_eq]
  split <;> omega

theorem lt_of_doublings_lt {a b : Nat} (h : doublings a < doublings b) : a < b := by
  have ha := bits_eq a
  have hb := bits_eq b
  have hlt := mantissa_lt a
  have hle := le_mantissa (Nat.zero_lt_of_lt h)
  omega

theorem lt_iff_of_doublings_eq {a b : Nat} (h : doublings a = doublings b) : a < b ↔ mantissa a < mantissa b := by
  have ha := bits_eq a
  have hb := bits_eq b
  omega

/-- The order of words is that of exponents first and mantissas second. -/
theorem compare_parts (a b : Nat) :
    (compare (exponent a) (exponent b)).then (compare (mantissa a) (mantissa b)) = compare (a : Int) b := by
  rw [exponent_eq, exponent_eq]
  rcases Nat.lt_trichotomy (doublings a) (doublings b) with hlt | heq | hgt
  · have hword := lt_of_doublings_lt hlt
    rw [Int.compare_eq_lt.mpr (by omega), Int.compare_eq_lt.mpr (by omega)]
    rfl
  · rw [heq, Int.compare_eq_eq.mpr rfl]
    change compare (mantissa a) (mantissa b) = compare (a : Int) b
    rcases Nat.lt_trichotomy (mantissa a) (mantissa b) with h | h | h
    · have hword := (lt_iff_of_doublings_eq heq).mpr h
      rw [Nat.compare_eq_lt.mpr h, Int.compare_eq_lt.mpr (by omega)]
    · have hword : a = b := by rw [bits_eq a, bits_eq b, heq, h]
      rw [hword, Nat.compare_eq_eq.mpr rfl, Int.compare_eq_eq.mpr rfl]
    · have hword := (lt_iff_of_doublings_eq heq.symm).mpr h
      rw [Nat.compare_eq_gt.mpr h, Int.compare_eq_gt.mpr (by omega)]
  · have hword := lt_of_doublings_lt hgt
    rw [Int.compare_eq_gt.mpr (by omega), Int.compare_eq_gt.mpr (by omega)]
    rfl

theorem units_lt_units {a b : Nat} (h : a < b) : units a < units b := by
  rcases Nat.lt_trichotomy (doublings a) (doublings b) with hlt | heq | hgt
  · calc
      units a < 2 ^ 53 * 2 ^ doublings a := Nat.mul_lt_mul_of_pos_right (mantissa_lt a) (Nat.two_pow_pos _)
      _ = 2 ^ 52 * 2 ^ (doublings a + 1) := by ring
      _ ≤ 2 ^ 52 * 2 ^ doublings b := Nat.mul_le_mul_left _ (Nat.pow_le_pow_right (by decide) hlt)
      _ ≤ units b := Nat.mul_le_mul_right _ (le_mantissa (Nat.zero_lt_of_lt hlt))
  · rw [units, units, heq]
    exact Nat.mul_lt_mul_of_pos_right ((lt_iff_of_doublings_eq heq).mp h) (Nat.two_pow_pos _)
  · exact absurd (lt_of_doublings_lt hgt) (by omega)

theorem units_lt_units_iff {a b : Nat} : units a < units b ↔ a < b :=
  StrictMono.lt_iff_lt fun _ _ h => units_lt_units h

/-- A mantissa with its leading bit set goes with any number of doublings. -/
theorem units_of_parts {s m : Nat} (hlow : 2 ^ 52 ≤ m) (hhigh : m < 2 ^ 53) : units (s * 2 ^ 52 + m) = m * 2 ^ s := by
  have hdoublings : doublings (s * 2 ^ 52 + m) = s := by
    rw [doublings]
    omega
  have hmantissa : mantissa (s * 2 ^ 52 + m) = m := by
    rw [mantissa_eq, if_neg (by omega)]
    omega
  rw [units, hdoublings, hmantissa]

/-! ## Rounded quotients -/

theorem divNearest_eq (num den : Nat) : divNearest num den =
    if den < 2 * (num % den) ∨ (2 * (num % den) = den ∧ num / den % 2 = 1) then num / den + 1 else num / den := by
  simp [divNearest]

theorem divNearest_one (n : Nat) : divNearest n 1 = n := by
  rw [divNearest_eq, Nat.div_one, Nat.mod_one]
  rfl

theorem le_divNearest (num den : Nat) : num / den ≤ divNearest num den := by
  rw [divNearest_eq]
  split <;> omega

theorem divNearest_le (num den : Nat) : divNearest num den ≤ num / den + 1 := by
  rw [divNearest_eq]
  split <;> omega

theorem divNearest_mono {a b : Nat} (den : Nat) (h : a ≤ b) : divNearest a den ≤ divNearest b den := by
  rcases Nat.lt_or_eq_of_le (Nat.div_le_div_right h : a / den ≤ b / den) with hlt | heq
  · exact Nat.le_trans (divNearest_le a den) (Nat.le_trans hlt (le_divNearest b den))
  · -- The quotient is the same, and the larger remainder is rounded up at least as often.
    have ha := Nat.div_add_mod a den
    have hb := Nat.div_add_mod b den
    rw [divNearest_eq, divNearest_eq]
    rw [heq] at ha ⊢
    split <;> split <;> omega

/-! ## The word nearest to a natural number -/

/-- The mantissa of 53 bits that is nearest to a number with its leading bit at place `k`. -/
def leading (n k : Nat) : Nat :=
  if k ≤ 52 then n * 2 ^ (52 - k) else divNearest n (2 ^ (k - 52))

theorem scaleDown_one (n k j : Nat) :
    scaleDown n 1 ((k : Int) - j) = if k ≤ j then (n * 2 ^ (j - k), 1) else (n, 2 ^ (k - j)) := by
  rw [scaleDown]
  rcases Nat.lt_trichotomy k j with h | h | h
  · rw [if_neg (by omega), if_pos h.le, (by omega : (-((k : Int) - j)).toNat = j - k)]
    rfl
  · rw [if_pos (by omega), if_pos h.le, (by omega : ((k : Int) - j).toNat = 0), (by omega : j - k = 0)]
    exact Prod.ext (Nat.mul_one n).symm rfl
  · rw [if_pos (by omega), if_neg (by omega), (by omega : ((k : Int) - j).toNat = k - j), Nat.one_mul]
    rfl

section nearest

variable {n : Nat} (hn : n ≠ 0)

include hn

/-- Scaled to 54 bits the number has its leading bit there. -/
theorem le_quotient_log2 : 2 ^ 53 ≤ (scaleDown n 1 ((n.log2 : Int) - 53)).1 / (scaleDown n 1 ((n.log2 : Int) - 53)).2 := by
  have hlow := Nat.log2_self_le hn
  have hscale : scaleDown n 1 ((n.log2 : Int) - 53) = _ := scaleDown_one n n.log2 53
  rw [hscale]
  by_cases hk : n.log2 ≤ 53
  · rw [if_pos hk, Nat.div_one]
    calc
      2 ^ 53 = 2 ^ n.log2 * 2 ^ (53 - n.log2) := by rw [← Nat.pow_add, (by omega : n.log2 + (53 - n.log2) = 53)]
      _ ≤ n * 2 ^ (53 - n.log2) := Nat.mul_le_mul_right _ hlow
  · rw [if_neg hk, Nat.le_div_iff_mul_le (Nat.two_pow_pos _), ← Nat.pow_add, (by omega : 53 + (n.log2 - 53) = n.log2)]
    exact hlow

theorem ratioExponent_one : ratioExponent n 1 = (n.log2 : Int) - 52 := by
  have hdef : ratioExponent n 1 =
      max (if (scaleDown n 1 ((n.log2 : Int) - 0 - 53)).1 / (scaleDown n 1 ((n.log2 : Int) - 0 - 53)).2 < 2 ^ 53
        then (n.log2 : Int) - 0 - 53 else (n.log2 : Int) - 0 - 53 + 1) (-1074) := rfl
  rw [hdef, Int.sub_zero, if_neg (Nat.not_lt.mpr (le_quotient_log2 hn))]
  omega

/-- The nearest word has the exponent of the leading bit. -/
theorem ofRatio_one : ofRatio n 1 = (n.log2 + 1022) * 2 ^ 52 + leading n n.log2 := by
  have hdef : ofRatio n 1 = if n = 0 then 0 else (ratioExponent n 1 + 1074).toNat * 2 ^ 52 +
      divNearest (scaleDown n 1 (ratioExponent n 1)).1 (scaleDown n 1 (ratioExponent n 1)).2 := rfl
  have hscale : scaleDown n 1 ((n.log2 : Int) - 52) = _ := scaleDown_one n n.log2 52
  rw [hdef, if_neg hn, ratioExponent_one hn, (by omega : ((n.log2 : Int) - 52 + 1074).toNat = n.log2 + 1022), hscale, leading]
  by_cases hk : n.log2 ≤ 52
  · rw [if_pos hk, if_pos hk, divNearest_one]
  · rw [if_neg hk, if_neg hk]

theorem leading_bounds :
    2 ^ 52 ≤ leading n n.log2 ∧ leading n n.log2 ≤ 2 ^ 53 ∧ (n < 2 ^ 53 → leading n n.log2 < 2 ^ 53) := by
  have hlow := Nat.log2_self_le hn
  have hhigh := Nat.lt_log2_self (n := n)
  rw [leading]
  by_cases hk : n.log2 ≤ 52
  · rw [if_pos hk]
    have hle : 2 ^ 52 ≤ n * 2 ^ (52 - n.log2) := by
      calc
        2 ^ 52 = 2 ^ n.log2 * 2 ^ (52 - n.log2) := by rw [← Nat.pow_add, (by omega : n.log2 + (52 - n.log2) = 52)]
        _ ≤ n * 2 ^ (52 - n.log2) := Nat.mul_le_mul_right _ hlow
    have hlt : n * 2 ^ (52 - n.log2) < 2 ^ 53 := by
      calc
        n * 2 ^ (52 - n.log2) < 2 ^ (n.log2 + 1) * 2 ^ (52 - n.log2) := Nat.mul_lt_mul_of_pos_right hhigh (Nat.two_pow_pos _)
        _ = 2 ^ 53 := by rw [← Nat.pow_add, (by omega : n.log2 + 1 + (52 - n.log2) = 53)]
    exact ⟨hle, hlt.le, fun _ => hlt⟩
  · rw [if_neg hk]
    have hle : 2 ^ 52 ≤ n / 2 ^ (n.log2 - 52) := by
      rw [Nat.le_div_iff_mul_le (Nat.two_pow_pos _), ← Nat.pow_add, (by omega : 52 + (n.log2 - 52) = n.log2)]
      exact hlow
    have hlt : n / 2 ^ (n.log2 - 52) < 2 ^ 53 := by
      rw [Nat.div_lt_iff_lt_mul (Nat.two_pow_pos _), ← Nat.pow_add, (by omega : 53 + (n.log2 - 52) = n.log2 + 1)]
      exact hhigh
    have hnear := le_divNearest n (2 ^ (n.log2 - 52))
    have hnear' := divNearest_le n (2 ^ (n.log2 - 52))
    refine ⟨by omega, by omega, fun hsmall => ?_⟩
    exact absurd ((Nat.log2_lt hn).mpr hsmall) (by omega)

end nearest

theorem leading_mono {a b : Nat} (k : Nat) (h : a ≤ b) : leading a k ≤ leading b k := by
  rw [leading, leading]
  split
  · exact Nat.mul_le_mul_right _ h
  · exact divNearest_mono _ h

/-- Rounding to the nearest word keeps the order of natural numbers. -/
theorem ofRatio_one_mono {a b : Nat} (h : a ≤ b) : ofRatio a 1 ≤ ofRatio b 1 := by
  by_cases ha : a = 0
  · rw [ha]
    exact Nat.zero_le _
  · have hb : b ≠ 0 := by omega
    obtain ⟨-, hhigh, -⟩ := leading_bounds ha
    obtain ⟨hlow, -⟩ := leading_bounds hb
    rw [ofRatio_one ha, ofRatio_one hb]
    rcases Nat.lt_trichotomy a.log2 b.log2 with hlt | heq | hgt
    · omega
    · rw [heq]
      exact Nat.add_le_add_left (leading_mono _ h) _
    · have hpow : b < 2 ^ a.log2 := (Nat.log2_lt hb).mp hgt
      have hself := Nat.log2_self_le ha
      omega

theorem ofRatio_one_lt {n : Nat} (h : n < 2 ^ 64) : ofRatio n 1 < infinityBits := by
  rw [infinityBits_eq]
  by_cases hn : n = 0
  · rw [hn]
    decide
  · obtain ⟨-, hhigh, -⟩ := leading_bounds hn
    have hlog := (Nat.log2_lt hn).mpr h
    rw [ofRatio_one hn]
    omega

/-- **Natural numbers up to `2 ^ 53` are doubles.** -/
theorem units_ofRatio_one {n : Nat} (h : n ≤ 2 ^ 53) : units (ofRatio n 1) = n * unitsPerOne := by
  by_cases hn : n = 0
  · rw [hn, Nat.zero_mul]
    rfl
  · rcases Nat.lt_or_eq_of_le h with hlt | heq
    · obtain ⟨hlow, -, hhigh⟩ := leading_bounds hn
      have hlog : n.log2 ≤ 52 := Nat.le_of_lt_succ ((Nat.log2_lt hn).mpr hlt)
      have hpower : 2 ^ (52 - n.log2) * 2 ^ (n.log2 + 1022) = unitsPerOne := by
        rw [← pow_add, (by omega : 52 - n.log2 + (n.log2 + 1022) = 1074), unitsPerOne]
      rw [ofRatio_one hn, units_of_parts hlow (hhigh hlt), leading, if_pos hlog, Nat.mul_assoc, hpower]
    · have hword : ofRatio (2 ^ 53) 1 = 1075 * 2 ^ 52 + 2 ^ 52 := by decide +kernel
      rw [heq, hword, units_of_parts (by decide) (by decide), unitsPerOne, ← pow_add, ← pow_add]

/-- Of two numbers with the same nearest word both are large. -/
theorem ofRatio_one_lt_ofRatio {a b : Nat} (h : a < b) (hsmall : a < 2 ^ 53) : ofRatio a 1 < ofRatio b 1 := by
  have hnext : ofRatio a 1 < ofRatio (a + 1) 1 := by
    rw [← units_lt_units_iff, units_ofRatio_one hsmall.le, units_ofRatio_one (by omega)]
    exact Nat.mul_lt_mul_of_pos_right (Nat.lt_succ_self a) unitsPerOne_pos
  exact Nat.lt_of_lt_of_le hnext (ofRatio_one_mono h)

end FormLang.Binary64
