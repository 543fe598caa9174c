import Mathlib.Algebra.Order.Field.Power
import Mathlib.Data.Rat.Cast.Order
import Mathlib.Tactic.FieldSimp
import Mathlib.Tactic.Linarith
import FormLang.Proofs.Binary64.Magnitude

/-!
# Rationals and the nearest double

The rationals that are nearest to a double lie between the middles to its two neighbours, and a middle goes to the even
mantissa (`RoundsTo`). Rounding a ratio gives the double that it is nearest to (`ofRatio_eq_of_roundsTo`): the exponent is the
one at which the ratio has 53 bits before the point (`Fits`), and where the ratio lies below a power of two but is nearest to
it, the rounded mantissa runs over into the exponent.
-/

namespace FormLang.Binary64

/-! ## Nearest doubles -/

/-- How far down the rationals reach that are nearest to a double, in units of its last place. Below a power of two the spacing
is half as wide. -/
def reach (bits : Nat) : ℚ :=
  if mantissa bits = 2 ^ 52 ∧ 1 < bits / 2 ^ 52 then 1 / 4 else 1 / 2

/-- The rational is nearest to the double with this magnitude. The middle to a neighbour belongs to the even mantissa. -/
structure RoundsTo (x : ℚ) (bits : Nat) : Prop where
  low : mantissa bits - reach bits ≤ x / 2 ^ exponent bits
  high : x / 2 ^ exponent bits ≤ mantissa bits + 1 / 2
  inside : mantissa bits % 2 = 1 → mantissa bits - reach bits < x / 2 ^ exponent bits ∧
    x / 2 ^ exponent bits < mantissa bits + 1 / 2

theorem reach_le (bits : Nat) : reach bits ≤ 1 / 2 := by
  rw [reach]
  split <;> norm_num

theorem RoundsTo.pos {x : ℚ} {bits : Nat} (h : RoundsTo x bits) (hbits : bits ≠ 0) : 0 < x := by
  have hmantissa : (1 : ℚ) ≤ mantissa bits := by exact_mod_cast mantissa_pos hbits
  have hreach := reach_le bits
  have hlow := h.low
  have hscaled : 0 < x / 2 ^ exponent bits := by linarith
  rwa [lt_div_iff₀ (zpow_pos two_pos _), zero_mul] at hscaled

theorem divNearest_eq_of_near {n d k : Nat} (hd : 0 < d) (hlow : (k : ℚ) - 1 / 2 ≤ n / d) (hhigh : (n : ℚ) / d ≤ k + 1 / 2)
    (hinside : k % 2 = 1 → (k : ℚ) - 1 / 2 < n / d ∧ (n : ℚ) / d < k + 1 / 2) : divNearest n d = k := by
  have hdpos : (0 : ℚ) < d := by exact_mod_cast hd
  -- the bounds without fractions
  have hle : 2 * (d * k) ≤ 2 * n + d := by
    rw [le_div_iff₀ hdpos] at hlow
    have : (2 : ℚ) * (d * k) ≤ 2 * n + d := by linarith
    exact_mod_cast this
  have hge : 2 * n ≤ 2 * (d * k) + d := by
    rw [div_le_iff₀ hdpos] at hhigh
    have : (2 : ℚ) * n ≤ 2 * (d * k) + d := by linarith
    exact_mod_cast this
  have hodd : k % 2 = 1 → 2 * (d * k) < 2 * n + d ∧ 2 * n < 2 * (d * k) + d := by
    intro h
    obtain ⟨hl, hh⟩ := hinside h
    rw [lt_div_iff₀ hdpos] at hl
    rw [div_lt_iff₀ hdpos] at hh
    have h1 : (2 : ℚ) * (d * k) < 2 * n + d := by linarith
    have h2 : (2 : ℚ) * n < 2 * (d * k) + d := by linarith
    exact_mod_cast And.intro h1 h2
  have hmod := Nat.div_add_mod n d
  have hlt := Nat.mod_lt n hd
  have hquot : n / d = k ∨ n / d + 1 = k := by
    have h1 : n / d < k + 1 := (Nat.div_lt_iff_lt_mul hd).mpr (by rw [Nat.add_mul, Nat.mul_comm k]; omega)
    have h2 : k < n / d + 2 := by
      by_contra hk
      have := Nat.mul_le_mul_left d (Nat.not_lt.mp hk)
      rw [Nat.mul_add] at this
      omega
    omega
  rw [divNearest_eq]
  rcases hquot with hquot | hquot
  · rw [hquot] at hmod ⊢
    split <;> omega
  · rw [← hquot, Nat.mul_add] at hle hge hodd
    rw [← hquot]
    split <;> omega

/-! ## The exponent of a ratio -/

/-- At this exponent the rational has a mantissa of 53 bits, or fewer at the least exponent. -/
structure Fits (x : ℚ) (e : ℤ) : Prop where
  least : -1074 ≤ e
  lt : x < 2 ^ 53 * 2 ^ e
  le : e = -1074 ∨ 2 ^ 52 * 2 ^ e ≤ x

theorem Fits.ge {x : ℚ} {e t : ℤ} (he : Fits x e) (ht : Fits x t) : t ≤ e := by
  by_contra h
  rw [not_le] at h
  rcases ht.le with hleast | hle
  · exact absurd he.least (by omega)
  · have hpow : (2 : ℚ) ^ (e + 1) ≤ 2 ^ t := zpow_le_zpow_right₀ one_le_two h
    rw [zpow_add_one₀ two_ne_zero] at hpow
    have hlt := he.lt
    linarith

/-- Below the least exponent nothing more is scaled. -/
theorem Fits.of_bounds {x : ℚ} {e : ℤ} (hlow : 2 ^ 52 * 2 ^ e ≤ x) (hhigh : x < 2 ^ 53 * 2 ^ e) : Fits x (max e (-1074)) := by
  rcases le_total e (-1074) with h | h
  · rw [max_eq_right h]
    have hpow : (2 : ℚ) ^ e ≤ 2 ^ (-1074 : ℤ) := zpow_le_zpow_right₀ one_le_two h
    exact ⟨le_rfl, hhigh.trans_le (mul_le_mul_of_nonneg_left hpow (by norm_num)), .inl rfl⟩
  · rw [max_eq_left h]
    exact ⟨h, hhigh, .inr hlow⟩

theorem Fits.unique {x : ℚ} {e t : ℤ} (he : Fits x e) (ht : Fits x t) : e = t :=
  le_antisymm (ht.ge he) (he.ge ht)

/-- A power with an integer exponent as a ratio of two powers, one of which is one. -/
theorem zpow_eq_div (b : ℚ) (e : ℤ) : b ^ e = b ^ e.toNat / b ^ (-e).toNat := by
  rcases Int.le_total 0 e with h | h
  · obtain ⟨k, rfl⟩ := Int.eq_ofNat_of_zero_le h
    rw [(by omega : (-(k : ℤ)).toNat = 0), Int.toNat_natCast, zpow_natCast, pow_zero, div_one]
  · obtain ⟨k, hk⟩ := Int.eq_ofNat_of_zero_le (by omega : 0 ≤ -e)
    obtain rfl : e = -k := by omega
    rw [(by omega : (-(k : ℤ)).toNat = 0), neg_neg, Int.toNat_natCast, zpow_neg, zpow_natCast, pow_zero, one_div]

section ratio

variable {num den : Nat}

theorem scaleDown_eq (num den : Nat) (e : ℤ) : scaleDown num den e = (num * 2 ^ (-e).toNat, den * 2 ^ e.toNat) := by
  rw [scaleDown]
  by_cases h : 0 ≤ e
  · rw [if_pos h, (by omega : (-e).toNat = 0), pow_zero, Nat.mul_one]
    rfl
  · rw [if_neg h, (by omega : e.toNat = 0), pow_zero, Nat.mul_one]
    rfl

theorem snd_scaleDown_pos (num : Nat) (hden : 0 < den) (e : ℤ) : 0 < (scaleDown num den e).2 := by
  rw [scaleDown_eq]
  exact Nat.mul_pos hden (Nat.two_pow_pos _)

theorem scaleDown_div (num den : Nat) (e : ℤ) :
    ((scaleDown num den e).1 : ℚ) / (scaleDown num den e).2 = num / den / 2 ^ e := by
  rw [scaleDown_eq, zpow_eq_div, div_div_div_eq]
  push_cast
  rfl

/-- A ratio lies between the powers of two that the leading bits of its parts give. -/
theorem ratio_bounds (hnum : num ≠ 0) (hden : den ≠ 0) :
    (2 : ℚ) ^ ((num.log2 : ℤ) - den.log2 - 1) ≤ num / den ∧ (num : ℚ) / den < 2 ^ ((num.log2 : ℤ) - den.log2 + 1) := by
  have hpos : (0 : ℚ) < den := by exact_mod_cast Nat.pos_of_ne_zero hden
  have hnumlow : (2 : ℚ) ^ num.log2 ≤ num := by exact_mod_cast Nat.log2_self_le hnum
  have hnumhigh : (num : ℚ) < 2 ^ (num.log2 + 1) := by exact_mod_cast Nat.lt_log2_self
  have hdenlow : (2 : ℚ) ^ den.log2 ≤ den := by exact_mod_cast Nat.log2_self_le hden
  have hdenhigh : (den : ℚ) ≤ 2 ^ (den.log2 + 1) := by exact_mod_cast Nat.lt_log2_self.le
  constructor
  · rw [le_div_iff₀ hpos]
    calc
      (2 : ℚ) ^ ((num.log2 : ℤ) - den.log2 - 1) * den ≤ 2 ^ ((num.log2 : ℤ) - den.log2 - 1) * 2 ^ (den.log2 + 1) := by gcongr
      _ = 2 ^ num.log2 := by
        rw [← zpow_natCast, ← zpow_add₀ two_ne_zero, ← zpow_natCast 2 num.log2]
        congr 1
        push_cast
        ring
      _ ≤ num := hnumlow
  · rw [div_lt_iff₀ hpos]
    calc
      (num : ℚ) < 2 ^ (num.log2 + 1) := hnumhigh
      _ = 2 ^ ((num.log2 : ℤ) - den.log2 + 1) * 2 ^ den.log2 := by
        rw [← zpow_natCast, ← zpow_natCast 2 den.log2, ← zpow_add₀ two_ne_zero]
        congr 1
        push_cast
        ring
      _ ≤ 2 ^ ((num.log2 : ℤ) - den.log2 + 1) * den := by gcongr

theorem fits_ratioExponent (hnum : num ≠ 0) (hden : den ≠ 0) : Fits ((num : ℚ) / den) (ratioExponent num den) := by
  obtain ⟨hlow, hhigh⟩ := ratio_bounds hnum hden
  generalize hx : (num : ℚ) / den = x at hlow hhigh ⊢
  generalize he : (num.log2 : ℤ) - den.log2 - 53 = e at hlow hhigh
  have hpos : (0 : ℚ) < 2 ^ e := zpow_pos two_pos e
  have hlow52 : 2 ^ 52 * 2 ^ e ≤ x := by
    rw [← zpow_natCast, ← zpow_add₀ two_ne_zero]
    convert hlow using 2
    push_cast
    omega
  have hhigh54 : x < 2 ^ 54 * 2 ^ e := by
    rw [← zpow_natCast, ← zpow_add₀ two_ne_zero]
    convert hhigh using 2
    push_cast
    omega
  have hquot : (scaleDown num den e).1 / (scaleDown num den e).2 < 2 ^ 53 ↔ x < 2 ^ 53 * 2 ^ e := by
    have hsnd := snd_scaleDown_pos num (Nat.pos_of_ne_zero hden) e
    have hsndq : (0 : ℚ) < (scaleDown num den e).2 := by exact_mod_cast hsnd
    rw [← div_lt_iff₀ hpos, ← hx, ← scaleDown_div, div_lt_iff₀ hsndq, Nat.div_lt_iff_lt_mul hsnd]
    exact_mod_cast Iff.rfl
  have hdef : ratioExponent num den =
      max (if (scaleDown num den e).1 / (scaleDown num den e).2 < 2 ^ 53 then e else e + 1) (-1074) := by
    rw [← he]
    rfl
  rw [hdef]
  by_cases hlt : x < 2 ^ 53 * 2 ^ e
  · rw [if_pos (hquot.mpr hlt)]
    exact .of_bounds hlow52 hlt
  · rw [if_neg (mt hquot.mp hlt)]
    rw [not_lt] at hlt
    refine .of_bounds ?_ ?_ <;> rw [zpow_add_one₀ two_ne_zero] <;> linarith

theorem ofRatio_eq {e : ℤ} (hnum : num ≠ 0) (hden : den ≠ 0) (h : Fits ((num : ℚ) / den) e) :
    ofRatio num den = (e + 1074).toNat * 2 ^ 52 + divNearest (scaleDown num den e).1 (scaleDown num den e).2 := by
  have hdef : ofRatio num den = if num = 0 then 0 else (ratioExponent num den + 1074).toNat * 2 ^ 52 +
      divNearest (scaleDown num den (ratioExponent num den)).1 (scaleDown num den (ratioExponent num den)).2 := rfl
  rw [hdef, if_neg hnum, (fits_ratioExponent hnum hden).unique h]

end ratio

/-! ## Rounded ratios -/

section nearest

variable {num den bits : Nat} (h : RoundsTo ((num : ℚ) / den) bits)

include h

/-- A ratio that is no smaller than the power of two below has the exponent of its nearest double. -/
theorem ofRatio_eq_of_le (hnum : num ≠ 0) (hden : den ≠ 0)
    (hle : exponent bits = -1074 ∨ 2 ^ 52 ≤ (num : ℚ) / den / 2 ^ exponent bits) : ofRatio num den = bits := by
  have hexponent := exponent_eq bits
  have hpos : (0 : ℚ) < 2 ^ exponent bits := zpow_pos two_pos _
  have hmantissa : (mantissa bits : ℚ) + 1 ≤ 2 ^ 53 := by exact_mod_cast mantissa_lt bits
  have hreach := reach_le bits
  have hlow := h.low
  have hhigh := h.high
  have hfits : Fits ((num : ℚ) / den) (exponent bits) := by
    refine ⟨by omega, ?_, hle.imp_right fun hle => ?_⟩
    · rw [← div_lt_iff₀ hpos]
      linarith
    · rwa [← le_div_iff₀ hpos]
  have hnear : divNearest (scaleDown num den (exponent bits)).1 (scaleDown num den (exponent bits)).2 = mantissa bits := by
    have hsnd := snd_scaleDown_pos num (Nat.pos_of_ne_zero hden) (exponent bits)
    refine divNearest_eq_of_near hsnd ?_ ?_ fun hodd => ?_ <;> rw [scaleDown_div]
    · linarith
    · exact hhigh
    · have hinside := h.inside hodd
      exact ⟨by linarith, hinside.2⟩
  rw [ofRatio_eq hnum hden hfits, hnear, (by omega : (exponent bits + 1074).toNat = doublings bits)]
  exact (bits_eq bits).symm

/-- A smaller one is nearest to that power of two. Its mantissa is rounded up to 53 bits and a carry. -/
theorem ofRatio_eq_of_lt (hnum : num ≠ 0) (hden : den ≠ 0) (hexponent : exponent bits ≠ -1074)
    (hlt : (num : ℚ) / den / 2 ^ exponent bits < 2 ^ 52) : ofRatio num den = bits := by
  have hbits := bits_eq bits
  have hdoublings := exponent_eq bits
  have hlow := h.low
  have hmantissa : mantissa bits = 2 ^ 52 := by
    refine le_antisymm ?_ (le_mantissa (by omega))
    have hreach := reach_le bits
    have : (mantissa bits : ℚ) < 2 ^ 52 + 1 := by linarith
    have : mantissa bits < 2 ^ 52 + 1 := by exact_mod_cast this
    omega
  have hreach : reach bits = 1 / 4 := by
    rw [reach, if_pos ⟨hmantissa, by rw [doublings] at hdoublings; omega⟩]
  rw [hmantissa, hreach] at hlow
  push_cast at hlow
  generalize exponent bits = t at *
  have hpos : (0 : ℚ) < 2 ^ (t - 1) := zpow_pos two_pos _
  have hpow : (2 : ℚ) ^ t = 2 * 2 ^ (t - 1) := by
    rw [← zpow_one_add₀ two_ne_zero]
    congr 1
    ring
  rw [hpow, ← div_div, div_right_comm] at hlow hlt
  have hfits : Fits ((num : ℚ) / den) (t - 1) := by
    refine ⟨by omega, ?_, .inr ?_⟩
    · rw [← div_lt_iff₀ hpos]
      linarith
    · rw [← le_div_iff₀ hpos]
      linarith
  have hnear : divNearest (scaleDown num den (t - 1)).1 (scaleDown num den (t - 1)).2 = 2 ^ 53 := by
    have hsnd := snd_scaleDown_pos num (Nat.pos_of_ne_zero hden) (t - 1)
    refine divNearest_eq_of_near hsnd ?_ ?_ fun hodd => absurd hodd (by decide) <;> rw [scaleDown_div] <;> push_cast <;>
      linarith
  rw [ofRatio_eq hnum hden hfits, hnear]
  omega

/-- **A ratio is rounded to the double that it is nearest to.** -/
theorem ofRatio_eq_of_roundsTo (hden : den ≠ 0) (hbits : bits ≠ 0) : ofRatio num den = bits := by
  have hnum : num ≠ 0 := by
    rintro rfl
    have hpos := h.pos hbits
    simp at hpos
  by_cases hleast : exponent bits = -1074
  · exact ofRatio_eq_of_le h hnum hden (.inl hleast)
  · rcases le_or_gt (2 ^ 52) ((num : ℚ) / den / 2 ^ exponent bits) with hle | hlt
    · exact ofRatio_eq_of_le h hnum hden (.inr hle)
    · exact ofRatio_eq_of_lt h hnum hden hleast hlt

end nearest

/-! ## Rounded decimals -/

section bounds

variable {x : ℚ} {bits : Nat} (h : RoundsTo x bits)

include h

theorem RoundsTo.lt_two_pow (hfinite : bits < infinityBits) : x < 2 ^ (1024 : ℤ) := by
  have hexponent : exponent bits ≤ 971 := by
    rw [infinityBits_eq] at hfinite
    rw [exponent_eq, doublings]
    omega
  have hmantissa : (mantissa bits : ℚ) + 1 ≤ 2 ^ 53 := by exact_mod_cast mantissa_lt bits
  have hhigh := h.high
  rw [div_le_iff₀ (zpow_pos two_pos _)] at hhigh
  calc
    x ≤ (mantissa bits + 1 / 2) * 2 ^ exponent bits := hhigh
    _ < 2 ^ 53 * 2 ^ exponent bits := mul_lt_mul_of_pos_right (by linarith) (zpow_pos two_pos _)
    _ ≤ 2 ^ 53 * 2 ^ (971 : ℤ) := mul_le_mul_of_nonneg_left (zpow_le_zpow_right₀ one_le_two hexponent) (by norm_num)
    _ = 2 ^ (1024 : ℤ) := by rw [← zpow_natCast, ← zpow_add₀ two_ne_zero]; rfl

theorem RoundsTo.two_pow_le (hbits : bits ≠ 0) : 2 ^ (-1075 : ℤ) ≤ x := by
  have hexponent : -1074 ≤ exponent bits := by
    rw [exponent_eq]
    omega
  have hmantissa : (1 : ℚ) ≤ mantissa bits := by exact_mod_cast mantissa_pos hbits
  have hreach := reach_le bits
  have hlow := h.low
  rw [le_div_iff₀ (zpow_pos two_pos _)] at hlow
  calc
    (2 : ℚ) ^ (-1075 : ℤ) = 1 / 2 * 2 ^ (-1074 : ℤ) := by rw [one_div, ← zpow_neg_one, ← zpow_add₀ two_ne_zero]; rfl
    _ ≤ 1 / 2 * 2 ^ exponent bits := mul_le_mul_of_nonneg_left (zpow_le_zpow_right₀ one_le_two hexponent) (by norm_num)
    _ ≤ (mantissa bits - reach bits) * 2 ^ exponent bits := mul_le_mul_of_nonneg_right (by linarith) (zpow_nonneg zero_le_two _)
    _ ≤ x := hlow

end bounds

/-- A decimal lies between the powers of ten that the place of its leading digit gives. -/
theorem decimal_bounds {m : Nat} (hm : m ≠ 0) (e : ℤ) :
    (10 : ℚ) ^ ((Nat.toDigits 10 m).length + e - 1) ≤ m * 10 ^ e ∧
    (m : ℚ) * 10 ^ e < 10 ^ ((Nat.toDigits 10 m).length + e) := by
  have hpos : 0 < (Nat.toDigits 10 m).length := Nat.length_toDigits_pos
  have hlow : 10 ^ ((Nat.toDigits 10 m).length - 1) ≤ m := by
    by_cases hone : (Nat.toDigits 10 m).length = 1
    · rw [hone]
      exact Nat.pos_of_ne_zero hm
    · rw [← Nat.not_lt, ← Nat.length_toDigits_le_iff (by decide) (by omega)]
      omega
  have hhigh : m < 10 ^ (Nat.toDigits 10 m).length := (Nat.length_toDigits_le_iff (by decide) hpos).mp le_rfl
  have hten : (0 : ℚ) < 10 ^ e := zpow_pos (by norm_num) e
  constructor
  · have hplaces : ((Nat.toDigits 10 m).length : ℤ) + e - 1 = ((Nat.toDigits 10 m).length - 1 : Nat) + e := by omega
    rw [hplaces, zpow_add₀ (by norm_num), zpow_natCast]
    exact mul_le_mul_of_nonneg_right (by exact_mod_cast hlow) hten.le
  · rw [zpow_add₀ (by norm_num), zpow_natCast]
    exact mul_lt_mul_of_pos_right (by exact_mod_cast hhigh) hten

section decimal

variable {m bits : Nat} {e : ℤ} (h : RoundsTo (m * 10 ^ e) bits) (hbits : bits ≠ 0)

include h hbits

theorem RoundsTo.digits_ne_zero : m ≠ 0 := by
  rintro rfl
  have hpos := h.pos hbits
  simp at hpos

/-- Decimals that are nearest to a finite double lie well within the bounds on exponents. -/
theorem RoundsTo.lead_bounds (hfinite : bits < infinityBits) :
    -340 ≤ ((Nat.toDigits 10 m).length : ℤ) + e ∧ ((Nat.toDigits 10 m).length : ℤ) + e ≤ 320 := by
  obtain ⟨hlow, hhigh⟩ := decimal_bounds (h.digits_ne_zero hbits) e
  constructor
  · by_contra hlead
    have hpow : (10 : ℚ) ^ (((Nat.toDigits 10 m).length : ℤ) + e) ≤ 10 ^ (-340 : ℤ) :=
      zpow_le_zpow_right₀ (by norm_num) (by omega)
    have hcompare : (10 : ℚ) ^ (-340 : ℤ) ≤ 2 ^ (-1075 : ℤ) := by
      rw [zpow_neg, zpow_neg]
      exact inv_anti₀ (zpow_pos two_pos _) (by exact_mod_cast (by decide +kernel : 2 ^ 1075 ≤ 10 ^ 340))
    exact absurd (h.two_pow_le hbits) (not_le.mpr (hhigh.trans_le (hpow.trans hcompare)))
  · by_contra hlead
    have hpow : (10 : ℚ) ^ (320 : ℤ) ≤ 10 ^ (((Nat.toDigits 10 m).length : ℤ) + e - 1) :=
      zpow_le_zpow_right₀ (by norm_num) (by omega)
    have hcompare : (2 : ℚ) ^ (1024 : ℤ) ≤ 10 ^ (320 : ℤ) := by
      exact_mod_cast (by decide +kernel : 2 ^ 1024 ≤ 10 ^ 320)
    exact absurd (h.lt_two_pow hfinite) (not_lt.mpr ((hcompare.trans hpow).trans hlow))

/-- **A decimal is rounded to the double that it is nearest to.** -/
theorem ofDecimal_eq_of_roundsTo (hfinite : bits < infinityBits) : ofDecimal m e = bits := by
  obtain ⟨hsmall, hlarge⟩ := h.lead_bounds hbits hfinite
  have hdef : ofDecimal m e = ofRatio (m * 10 ^ e.toNat) (10 ^ (-e).toNat) := by
    rw [ofDecimal, if_neg (h.digits_ne_zero hbits)]
    simp only [if_neg (Int.not_lt.mpr hlarge), if_neg (Int.not_lt.mpr hsmall)]
    by_cases he : 0 ≤ e
    · rw [if_pos he, (by omega : (-e).toNat = 0)]
      rfl
    · rw [if_neg he, (by omega : e.toNat = 0), pow_zero, Nat.mul_one]
      rfl
  rw [hdef]
  refine ofRatio_eq_of_roundsTo ?_ (pow_ne_zero _ (by decide)) hbits
  rw [zpow_eq_div, mul_div_assoc'] at h
  exact_mod_cast h

end decimal

end FormLang.Binary64
