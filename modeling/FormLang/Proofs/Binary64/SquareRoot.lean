import FormLang.Binary64.Whole

/-!
# Square roots as words

A square root is not negative, except for a zero with a sign. So its whole part is a word that is not negative
(`toWord_sqrt_nonneg`).
-/

namespace FormLang.Binary64

open Float.Model

/-- A packed number with the positive sign lies below the sign bit. -/
theorem toNat_packComponents_positive (e : BitVec 11) (m : BitVec 52) :
    (UnpackedFloat.packComponents .binary64 .positive e m).toNat < Nat.pow 2 63 := by
  have he := e.isLt
  have hm := m.isLt
  have happend : (UnpackedFloat.packComponents .binary64 .positive e m).toNat = e.toNat * 2 ^ 52 + m.toNat := by
    rw [UnpackedFloat.packComponents, BitVec.toNat_append, BitVec.toNat_append, UnpackedFloat.Sign.toBitVec,
      ← Nat.shiftLeft_add_eq_or_of_lt hm, Nat.shiftLeft_eq]
    simp
  have hsign : Nat.pow 2 63 = 2 ^ 11 * 2 ^ 52 := by decide
  rw [happend, hsign]
  omega

theorem toNat_pack_positive (m : Nat) (e : Int) (hm : 0 < m) :
    (UnpackedFloat.pack .binary64 (.finite .positive m e hm)).toNat < Nat.pow 2 63 := by
  delta UnpackedFloat.pack
  dsimp only
  split
  · exact toNat_packComponents_positive _ _
  · split <;> exact toNat_packComponents_positive _ _

/-- A mantissa that was rounded to zero gives the positive zero. -/
theorem toNat_pack_rounded {c : Prop} [Decidable c] (m : Nat) (e : Int) (hm : ¬ c → 0 < m) :
    (UnpackedFloat.pack .binary64 (if h : c then .zero .positive else .finite .positive m e (hm h))).toNat <
      Nat.pow 2 63 := by
  by_cases h : c
  · rw [dif_pos h]
    exact toNat_packComponents_positive _ _
  · rw [dif_neg h]
    exact toNat_pack_positive m e (hm h)

/-- The pattern of a square root is not beyond that of the negative zero. -/
theorem toNat_pack_sqrt (x : UnpackedFloat) :
    (UnpackedFloat.pack .binary64 (UnpackedFloat.sqrt .binary64 x)).toNat ≤ Nat.pow 2 63 := by
  match x with
  | .notANumber | .infinity .negative | .finite .negative _ _ _ | .infinity .positive =>
    exact Nat.le_of_lt (toNat_packComponents_positive _ _)
  | .zero .positive => exact Nat.le_of_lt (toNat_packComponents_positive _ _)
  | .zero .negative => decide
  | .finite .positive m e _ => exact Nat.le_of_lt (toNat_pack_rounded _ _ _)

theorem toNat_toBits_sqrt (x : Float) : x.sqrt.toBits.toNat ≤ Nat.pow 2 63 :=
  toNat_pack_sqrt x.toModel.unpack

theorem toInt_sqrt_nonneg (x : Float) : 0 ≤ toInt .toZero x.sqrt := by
  rw [toInt]
  split
  · rename_i hnegative
    have hbits : x.sqrt.toBits.toNat = Nat.pow 2 63 :=
      Nat.le_antisymm (toNat_toBits_sqrt x) (of_decide_eq_true hnegative)
    -- The only pattern with a sign is that of a zero.
    have hzero : magnitude x.sqrt = 0 := by
      rw [magnitude, hbits]
    have hwhole : wholeMagnitude .toZero x.sqrt = 0 := by
      have hmantissa : mantissa 0 = 0 := by decide
      rw [wholeMagnitude, hzero, hmantissa]
      split
      · exact Nat.zero_mul _
      · exact Nat.zero_div _
    rw [hwhole]
    exact Int.le_refl 0
  · exact Int.natCast_nonneg _

theorem toInt_ofIntClamp_nonneg {i : Int} (hi : 0 ≤ i) : 0 ≤ (Int64.ofIntClamp i).toInt := by
  unfold Int64.ofIntClamp
  split
  · split
    · rw [Int64.toInt_ofIntLE]
      exact hi
    · decide
  · rename_i hmin
    exact absurd (Int.le_trans (by decide) hi) hmin

/-- **The whole part of a square root is a word that is not negative.** -/
theorem toWord_sqrt_nonneg (x : Float) : 0 ≤ toWord x.sqrt := by
  rw [Int64.le_iff_toInt_le, Int64.toInt_zero, toWord]
  split
  · exact Int.le_refl 0
  · exact toInt_ofIntClamp_nonneg (toInt_sqrt_nonneg x)

end FormLang.Binary64
