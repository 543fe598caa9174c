import FormLang.Proofs.Binary64.Magnitude

/-!
# Floats as patterns

A float is a pattern of 64 bits, a sign in front of a magnitude word. Its unpacked form is read off the fields of the pattern:
a magnitude above infinity is no number, and below it the mantissa and the exponent are those of the magnitude word
(`unpack_finite`). Packing gives the pattern back (`pack_unpack`), so that a float that is made from a sign and a magnitude
has this sign and this magnitude (`isNegative_ofMagnitude`, `magnitude_ofMagnitude`).
-/

namespace FormLang.Binary64

open Float.Model

/-! ## The fields of a pattern -/

section fields

variable (b : BitVec Format.binary64.numBits)

theorem toNat_mantissaField : (UnpackedFloat.unpackMantissa b).toNat = b.toNat % 2 ^ 52 := by
  change (b.toNat >>> 0) % 2 ^ 52 = b.toNat % 2 ^ 52
  rw [Nat.shiftRight_zero]

theorem toNat_exponentField : (UnpackedFloat.unpackExponent b).toNat = b.toNat % 2 ^ 63 / 2 ^ 52 := by
  change (b.toNat >>> 52) % 2 ^ 11 = b.toNat % 2 ^ 63 / 2 ^ 52
  rw [Nat.shiftRight_eq_div_pow]
  omega

theorem toNat_signField : (UnpackedFloat.unpackSign b).toNat = b.toNat / 2 ^ 63 := by
  have hb : b.toNat < 2 ^ 64 := b.isLt
  change (b.toNat >>> 63) % 2 ^ 1 = b.toNat / 2 ^ 63
  rw [Nat.shiftRight_eq_div_pow]
  omega

end fields

/-- The sign of a pattern. -/
def signOf (pattern : Nat) : UnpackedFloat.Sign :=
  if 2 ^ 63 ≤ pattern then .negative else .positive

section unpack

variable {b : BitVec Format.binary64.numBits}

theorem ofBitVec_signField : UnpackedFloat.Sign.ofBitVec (UnpackedFloat.unpackSign b) = signOf b.toNat := by
  have hfield : UnpackedFloat.unpackSign b = 0#1 ↔ ¬ 2 ^ 63 ≤ b.toNat := by
    rw [← BitVec.toNat_inj, toNat_signField]
    change b.toNat / 2 ^ 63 = 0 ↔ ¬ 2 ^ 63 ≤ b.toNat
    omega
  by_cases h : 2 ^ 63 ≤ b.toNat
  · exact (if_neg fun hzero => hfield.mp hzero h).trans (if_pos h).symm
  · exact (if_pos (hfield.mpr h)).trans (if_neg h).symm

theorem exponentField_eq_ones_iff : UnpackedFloat.unpackExponent b = -1#_ ↔ infinityBits ≤ b.toNat % 2 ^ 63 := by
  rw [← BitVec.toNat_inj, toNat_exponentField, infinityBits_eq]
  change b.toNat % 2 ^ 63 / 2 ^ 52 = 2047 ↔ _
  omega

theorem exponentField_eq_zero_iff : UnpackedFloat.unpackExponent b = 0#_ ↔ b.toNat % 2 ^ 63 / 2 ^ 52 = 0 := by
  rw [← BitVec.toNat_inj, toNat_exponentField]
  rfl

theorem mantissaField_eq_zero_iff : UnpackedFloat.unpackMantissa b = 0#_ ↔ b.toNat % 2 ^ 52 = 0 := by
  rw [← BitVec.toNat_inj, toNat_mantissaField]
  rfl

theorem unpack_notANumber (h : infinityBits < b.toNat % 2 ^ 63) : UnpackedFloat.unpack .binary64 b = .notANumber := by
  delta UnpackedFloat.unpack
  dsimp only
  rw [if_pos (exponentField_eq_ones_iff.mpr h.le), if_neg]
  rw [mantissaField_eq_zero_iff]
  rw [infinityBits_eq] at h
  omega

theorem unpack_infinity (h : b.toNat % 2 ^ 63 = infinityBits) :
    UnpackedFloat.unpack .binary64 b = .infinity (signOf b.toNat) := by
  delta UnpackedFloat.unpack
  dsimp only
  rw [if_pos (exponentField_eq_ones_iff.mpr h.ge), if_pos, ofBitVec_signField]
  rw [mantissaField_eq_zero_iff]
  rw [infinityBits_eq] at h
  omega

theorem unpack_zero (h : b.toNat % 2 ^ 63 = 0) : UnpackedFloat.unpack .binary64 b = .zero (signOf b.toNat) := by
  have hones : ¬ UnpackedFloat.unpackExponent b = -1#_ := by
    rw [exponentField_eq_ones_iff, infinityBits_eq]
    omega
  have hzero : UnpackedFloat.unpackExponent b = 0#_ := by
    rw [exponentField_eq_zero_iff]
    omega
  have hmantissa : UnpackedFloat.unpackMantissa b = 0#_ := by
    rw [mantissaField_eq_zero_iff]
    omega
  delta UnpackedFloat.unpack
  dsimp only
  rw [if_neg hones, if_pos hzero, dif_pos hmantissa, ofBitVec_signField]

theorem unpack_finite (h0 : b.toNat % 2 ^ 63 ≠ 0) (h : b.toNat % 2 ^ 63 < infinityBits) :
    UnpackedFloat.unpack .binary64 b = .finite (signOf b.toNat) (mantissa (b.toNat % 2 ^ 63)) (exponent (b.toNat % 2 ^ 63))
      (mantissa_pos h0) := by
  have hones : ¬ UnpackedFloat.unpackExponent b = -1#_ := by
    rw [exponentField_eq_ones_iff]
    omega
  delta UnpackedFloat.unpack
  dsimp only
  rw [if_neg hones, ofBitVec_signField]
  by_cases hzero : UnpackedFloat.unpackExponent b = 0#_
  · have hdiv := exponentField_eq_zero_iff.mp hzero
    have hmantissa : ¬ UnpackedFloat.unpackMantissa b = 0#_ := by
      rw [mantissaField_eq_zero_iff]
      omega
    rw [if_pos hzero, dif_neg hmantissa]
    congr 1
    · rw [toNat_mantissaField, mantissa_eq, if_pos hdiv]
      omega
    · rw [exponent_eq, doublings, hzero, hdiv]
      rfl
  · have hdiv := mt exponentField_eq_zero_iff.mpr hzero
    rw [if_neg hzero]
    congr 1
    · rw [BitVec.toNat_append, ← Nat.shiftLeft_add_eq_or_of_lt (UnpackedFloat.unpackMantissa b).isLt, toNat_mantissaField,
        mantissa_eq, if_neg hdiv, Nat.shiftLeft_eq]
      change 1 * 2 ^ 52 + b.toNat % 2 ^ 52 = _
      omega
    · rw [exponent_eq, doublings, toNat_exponentField]
      change ((b.toNat % 2 ^ 63 / 2 ^ 52 : Nat) : Int) - (1023 + 52) = _
      omega

end unpack

/-! ## Patterns that are kept -/

theorem toNat_packComponents (s : UnpackedFloat.Sign) (e : BitVec 11) (m : BitVec 52) :
    (UnpackedFloat.packComponents .binary64 s e m).toNat = s.toBitVec.toNat * 2 ^ 63 + e.toNat * 2 ^ 52 + m.toNat := by
  have he := e.isLt
  have hm := m.isLt
  change (s.toBitVec ++ e ++ m).toNat = _
  rw [BitVec.toNat_append, BitVec.toNat_append, ← Nat.shiftLeft_add_eq_or_of_lt hm, ← Nat.shiftLeft_add_eq_or_of_lt he,
    Nat.shiftLeft_eq, Nat.shiftLeft_eq]
  omega

theorem toNat_toBitVec_signOf {n : Nat} (h : n < 2 ^ 64) : (signOf n).toBitVec.toNat = n / 2 ^ 63 := by
  rw [signOf]
  by_cases hn : 2 ^ 63 ≤ n
  · rw [if_pos hn]
    change 1 = n / 2 ^ 63
    omega
  · rw [if_neg hn]
    change 0 = n / 2 ^ 63
    omega

theorem toNat_pack_finite (s : UnpackedFloat.Sign) {bits : Nat} (h0 : bits ≠ 0) (h : bits < infinityBits) :
    (UnpackedFloat.pack .binary64 (.finite s (mantissa bits) (exponent bits) (mantissa_pos h0))).toNat =
      s.toBitVec.toNat * 2 ^ 63 + bits := by
  have hbits := bits_eq bits
  have hlt := mantissa_lt bits
  have hpos := mantissa_pos h0
  have hbiased : (exponent bits + (1023 : Nat) + (52 : Nat)).toNat = doublings bits + 1 := by
    rw [exponent_eq]
    omega
  have hroom : ¬ 2 ^ 11 ≤ (exponent bits + (1023 : Nat) + (52 : Nat)).toNat + 1 := by
    rw [infinityBits_eq] at h
    rw [hbiased, doublings]
    omega
  delta UnpackedFloat.pack
  dsimp only
  refine (congrArg BitVec.toNat (if_neg hroom)).trans ?_
  by_cases hnormal : 2 ^ 52 ≤ mantissa bits
  · have hlog : (mantissa bits).log2 + 1 = 53 := by
      rw [(Nat.log2_eq_iff hpos.ne').mpr ⟨hnormal, hlt⟩]
    refine (congrArg BitVec.toNat (if_pos hlog)).trans ((toNat_packComponents _ _ _).trans ?_)
    change _ + (exponent bits + (1023 : Nat) + (52 : Nat)).toNat % 2 ^ 11 * 2 ^ 52 + mantissa bits % 2 ^ 52 = _
    rw [hbiased] at hroom ⊢
    omega
  · have hlog : ¬ (mantissa bits).log2 + 1 = 53 := by
      have hlog2 := (Nat.log2_lt hpos.ne').mpr (Nat.lt_of_not_le hnormal)
      omega
    refine (congrArg BitVec.toNat (if_neg hlog)).trans ((toNat_packComponents _ _ _).trans ?_)
    have hdoublings : doublings bits = 0 := Nat.eq_zero_of_not_pos fun hpos => hnormal (le_mantissa hpos)
    change _ + 0 * 2 ^ 52 + mantissa bits % 2 ^ 52 = _
    omega

/-- A pattern that is no NaN is packed again as it was. -/
theorem pack_unpack {b : BitVec Format.binary64.numBits} (h : b.toNat % 2 ^ 63 ≤ infinityBits) :
    UnpackedFloat.pack .binary64 (UnpackedFloat.unpack .binary64 b) = b := by
  have hb : b.toNat < 2 ^ 64 := b.isLt
  have hsign := toNat_toBitVec_signOf hb
  have hparts : b.toNat = b.toNat / 2 ^ 63 * 2 ^ 63 + b.toNat % 2 ^ 63 / 2 ^ 52 * 2 ^ 52 + b.toNat % 2 ^ 52 := by omega
  rcases Nat.lt_or_eq_of_le h with hlt | heq
  · by_cases hzero : b.toNat % 2 ^ 63 = 0
    · rw [unpack_zero hzero]
      apply BitVec.eq_of_toNat_eq
      refine (toNat_packComponents _ _ _).trans ?_
      rw [hsign]
      change b.toNat / 2 ^ 63 * 2 ^ 63 + 0 * 2 ^ 52 + 0 = b.toNat
      omega
    · rw [unpack_finite hzero hlt]
      apply BitVec.eq_of_toNat_eq
      rw [toNat_pack_finite _ hzero hlt, hsign]
      omega
  · rw [unpack_infinity heq]
    apply BitVec.eq_of_toNat_eq
    refine (toNat_packComponents _ _ _).trans ?_
    rw [hsign]
    change b.toNat / 2 ^ 63 * 2 ^ 63 + 2047 * 2 ^ 52 + 0 = b.toNat
    rw [infinityBits_eq] at heq
    omega

theorem toBits_ofBits {w : UInt64} (h : w.toNat % 2 ^ 63 ≤ infinityBits) : (Float.ofBits w).toBits = w := by
  have hpack : UnpackedFloat.pack .binary64 (UnpackedFloat.unpack .binary64 w.toBitVec) = w.toBitVec := pack_unpack h
  change UInt64.ofBitVec (UnpackedFloat.pack .binary64 (UnpackedFloat.unpack .binary64 w.toBitVec)) = w
  rw [hpack]

theorem toNat_toBits_ofBits {n : Nat} (hn : n < 2 ^ 64) (h : n % 2 ^ 63 ≤ infinityBits) :
    (Float.ofBits (UInt64.ofNat n)).toBits.toNat = n := by
  have hword : (UInt64.ofNat n).toNat = n := UInt64.toNat_ofNat_of_lt hn
  rw [toBits_ofBits (by rw [hword]; exact h), hword]

theorem toNat_toBits_ofMagnitude (negative : Bool) {bits : Nat} (h : bits ≤ infinityBits) :
    (ofMagnitude negative bits).toBits.toNat = if negative then 2 ^ 63 + bits else bits := by
  have hlt : bits < 2 ^ 63 := by
    rw [infinityBits_eq] at h
    omega
  cases negative with
  | true =>
    have hpattern : 2 ^ 63 + bits < 2 ^ 64 ∧ (2 ^ 63 + bits) % 2 ^ 63 ≤ infinityBits := by omega
    exact toNat_toBits_ofBits hpattern.1 hpattern.2
  | false =>
    have hpattern : bits < 2 ^ 64 ∧ bits % 2 ^ 63 ≤ infinityBits := by omega
    exact toNat_toBits_ofBits hpattern.1 hpattern.2

theorem magnitude_ofMagnitude (negative : Bool) {bits : Nat} (h : bits ≤ infinityBits) :
    magnitude (ofMagnitude negative bits) = bits := by
  rw [magnitude, toNat_toBits_ofMagnitude negative h]
  change (if negative then 2 ^ 63 + bits else bits) % 2 ^ 63 = bits
  rw [infinityBits_eq] at h
  split <;> omega

theorem isNegative_ofMagnitude (negative : Bool) {bits : Nat} (h : bits ≤ infinityBits) :
    isNegative (ofMagnitude negative bits) = negative := by
  rw [isNegative, toNat_toBits_ofMagnitude negative h]
  change decide (2 ^ 63 ≤ if negative then 2 ^ 63 + bits else bits) = negative
  rw [infinityBits_eq] at h
  cases negative with
  | true => exact decide_eq_true (Nat.le_add_right _ _)
  | false => exact decide_eq_false (by change ¬ 2 ^ 63 ≤ bits; omega)

theorem isNaN_ofMagnitude (negative : Bool) {bits : Nat} (h : bits ≤ infinityBits) :
    isNaN (ofMagnitude negative bits) = false := by
  rw [isNaN, magnitude_ofMagnitude negative h]
  exact decide_eq_false (Nat.not_lt.mpr h)

/-! ## Floats that are kept -/

/-- Of the patterns of NaNs only one is valid. -/
theorem pack_unpack_of_valid {b : BitVec Format.binary64.numBits} (hvalid : Format.binary64.Valid b) :
    UnpackedFloat.pack .binary64 (UnpackedFloat.unpack .binary64 b) = b := by
  rcases Nat.lt_or_ge infinityBits (b.toNat % 2 ^ 63) with hlarge | hsmall
  · have hmantissa : UnpackedFloat.unpackMantissa b ≠ 0#_ := by
      rw [ne_eq, mantissaField_eq_zero_iff]
      rw [infinityBits_eq] at hlarge
      omega
    rw [unpack_notANumber hlarge]
    exact (hvalid.eq_packedNaN (exponentField_eq_ones_iff.mpr hlarge.le) hmantissa).symm
  · exact pack_unpack hsmall

/-- A float is given by its pattern. -/
theorem ofBits_toBits (f : Float) : Float.ofBits f.toBits = f := by
  obtain ⟨⟨w⟩, hvalid⟩ := f
  have hpack := pack_unpack_of_valid hvalid
  change Float.ofModel (Float.Model.mk ⟨UnpackedFloat.pack .binary64 (UnpackedFloat.unpack .binary64 w)⟩ _) = _
  congr 3

theorem ofMagnitude_magnitude (f : Float) : ofMagnitude (isNegative f) (magnitude f) = f := by
  have hlt : f.toBits.toNat < 2 ^ 64 := f.toBits.toBitVec.isLt
  have hword : (if isNegative f then Nat.pow 2 63 + magnitude f else magnitude f) = f.toBits.toNat := by
    rw [isNegative, magnitude]
    change (if decide (2 ^ 63 ≤ f.toBits.toNat) = true then 2 ^ 63 + f.toBits.toNat % 2 ^ 63 else f.toBits.toNat % 2 ^ 63) = _
    by_cases h : 2 ^ 63 ≤ f.toBits.toNat
    · rw [if_pos (decide_eq_true h)]
      omega
    · rw [if_neg (by simpa using h)]
      omega
  rw [ofMagnitude, hword, UInt64.ofNat_toNat, ofBits_toBits]

/-- There is one NaN. -/
theorem eq_notANumber {f : Float} (h : isNaN f = true) : f = notANumber := by
  have hunpack : f.toModel.unpack = .notANumber := unpack_notANumber (of_decide_eq_true h)
  calc
    f = Float.ofModel (Float.Model.pack f.toModel.unpack) := (ofBits_toBits f).symm
    _ = Float.ofModel (Float.Model.pack .notANumber) := by rw [hunpack]
    _ = notANumber := by decide +kernel

end FormLang.Binary64
