import FormLang.Proofs.Builtin.Exact

/-!
# Rounding an integer to a power of ten

An integer is rounded to a multiple of a power of ten by dividing its magnitude, in words without a sign. The quotient is
that of the nearest multiple, a tie going to the even quotient (`NearestQuotient`). There is exactly one such quotient, so it
does not matter that the sign is put back afterwards (`NearestQuotient.neg`).

Every place where the computation could leave the words is checked: the multiple itself, and the result with its sign. From
twenty places on, where the power is no word any more, zero is the nearest multiple of all words (`round_exact`).
-/

namespace FormLang

/-! ## Nearest multiples -/

/-- No multiple of `p` is nearer to `n` than the `q`-th, and `q` is even if another multiple is as near. -/
structure NearestQuotient (p n q : Int) : Prop where
  nearest : ∀ k : Int, (n - q * p).natAbs ≤ (n - k * p).natAbs
  even : ∀ k : Int, k ≠ q → (n - k * p).natAbs = (n - q * p).natAbs → 2 ∣ q

namespace NearestQuotient

variable {p n q : Int}

/-- The quotient is the only one: two even quotients that are equally far have a nearer one between them. -/
theorem unique (hp : 0 < p) {q' : Int} (h : NearestQuotient p n q) (h' : NearestQuotient p n q') : q = q' := by
  apply Classical.byContradiction
  intro hne
  have hdist : (n - q * p).natAbs = (n - q' * p).natAbs := Nat.le_antisymm (h.nearest q') (h'.nearest q)
  obtain ⟨i, hi⟩ := h.even q' (Ne.symm hne) hdist.symm
  obtain ⟨j, hj⟩ := h'.even q hne hdist
  subst hi hj
  have hmiddle := h.nearest (i + j)
  have hapart : (2 * i - 2 * j) * p ≠ 0 := Int.mul_ne_zero (by omega) (by omega)
  rw [Int.sub_mul] at hapart
  rw [Int.mul_assoc, Int.mul_assoc] at hdist hapart
  rw [Int.mul_assoc, Int.add_mul] at hmiddle
  omega

/-- The opposite number has the opposite quotient. -/
theorem neg (h : NearestQuotient p n q) : NearestQuotient p (-n) (-q) := by
  have hdist : ∀ k : Int, (-n - k * p).natAbs = (n - -k * p).natAbs := by
    intro k
    rw [Int.neg_mul]
    omega
  refine ⟨fun k => ?_, fun k hne heq => ?_⟩
  · rw [hdist, hdist, Int.neg_neg]
    exact h.nearest (-k)
  · rw [hdist, hdist, Int.neg_neg] at heq
    exact Int.dvd_neg.mpr (h.even (-k) (by omega) heq)

theorem sub_mul_eq {r : Int} (hn : n = q * p + r) (k : Int) : n - k * p = r - (k - q) * p := by
  rw [Int.sub_mul]
  omega

section remainder

variable {r : Int} (hnonneg : 0 ≤ r) (hlt : r < p)

include hnonneg hlt

/-- From all multiples but that below it, a remainder is as far as from that above it, or farther. -/
theorem above_le_distance {j : Int} (hj : j ≠ 0) : (p - r).natAbs ≤ (r - j * p).natAbs := by
  rcases Int.lt_or_gt_of_ne hj with hneg | hpos
  · have hle : j * p ≤ -1 * p := Int.mul_le_mul_of_nonneg_right (by omega) (by omega)
    omega
  · have hle : 1 * p ≤ j * p := Int.mul_le_mul_of_nonneg_right (by omega) (by omega)
    omega

/-- From all multiples but that above it, a remainder is as far as from that below it, or farther. -/
theorem below_le_distance {j : Int} (hj : j ≠ 1) : r.natAbs ≤ (r - j * p).natAbs := by
  rcases Int.lt_or_gt_of_ne hj with hlow | hhigh
  · have hle : j * p ≤ 0 * p := Int.mul_le_mul_of_nonneg_right (by omega) (by omega)
    omega
  · have hle : 2 * p ≤ j * p := Int.mul_le_mul_of_nonneg_right (by omega) (by omega)
    omega

variable (hn : n = q * p + r)

include hn

/-- Before the half, and at the half of an even quotient, the multiple below is the nearest. -/
theorem of_low (hlow : 2 * r < p ∨ (2 * r = p ∧ q % 2 = 0)) : NearestQuotient p n q := by
  have hself : n - q * p = r := by omega
  refine ⟨fun k => ?_, fun k hne heq => ?_⟩
  · by_cases hk : k = q
    · exact hk ▸ Nat.le_refl _
    · have hfar := above_le_distance hnonneg hlt (j := k - q) (by omega)
      rw [hself, sub_mul_eq hn]
      omega
  · have hfar := above_le_distance hnonneg hlt (j := k - q) (by omega)
    rw [hself, sub_mul_eq hn] at heq
    omega

/-- Past the half, and at the half of an odd quotient, the multiple above is the nearest. -/
theorem of_high (hhigh : p < 2 * r ∨ (2 * r = p ∧ q % 2 = 1)) : NearestQuotient p n (q + 1) := by
  have hself : n - (q + 1) * p = r - p := by
    rw [Int.add_mul]
    omega
  refine ⟨fun k => ?_, fun k hne heq => ?_⟩
  · by_cases hk : k = q + 1
    · exact hk ▸ Nat.le_refl _
    · have hfar := below_le_distance hnonneg hlt (j := k - q) (by omega)
      rw [hself, sub_mul_eq hn]
      omega
  · have hfar := below_le_distance hnonneg hlt (j := k - q) (by omega)
    rw [hself, sub_mul_eq hn] at heq
    omega

end remainder

/-- Less than half of `p` away from zero, zero is the nearest multiple. -/
theorem zero (hsmall : 2 * n.natAbs < p.natAbs) (hp : 0 < p) : NearestQuotient p n 0 := by
  rcases Int.le_total 0 n with hn | hn
  · exact of_low hn (by omega) (by omega) (.inl (by omega))
  · have hopposite : NearestQuotient p (-n) 0 :=
      of_low (r := -n) (by omega) (by omega) (by omega) (.inl (by omega))
    have hneg := hopposite.neg
    rwa [Int.neg_neg, Int.neg_zero] at hneg

end NearestQuotient

namespace Word

/-! ## Magnitudes -/

theorem toNat_magnitude (n : Int64) : (magnitude n).toNat = n.toInt.natAbs := by
  have hfits := fits_toInt n
  unfold Fits at hfits
  unfold magnitude
  by_cases hneg : n < 0
  · rw [if_pos hneg]
    rw [Int64.lt_iff_toInt_lt, Int64.toInt_zero] at hneg
    have hone : (1 : Int64).toInt = 1 := rfl
    have hsucc : (n + 1).toInt = n.toInt + 1 :=
      toInt_add_of_fits (by rw [hone]; unfold Fits; omega)
    have hopposite : (-(n + 1)).toInt = -(n.toInt + 1) := by
      rw [Int64.toInt_neg, hsucc]
      exact bmod_of_fits (by unfold Fits; omega)
    have hnonneg : (0 : Int64) ≤ -(n + 1) := by
      rw [Int64.le_iff_toInt_le, Int64.toInt_zero, hopposite]
      omega
    have hword : (-(n + 1)).toUInt64.toNat = (-(n.toInt + 1)).toNat := by
      rw [Int64.toNat_toUInt64_of_le hnonneg]
      exact congrArg Int.toNat hopposite
    have hunit : (1 : UInt64).toNat = 1 := rfl
    rw [UInt64.toNat_add, hword, hunit]
    omega
  · rw [if_neg hneg]
    have hnonneg : (0 : Int64) ≤ n := Int64.not_lt.mp hneg
    rw [Int64.toNat_toUInt64_of_le hnonneg]
    rw [Int64.le_iff_toInt_le, Int64.toInt_zero] at hnonneg
    have hclamp : n.toNatClampNeg = n.toInt.toNat := rfl
    omega

/-- The quotient of a magnitude, rounded. -/
def roundedQuotient (m p : UInt64) : UInt64 :=
  if p - m % p < m % p || (m % p == p - m % p && m / p % 2 == 1) then m / p + 1 else m / p

theorem roundMagnitude?_eq_roundedQuotient (m p : UInt64) :
    roundMagnitude? m p =
      if roundedQuotient m p != 0 && 18446744073709551615 / p < roundedQuotient m p then none
      else some (roundedQuotient m p * p) := rfl

/-- The rounding of a quotient in words, without any wrap. -/
theorem nearestQuotient_roundedQuotient (m : UInt64) {p : UInt64} (hp : 0 < p.toNat) :
    NearestQuotient p.toNat m.toNat (roundedQuotient m p).toNat := by
  have hq : (m / p).toNat = m.toNat / p.toNat := UInt64.toNat_div m p
  have hr : (m % p).toNat = m.toNat % p.toNat := UInt64.toNat_mod m p
  have hlt : m.toNat % p.toNat < p.toNat := Nat.mod_lt _ hp
  have hsplit : m.toNat = p.toNat * (m.toNat / p.toNat) + m.toNat % p.toNat := (Nat.div_add_mod _ _).symm
  have hrest : (p - m % p).toNat = p.toNat - m.toNat % p.toNat := by
    rw [UInt64.toNat_sub_of_le _ _ (UInt64.le_iff_toNat_le.mpr (by omega)), hr]
  have hparity : (m / p % 2).toNat = m.toNat / p.toNat % 2 := by
    rw [UInt64.toNat_mod, hq]
    rfl
  have hm := UInt64.toNat_lt m
  have hint : (m.toNat : Int) = ((m.toNat / p.toNat : Nat) : Int) * p.toNat + ((m.toNat % p.toNat : Nat) : Int) := by
    rw [Int.mul_comm]
    exact_mod_cast hsplit
  have hcond : (p - m % p < m % p || (m % p == p - m % p && m / p % 2 == 1)) = true ↔
      p.toNat < 2 * (m.toNat % p.toNat) ∨ (2 * (m.toNat % p.toNat) = p.toNat ∧ m.toNat / p.toNat % 2 = 1) := by
    simp only [Bool.or_eq_true, Bool.and_eq_true, decide_eq_true_eq, beq_iff_eq, UInt64.lt_iff_toNat_lt,
      ← UInt64.toNat_inj, hrest, hr, hparity]
    have hunit : (1 : UInt64).toNat = 1 := rfl
    omega
  unfold roundedQuotient
  by_cases hup : p.toNat < 2 * (m.toNat % p.toNat) ∨ (2 * (m.toNat % p.toNat) = p.toNat ∧ m.toNat / p.toNat % 2 = 1)
  · -- rounding up, the divisor is at least two and the quotient at most half of the largest word
    have hhalf : m.toNat / p.toNat ≤ m.toNat / 2 := Nat.div_le_div_left (by omega) (by decide)
    have hsucc : (m / p + 1).toNat = m.toNat / p.toNat + 1 := by
      have hunit : (1 : UInt64).toNat = 1 := rfl
      rw [UInt64.toNat_add, hq, hunit]
      omega
    rw [if_pos (hcond.mpr hup), hsucc]
    exact NearestQuotient.of_high (by omega) (by omega) hint (by omega)
  · rw [if_neg fun h => hup (hcond.mp h), hq]
    exact NearestQuotient.of_low (by omega) (by omega) hint (by omega)

/-- The check of the multiple is right: it is refused exactly if it is no word without a sign. -/
theorem roundMagnitude?_eq (m : UInt64) {p : UInt64} (hp : 0 < p.toNat) :
    (18446744073709551616 ≤ (roundedQuotient m p).toNat * p.toNat → roundMagnitude? m p = none) ∧
    ((roundedQuotient m p).toNat * p.toNat < 18446744073709551616 →
      ∃ out : UInt64, roundMagnitude? m p = some out ∧ out.toNat = (roundedQuotient m p).toNat * p.toNat) := by
  have hmost : (18446744073709551615 / p : UInt64).toNat = 18446744073709551615 / p.toNat := UInt64.toNat_div _ p
  have hcond : (roundedQuotient m p != 0 && 18446744073709551615 / p < roundedQuotient m p) = true ↔
      18446744073709551616 ≤ (roundedQuotient m p).toNat * p.toNat := by
    simp only [Bool.and_eq_true, decide_eq_true_eq, bne_iff_ne, ne_eq, UInt64.lt_iff_toNat_lt, hmost,
      Nat.div_lt_iff_lt_mul hp, ← UInt64.toNat_inj, UInt64.toNat_zero]
    refine ⟨fun h => by omega, fun h => ⟨fun hzero => ?_, by omega⟩⟩
    rw [hzero, Nat.zero_mul] at h
    omega
  rw [roundMagnitude?_eq_roundedQuotient]
  refine ⟨fun h => if_pos (hcond.mpr h), fun h => ⟨roundedQuotient m p * p, if_neg fun hc => ?_, ?_⟩⟩
  · have := hcond.mp hc
    omega
  · rw [UInt64.toNat_mul]
    exact Nat.mod_eq_of_lt h

/-! ## Signs -/

theorem toInt_toInt64 (w : UInt64) : w.toInt64.toInt = (w.toNat : Int).bmod 18446744073709551616 :=
  BitVec.toInt_eq_toNat_bmod w.toBitVec

theorem toInt_neg_toInt64 (w : UInt64) : (-w).toInt64.toInt = (-(w.toNat : Int)).bmod 18446744073709551616 := by
  have hneg : (-w).toInt64 = -w.toInt64 := rfl
  rw [hneg, Int64.toInt_neg, toInt_toInt64]
  exact Int.bmod_neg_bmod

/-- A magnitude as a positive word, if it is one. -/
theorem positive_eq (w : UInt64) :
    (if 9223372036854775807 < w then none else some w.toInt64) = ofInt? w.toNat := by
  have hmax : (9223372036854775807 : UInt64).toNat = 9223372036854775807 := rfl
  by_cases hfits : Fits (w.toNat : Int)
  · have hle : ¬ 9223372036854775807 < w := by
      rw [UInt64.lt_iff_toNat_lt, hmax]
      unfold Fits at hfits
      omega
    rw [if_neg hle]
    exact (ofInt?_eq_some_iff.mpr ((toInt_toInt64 w).trans (bmod_of_fits hfits))).symm
  · have hlt : 9223372036854775807 < w := by
      rw [UInt64.lt_iff_toNat_lt, hmax]
      unfold Fits at hfits
      omega
    rw [if_pos hlt, ofInt?_of_not_fits hfits]

/-- A magnitude as a negative word, if it is one. -/
theorem negative_eq (w : UInt64) :
    (if 9223372036854775808 < w then none else some (-w).toInt64) = ofInt? (-(w.toNat : Int)) := by
  have hmax : (9223372036854775808 : UInt64).toNat = 9223372036854775808 := rfl
  by_cases hfits : Fits (-(w.toNat : Int))
  · have hle : ¬ 9223372036854775808 < w := by
      rw [UInt64.lt_iff_toNat_lt, hmax]
      unfold Fits at hfits
      omega
    rw [if_neg hle]
    exact (ofInt?_eq_some_iff.mpr ((toInt_neg_toInt64 w).trans (bmod_of_fits hfits))).symm
  · have hlt : 9223372036854775808 < w := by
      rw [UInt64.lt_iff_toNat_lt, hmax]
      unfold Fits at hfits
      omega
    rw [if_pos hlt, ofInt?_of_not_fits hfits]

/-! ## Powers of ten -/

/-- The power of ten that an integer is rounded to a multiple of, if the number of digits is negative. -/
def unit (digits : Int64) : Nat :=
  Nat.pow 10 (-digits.toInt).toNat

theorem toNat_tenPow {digits : Int64} (hneg : digits.toInt < 0) (hleast : -19 ≤ digits.toInt) :
    ((10 : UInt64) ^ (-digits).toInt.toNat).toNat = unit digits := by
  have hall : ∀ k < 20, ((10 : UInt64) ^ k).toNat = Nat.pow 10 k := by decide
  have hopposite : (-digits).toInt = -digits.toInt := by
    rw [Int64.toInt_neg]
    exact bmod_of_fits (by unfold Fits; omega)
  rw [hopposite, unit]
  exact hall _ (by omega)

theorem unit_pos (digits : Int64) : 0 < unit digits :=
  Nat.pow_pos (by decide)

/-- Beyond nineteen places, all words are within half a unit of zero. -/
theorem lt_unit {digits : Int64} (hmany : digits.toInt < -19) : 100000000000000000000 ≤ unit digits := by
  have htwenty : (100000000000000000000 : Nat) = Nat.pow 10 20 := rfl
  rw [htwenty]
  exact Nat.pow_le_pow_right (by decide) (by omega)

/-! ## Rounding -/

theorem round?_of_nonneg (n : Int64) {digits : Int64} (hdigits : 0 ≤ digits) : round? n digits = some n :=
  if_pos hdigits

/-- The rounded quotient of the magnitude of an integer. -/
def magnitudeQuotient (n digits : Int64) : Nat :=
  (roundedQuotient (magnitude n) (10 ^ (-digits).toInt.toNat)).toNat

theorem nearestQuotient_magnitude (n : Int64) {digits : Int64} (hneg : digits.toInt < 0) (hleast : -19 ≤ digits.toInt) :
    NearestQuotient (unit digits) n.toInt.natAbs (magnitudeQuotient n digits) := by
  have hunit := toNat_tenPow hneg hleast
  have hnearest := nearestQuotient_roundedQuotient (magnitude n) (hunit ▸ unit_pos digits)
  rwa [hunit, toNat_magnitude] at hnearest

/-- Rounding is exact on magnitudes, and the sign is put back exactly. -/
theorem round?_of_few (n : Int64) {digits : Int64} (hneg : digits.toInt < 0) (hleast : -19 ≤ digits.toInt) :
    round? n digits =
      if n < 0 then ofInt? (-(magnitudeQuotient n digits * unit digits : Nat))
      else ofInt? (magnitudeQuotient n digits * unit digits : Nat) := by
  have hunit := toNat_tenPow hneg hleast
  have hnotNonneg : ¬ 0 ≤ digits := by
    rw [Int64.le_iff_toInt_le, Int64.toInt_zero]
    omega
  have hnotMany : ¬ digits < -19 := by
    have hnineteen : (-19 : Int64).toInt = -19 := rfl
    rw [Int64.lt_iff_toInt_lt, hnineteen]
    omega
  obtain ⟨hnone, hsome⟩ := roundMagnitude?_eq (magnitude n) (hunit ▸ unit_pos digits)
  rw [hunit, ← magnitudeQuotient] at hnone hsome
  by_cases hword : magnitudeQuotient n digits * unit digits < 18446744073709551616
  · obtain ⟨out, hout, hvalue⟩ := hsome hword
    simp only [round?, if_neg hnotNonneg, if_neg hnotMany, hout]
    rw [negative_eq, positive_eq, hvalue]
  · -- a multiple beyond all words without a sign is no word with one
    have hnotFits : ¬ Fits (magnitudeQuotient n digits * unit digits : Nat) := by
      unfold Fits
      omega
    have hnotFits' : ¬ Fits (-(magnitudeQuotient n digits * unit digits : Nat)) := by
      unfold Fits
      omega
    simp only [round?, if_neg hnotNonneg, if_neg hnotMany, hnone (by omega)]
    rw [ofInt?_of_not_fits hnotFits, ofInt?_of_not_fits hnotFits', ite_self]

theorem round?_of_many (n : Int64) {digits : Int64} (hmany : digits.toInt < -19) : round? n digits = some 0 := by
  have hnotNonneg : ¬ 0 ≤ digits := by
    rw [Int64.le_iff_toInt_le, Int64.toInt_zero]
    omega
  have hnineteen : (-19 : Int64).toInt = -19 := rfl
  have hlt : digits < -19 := by
    rw [Int64.lt_iff_toInt_lt, hnineteen]
    exact hmany
  rw [round?, if_neg hnotNonneg, if_pos hlt]

/-- An integer is rounded to the nearest multiple of the unit, if that is a word. -/
theorem round?_eq_nearest (n : Int64) {digits : Int64} (hneg : digits.toInt < 0) :
    ∃ q : Int, NearestQuotient (unit digits) n.toInt q ∧ round? n digits = ofInt? (q * unit digits) := by
  by_cases hmany : digits.toInt < -19
  · have hfits := fits_toInt n
    have hunit := lt_unit hmany
    refine ⟨0, NearestQuotient.zero ?_ (by omega), ?_⟩
    · unfold Fits at hfits
      omega
    · rw [round?_of_many n hmany, Int.zero_mul]
      rfl
  · have hnearest := nearestQuotient_magnitude n hneg (by omega)
    rw [round?_of_few n hneg (by omega)]
    by_cases hsign : n < 0
    · have hvalue : -(n.toInt.natAbs : Int) = n.toInt := by
        rw [Int64.lt_iff_toInt_lt, Int64.toInt_zero] at hsign
        omega
      refine ⟨-magnitudeQuotient n digits, hvalue ▸ hnearest.neg, ?_⟩
      rw [if_pos hsign, Int.neg_mul, Int.natCast_mul]
    · have hvalue : (n.toInt.natAbs : Int) = n.toInt := by
        rw [Int64.lt_iff_toInt_lt, Int64.toInt_zero] at hsign
        omega
      refine ⟨magnitudeQuotient n digits, hvalue ▸ hnearest, ?_⟩
      rw [if_neg hsign, Int.natCast_mul]

end Word

/-! ## The built-in -/

/-- Rounding as the default registry has it. -/
def roundEntry (registry : Nat) : Builtin :=
  ⟨"round", 1, some 2, .round, registry⟩

theorem callBuiltin_roundEntry (registry : Nat) (m : Machine) (n digits : Int64) :
    Eval.callBuiltin m (roundEntry registry) [.int n, .int digits] =
      (m.countCall, Eval.builtinOutcome (roundEntry registry) [.int n, .int digits]) :=
  Eval.callBuiltin_eq m _ rfl

theorem builtinOutcome_roundEntry_of_some {registry : Nat} {n digits w : Int64} (h : Word.round? n digits = some w) :
    Eval.builtinOutcome (roundEntry registry) [.int n, .int digits] = .ok (.int w) := by
  have happly : Operation.round.apply [.int n, .int digits] = .ok (.int w) := by
    simp only [Operation.apply, roundNumber, checkOperands, Value.toInt64?, h]
    rfl
  exact Eval.builtinOutcome_of_ok happly

theorem builtinOutcome_roundEntry_of_none {registry : Nat} {n digits : Int64} (h : Word.round? n digits = none) :
    Eval.builtinOutcome (roundEntry registry) [.int n, .int digits] = .error (.fault .overflow) := by
  have happly : Operation.round.apply [.int n, .int digits] = .error .overflow := by
    simp only [Operation.apply, roundNumber, checkOperands, Value.toInt64?, h]
    rfl
  exact Eval.builtinOutcome_of_error (by simp) happly

/-- **Rounding an integer to a power of ten is exact.** With no negative number of digits an integer stays as it is. Else there is
just one nearest multiple of the power of ten, ties going to the even quotient, and it is the result if it is a word; if it
is not, the call fails with an overflow. -/
theorem round_exact (registry : Nat) (n digits : Int64) (m : Machine) :
    ∃ b, (Registry.defaults registry).get? "round" = some (.builtin b) ∧
      (0 ≤ digits → Eval.callBuiltin m b [.int n, .int digits] = (m.countCall, .ok (.int n))) ∧
      (digits < 0 → ∃ q : Int,
        (∀ q', NearestQuotient (Nat.pow 10 (-digits.toInt).toNat) n.toInt q' ↔ q' = q) ∧
        (Word.Fits (q * Nat.pow 10 (-digits.toInt).toNat) →
          ∃ w : Int64, w.toInt = q * Nat.pow 10 (-digits.toInt).toNat ∧
            Eval.callBuiltin m b [.int n, .int digits] = (m.countCall, .ok (.int w))) ∧
        (¬ Word.Fits (q * Nat.pow 10 (-digits.toInt).toNat) →
          ∃ err : EvalError, err.code = .arithmetic ∧ err.message = "integer overflow" ∧
            Eval.callBuiltin m b [.int n, .int digits] = (m.countCall, .error err))) := by
  refine ⟨roundEntry registry, rfl, fun hdigits => ?_, fun hdigits => ?_⟩
  · rw [callBuiltin_roundEntry, builtinOutcome_roundEntry_of_some (Word.round?_of_nonneg n hdigits)]
  · rw [Int64.lt_iff_toInt_lt, Int64.toInt_zero] at hdigits
    obtain ⟨q, hnearest, hround⟩ := Word.round?_eq_nearest n hdigits
    have hpos : (0 : Int) < Word.unit digits := Int.natCast_pos.mpr (Word.unit_pos digits)
    refine ⟨q, fun q' => ⟨fun h => h.unique hpos hnearest, ?_⟩, fun hfits => ?_, fun hnot => ?_⟩
    · rintro rfl
      exact hnearest
    · have hsome := hround.trans (Word.ofInt?_of_fits hfits)
      refine ⟨Int64.ofInt (q * Word.unit digits), Word.toInt_ofInt hfits, ?_⟩
      rw [callBuiltin_roundEntry, builtinOutcome_roundEntry_of_some hsome]
    · have hnone := hround.trans (Word.ofInt?_of_not_fits hnot)
      refine ⟨.fault .overflow, rfl, rfl, ?_⟩
      rw [callBuiltin_roundEntry, builtinOutcome_roundEntry_of_none hnone]

/-- The least word is nearer to minus one unit of nineteen places than to zero, but that is no word. -/
theorem round_exact_least :
    NearestQuotient 10000000000000000000 Int64.minValue.toInt (-1) ∧
    ∃ b, (Registry.defaults 0).get? "round" = some (.builtin b) ∧
      ∃ err : EvalError, err.code = .arithmetic ∧ err.message = "integer overflow" ∧
        (Eval.callBuiltin (.start .empty "" false) b [.int Int64.minValue, .int (-19)]).2 = .error err := by
  have hnearest : NearestQuotient 10000000000000000000 Int64.minValue.toInt (-1) :=
    .of_low (r := 776627963145224192) (by decide) (by decide) (by decide) (.inl (by decide))
  have hunit : Nat.pow 10 (-(-19 : Int64).toInt).toNat = 10000000000000000000 := by decide
  obtain ⟨b, hb, -, hround⟩ := round_exact 0 Int64.minValue (-19) (.start .empty "" false)
  obtain ⟨q, hunique, -, hover⟩ := hround (by decide)
  rw [hunit] at hunique hover
  obtain rfl := (hunique (-1)).mp hnearest
  obtain ⟨err, hcode, hmessage, hcall⟩ := hover (by decide)
  exact ⟨hnearest, b, hb, err, hcode, hmessage, by rw [hcall]⟩

end FormLang
