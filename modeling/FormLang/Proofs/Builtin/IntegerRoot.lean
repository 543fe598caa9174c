import Mathlib.Tactic.Linarith
import Mathlib.Tactic.Ring
import FormLang.Proofs.Binary64.SquareRoot
import FormLang.Proofs.Builtin.Exact

/-!
# Integer square roots are exact

The root of a natural number is corrected in two loops, one that lowers an estimate and one that raises it. Their tests divide
by the estimate, because its square need not be a word. Such a test says what the squares would say (`quotient_lt_iff`), so the
first loop ends at an estimate whose square is not above the number, and the second one keeps that and ends where the next
square is.

The loops are taken here as they are computed in words, one turn after the other (`Loop`), where a turn has no result if it
divides by zero or if a result is no word. From every estimate that is not negative both loops end, and the root does not
depend on the estimate (`isqrt_exact`).
-/

namespace FormLang

/-- The square of `k` is not above `n`, and the next square is. -/
def IsRoot (n k : Int) : Prop :=
  k * k ≤ n ∧ n < (k + 1) * (k + 1)

namespace IsRoot

theorem nonneg {n k : Int} (h : IsRoot n k) : 0 ≤ k := by
  obtain ⟨hle, hlt⟩ := h
  have hsquare : (k + 1) * (k + 1) = k * k + (2 * k + 1) := by ring
  omega

theorem le {n k l : Int} (h : IsRoot n k) (h' : IsRoot n l) : k ≤ l := by
  by_contra hlt
  have hsquare : (l + 1) * (l + 1) ≤ k * k := mul_self_le_mul_self (by linarith [h'.nonneg]) (by omega)
  linarith [h.1, h'.2]

theorem unique {n k l : Int} (h : IsRoot n k) (h' : IsRoot n l) : k = l :=
  le_antisymm (h.le h') (h'.le h)

end IsRoot

namespace Word

/-! ## Turns of a loop -/

/-- What a turn does with the estimate that it is given. -/
inductive Turn where
  | ends
  | goesOn (next : Int64)

/-- The loop that makes such turns ends, and none of them is without a result. -/
inductive Loop (turn : Int64 → Option Turn) : (start result : Int64) → Prop
  | ends {r : Int64} : turn r = some .ends → Loop turn r r
  | goesOn {r next s : Int64} : turn r = some (.goesOn next) → Loop turn next s → Loop turn r s

/-- The quotient rounded toward zero, if the divisor is not zero and the quotient is a word. -/
def divide? (a b : Int64) : Option Int64 :=
  if b = 0 then none else ofInt? (a.toInt.tdiv b.toInt)

/-- A turn of the loop that lowers the estimate `r` while it is above `n / r`. -/
def lowering (n r : Int64) : Option Turn :=
  if 0 < r then
    (divide? n r).bind fun q => if q < r then (subtract? r 1).map .goesOn else some .ends
  else some .ends

/-- A turn of the loop that raises the estimate `r` while the next one is at most `n / (r + 1)`. -/
def raising (n r : Int64) : Option Turn :=
  (add? r 1).bind fun next =>
    (divide? n next).bind fun q => if next ≤ q then (add? r 1).map .goesOn else some .ends

/-! ## Quotients and squares -/

section quotient

variable {n r : Int64} (hn : 0 ≤ n.toInt) (hr : 0 < r.toInt)

include hn hr

theorem toInt_quotient : (n / r).toInt = n.toInt / r.toInt := by
  rw [Int64.toInt_div, ← Int.tdiv_eq_ediv_of_nonneg hn]
  exact bmod_of_fits (fits_tdiv (fits_toInt n) (by omega) (by omega))

theorem divide?_eq : divide? n r = some (n / r) := by
  have hzero : r ≠ 0 := by
    rintro rfl
    exact absurd hr (by decide)
  rw [divide?, if_neg hzero, ofInt?_eq_some_iff, toInt_quotient hn hr, Int.tdiv_eq_ediv_of_nonneg hn]

/-- The test by a quotient compares the number with the square, which need not be a word. -/
theorem quotient_lt_iff : n / r < r ↔ n.toInt < r.toInt * r.toInt := by
  rw [Int64.lt_iff_toInt_lt, toInt_quotient hn hr]
  exact Int.ediv_lt_iff_lt_mul hr

end quotient

theorem add?_one {r : Int64} (h : r.toInt < 9223372036854775807) :
    ∃ next, add? r 1 = some next ∧ next = r + 1 ∧ next.toInt = r.toInt + 1 := by
  have hfits : Fits (r.toInt + (1 : Int64).toInt) := by
    have hr := fits_toInt r
    rw [Int64.toInt_one]
    unfold Fits at *
    omega
  refine ⟨r + 1, ?_, rfl, toInt_add_of_fits hfits⟩
  rw [add?_eq, ofInt?_eq_some_iff]
  exact toInt_add_of_fits hfits

/-- A number whose square is not above a word lies far below the largest word. -/
theorem lt_of_square_le {n r : Int64} (h : r.toInt * r.toInt ≤ n.toInt) : r.toInt < 9223372036854775807 := by
  have hn := fits_toInt n
  unfold Fits at hn
  nlinarith

/-! ## The two loops -/

/-- Lowering ends at an estimate whose square is not above the number. -/
theorem loop_lowering {n r : Int64} (hn : 0 ≤ n.toInt) (hr : 0 ≤ r.toInt) :
    Loop (lowering n) r (lowerRoot n r) ∧ 0 ≤ (lowerRoot n r).toInt ∧
      (lowerRoot n r).toInt * (lowerRoot n r).toInt ≤ n.toInt := by
  induction r using lowerRoot.induct n with
  | case1 r h ih =>
    have hpos : 0 < r.toInt := Int64.lt_iff_toInt_lt.mp h.1
    have hprev : (r - 1).toInt = r.toInt - 1 := toInt_sub_one h.1
    have hturn : lowering n r = some (.goesOn (r - 1)) := by
      have hsub : subtract? r 1 = some (r - 1) := by
        rw [subtract?_eq, ofInt?_eq_some_iff]
        exact hprev
      rw [lowering, if_pos h.1, divide?_eq hn hpos, Option.bind_some, if_pos h.2, hsub, Option.map_some]
    obtain ⟨hloop, hbounds⟩ := ih (by omega)
    rw [lowerRoot, dif_pos h]
    exact ⟨.goesOn hturn hloop, hbounds⟩
  | case2 r h =>
    rw [lowerRoot, dif_neg h]
    by_cases hpos : 0 < r
    · have hpos' : 0 < r.toInt := Int64.lt_iff_toInt_lt.mp hpos
      have hquotient : ¬ n / r < r := fun hlt => h ⟨hpos, hlt⟩
      have hturn : lowering n r = some .ends := by
        rw [lowering, if_pos hpos, divide?_eq hn hpos', Option.bind_some, if_neg hquotient]
      rw [quotient_lt_iff hn hpos'] at hquotient
      exact ⟨.ends hturn, hr, by omega⟩
    · have hzero : r.toInt = 0 := by
        rw [Int64.lt_iff_toInt_lt, Int64.toInt_zero] at hpos
        omega
      refine ⟨.ends (if_neg hpos), hr, ?_⟩
      rw [hzero]
      exact hn

/-- Raising keeps the square at most the number, and ends where the next square is above it. -/
theorem loop_raising {n r : Int64} (hn : 0 ≤ n.toInt) (hr : 0 ≤ r.toInt) (hle : r.toInt * r.toInt ≤ n.toInt) :
    Loop (raising n) r (raiseRoot n r) ∧ IsRoot n.toInt (raiseRoot n r).toInt := by
  induction r using raiseRoot.induct n with
  | case1 r h ih =>
    obtain ⟨next, hadd, rfl, hnext⟩ := add?_one (lt_of_square_le hle)
    have hpos : 0 < (r + 1).toInt := by omega
    have hturn : raising n r = some (.goesOn (r + 1)) := by
      rw [raising, hadd, Option.bind_some, divide?_eq hn hpos, Option.bind_some, if_pos h.2, Option.map_some]
    have hsquare : ¬ n.toInt < (r + 1).toInt * (r + 1).toInt := by
      rw [← quotient_lt_iff hn hpos, Int64.not_lt]
      exact h.2
    obtain ⟨hloop, hroot⟩ := ih (by omega) (by omega)
    rw [raiseRoot, dif_pos h]
    exact ⟨.goesOn hturn hloop, hroot⟩
  | case2 r h =>
    obtain ⟨next, hadd, rfl, hnext⟩ := add?_one (lt_of_square_le hle)
    have hpos : 0 < (r + 1).toInt := by omega
    -- The guard that keeps the successor a word follows from the test itself.
    have hsquare : n.toInt < (r + 1).toInt * (r + 1).toInt := by
      by_contra hge
      have hquotient : r + 1 ≤ n / (r + 1) := by
        rw [← Int64.not_lt, quotient_lt_iff hn hpos]
        exact hge
      refine h ⟨?_, hquotient⟩
      rw [Int64.lt_iff_toInt_lt]
      rw [hnext] at hge
      nlinarith
    have hturn : raising n r = some .ends := by
      have hquotient : ¬ r + 1 ≤ n / (r + 1) := by
        rw [Int64.not_le, quotient_lt_iff hn hpos]
        exact hsquare
      rw [raising, hadd, Option.bind_some, divide?_eq hn hpos, Option.bind_some, if_neg hquotient]
    rw [raiseRoot, dif_neg h]
    exact ⟨.ends hturn, hle, hnext ▸ hsquare⟩

theorem isRoot_isqrtFrom {n r : Int64} (hn : 0 ≤ n.toInt) (hr : 0 ≤ r.toInt) : IsRoot n.toInt (isqrtFrom n r).toInt := by
  obtain ⟨-, hlow, hsquare⟩ := loop_lowering hn hr
  exact (loop_raising hn hlow hsquare).2

/-- The estimate does not matter. -/
theorem isqrt_eq_isqrtFrom {n r : Int64} (hn : 0 ≤ n.toInt) (hr : 0 ≤ r.toInt) : isqrt n = isqrtFrom n r := by
  have hestimate := Int64.le_iff_toInt_le.mp (Binary64.toWord_sqrt_nonneg (Binary64.ofInt64 n))
  exact Int64.toInt_inj.mp ((isRoot_isqrtFrom hn hestimate).unique (isRoot_isqrtFrom hn hr))

end Word

/-! ## The built-in -/

/-- The built-in `isqrt` as the default registry has it. -/
def isqrtEntry (registry : Nat) : Builtin :=
  ⟨"isqrt", 1, some 1, .isqrt, registry⟩

theorem callBuiltin_isqrtEntry (registry : Nat) (m : Machine) {v : Value} {n : Int64} (hv : v.toInt64? = some n)
    (hn : 0 ≤ n) : Eval.callBuiltin m (isqrtEntry registry) [v] = (m.countCall, .ok (.int (Word.isqrt n))) := by
  have hnatural : natural "isqrt" v = .ok n := by
    rw [natural, hv]
    exact if_neg (Int64.not_lt.mpr hn)
  have happly : (isqrtEntry registry).operation.apply [v] = .ok (.int (Word.isqrt n)) := by
    rw [isqrtEntry, Operation.apply, isqrtOf, hnatural]
  rw [Eval.callBuiltin_eq m _ rfl, Eval.builtinOutcome_of_ok happly]

/-- **The integer square root is exact, whatever the estimate.** From every estimate of the root of a natural number that is
not negative, both loops end, and no turn divides by zero or has a result that is no word. They end with the one number whose
square is at most `n` while the next square is above it. So does the built-in, with the estimate that it computes in
floats. -/
theorem isqrt_exact (n r : Int64) (hn : 0 ≤ n) (hr : 0 ≤ r) :
    ∃ low root : Int64, Word.Loop (Word.lowering n) r low ∧ Word.Loop (Word.raising n) low root ∧
      Word.isqrtFrom n r = root ∧ IsRoot n.toInt root.toInt ∧ (∀ k : Int, IsRoot n.toInt k → k = root.toInt) ∧
      ∀ (registry : Nat) (m : Machine) (v : Value), v.toInt64? = some n →
        ∃ b, (Registry.defaults registry).get? "isqrt" = some (.builtin b) ∧
          Eval.callBuiltin m b [v] = (m.countCall, .ok (.int root)) := by
  have hn' : 0 ≤ n.toInt := Int64.le_iff_toInt_le.mp hn
  have hr' : 0 ≤ r.toInt := Int64.le_iff_toInt_le.mp hr
  obtain ⟨hlowering, hlow, hsquare⟩ := Word.loop_lowering hn' hr'
  obtain ⟨hraising, hroot⟩ := Word.loop_raising hn' hlow hsquare
  refine ⟨_, _, hlowering, hraising, rfl, hroot, fun k hk => hk.unique hroot, fun registry m v hv => ?_⟩
  refine ⟨isqrtEntry registry, rfl, ?_⟩
  rw [callBuiltin_isqrtEntry registry m hv hn, Word.isqrt_eq_isqrtFrom hn' hr']
  rfl

/-- The largest word with an estimate far above its root, which has a square that is no word. -/
theorem isqrt_exact_largest :
    0 ≤ Int64.maxValue ∧ 0 ≤ Int64.maxValue - 1 ∧
    ∃ low root : Int64, Word.Loop (Word.lowering Int64.maxValue) (Int64.maxValue - 1) low ∧
      Word.Loop (Word.raising Int64.maxValue) low root ∧ root.toInt = 3037000499 ∧
      ∃ b, (Registry.defaults 0).get? "isqrt" = some (.builtin b) ∧
        (Eval.callBuiltin (.start .empty "" false) b [.int Int64.maxValue]).2 = .ok (.int root) := by
  obtain ⟨low, root, hlow, hraise, -, -, hunique, hcall⟩ :=
    isqrt_exact Int64.maxValue (Int64.maxValue - 1) (by decide) (by decide)
  obtain ⟨b, hb, hresult⟩ := hcall 0 (.start .empty "" false) (.int Int64.maxValue) rfl
  have hroot : IsRoot Int64.maxValue.toInt 3037000499 := by
    rw [IsRoot, Word.toInt_maxValue]
    decide
  exact ⟨by decide, by decide, low, root, hlow, hraise, (hunique _ hroot).symm, b, hb, by rw [hresult]⟩

end FormLang
