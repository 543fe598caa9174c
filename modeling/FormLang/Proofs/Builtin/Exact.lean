import FormLang.Proofs.Eval.Plan
import FormLang.Registry

/-!
# Integer arithmetic is exact

Sums, differences and products of words are those of the integers, or they are refused because the result is no word
(`add?_eq`, `subtract?_eq`, `multiply?_eq`). The checks before them are computed in words as well. Each is shown to say what it
would say over the integers: the bounds that sums and differences are compared with never wrap, and a product that wraps is
not divided back to its first factor.

An operation of several operands combines them from left to right, so it succeeds exactly if every result on the way is a
word (`Arithmetic.call_exact`).
-/

namespace FormLang

/-! ## Integers that are words -/

namespace Word

/-- The integer is the value of a word. -/
def Fits (v : Int) : Prop :=
  -9223372036854775808 ≤ v ∧ v ≤ 9223372036854775807

instance (v : Int) : Decidable (Fits v) :=
  inferInstanceAs (Decidable (_ ∧ _))

/-- The word with this value, if there is one. -/
def ofInt? (v : Int) : Option Int64 :=
  if Fits v then some (Int64.ofInt v) else none

theorem fits_toInt (n : Int64) : Fits n.toInt :=
  ⟨Int64.le_toInt n, Int.le_of_lt_add_one (Int64.toInt_lt n)⟩

theorem toInt_ofInt {v : Int} (h : Fits v) : (Int64.ofInt v).toInt = v :=
  Int64.toInt_ofInt_of_le h.1 (Int.lt_add_one_of_le h.2)

theorem ofInt?_of_fits {v : Int} (h : Fits v) : ofInt? v = some (Int64.ofInt v) :=
  if_pos h

theorem ofInt?_of_not_fits {v : Int} (h : ¬ Fits v) : ofInt? v = none :=
  if_neg h

theorem ofInt?_toInt (n : Int64) : ofInt? n.toInt = some n := by
  rw [ofInt?_of_fits (fits_toInt n), Int64.ofInt_toInt]

theorem ofInt?_eq_some_iff {v : Int} {n : Int64} : ofInt? v = some n ↔ n.toInt = v := by
  constructor
  · intro h
    by_cases hfits : Fits v
    · rw [ofInt?_of_fits hfits] at h
      rw [← Option.some.inj h, toInt_ofInt hfits]
    · rw [ofInt?_of_not_fits hfits] at h
      cases h
  · rintro rfl
    exact ofInt?_toInt n

/-! ## Results that do not wrap -/

theorem bmod_of_fits {v : Int} (h : Fits v) : v.bmod 18446744073709551616 = v := by
  obtain ⟨hmin, hmax⟩ := h
  exact Int.bmod_eq_of_le (by omega) (by omega)

theorem toInt_add_of_fits {a b : Int64} (h : Fits (a.toInt + b.toInt)) : (a + b).toInt = a.toInt + b.toInt :=
  (Int64.toInt_add a b).trans (bmod_of_fits h)

theorem toInt_sub_of_fits {a b : Int64} (h : Fits (a.toInt - b.toInt)) : (a - b).toInt = a.toInt - b.toInt :=
  (Int64.toInt_sub a b).trans (bmod_of_fits h)

theorem toInt_mul_of_fits {a b : Int64} (h : Fits (a.toInt * b.toInt)) : (a * b).toInt = a.toInt * b.toInt :=
  (Int64.toInt_mul a b).trans (bmod_of_fits h)

theorem toInt_maxValue : Int64.maxValue.toInt = 9223372036854775807 := rfl

theorem toInt_minValue : Int64.minValue.toInt = -9223372036854775808 := rfl

/-! ## Sums and differences -/

/-- The check of a sum is right: the bound that it computes does not wrap. -/
theorem add_check_iff (a b : Int64) :
    ((0 < b && Int64.maxValue - b < a) || (b < 0 && a < Int64.minValue - b)) = true ↔ ¬ Fits (a.toInt + b.toInt) := by
  have ha := fits_toInt a
  have hb := fits_toInt b
  have hmax : 0 < b.toInt → (Int64.maxValue - b).toInt = 9223372036854775807 - b.toInt := by
    intro hpos
    rw [toInt_sub_of_fits (by rw [toInt_maxValue]; unfold Fits at *; omega), toInt_maxValue]
  have hmin : b.toInt < 0 → (Int64.minValue - b).toInt = -9223372036854775808 - b.toInt := by
    intro hneg
    rw [toInt_sub_of_fits (by rw [toInt_minValue]; unfold Fits at *; omega), toInt_minValue]
  simp only [Bool.or_eq_true, Bool.and_eq_true, decide_eq_true_eq, Int64.lt_iff_toInt_lt, Int64.toInt_zero]
  unfold Fits at *
  omega

theorem add?_eq (a b : Int64) : add? a b = ofInt? (a.toInt + b.toInt) := by
  unfold add?
  by_cases hfits : Fits (a.toInt + b.toInt)
  · rw [if_neg fun hcheck => (add_check_iff a b).mp hcheck hfits, ← toInt_add_of_fits hfits, ofInt?_toInt]
  · rw [if_pos ((add_check_iff a b).mpr hfits), ofInt?_of_not_fits hfits]

/-- The check of a difference is right: the bound that it computes does not wrap. -/
theorem subtract_check_iff (a b : Int64) :
    ((b < 0 && Int64.maxValue + b < a) || (0 < b && a < Int64.minValue + b)) = true ↔ ¬ Fits (a.toInt - b.toInt) := by
  have ha := fits_toInt a
  have hb := fits_toInt b
  have hmax : b.toInt < 0 → (Int64.maxValue + b).toInt = 9223372036854775807 + b.toInt := by
    intro hneg
    rw [toInt_add_of_fits (by rw [toInt_maxValue]; unfold Fits at *; omega), toInt_maxValue]
  have hmin : 0 < b.toInt → (Int64.minValue + b).toInt = -9223372036854775808 + b.toInt := by
    intro hpos
    rw [toInt_add_of_fits (by rw [toInt_minValue]; unfold Fits at *; omega), toInt_minValue]
  simp only [Bool.or_eq_true, Bool.and_eq_true, decide_eq_true_eq, Int64.lt_iff_toInt_lt, Int64.toInt_zero]
  unfold Fits at *
  omega

theorem subtract?_eq (a b : Int64) : subtract? a b = ofInt? (a.toInt - b.toInt) := by
  unfold subtract?
  by_cases hfits : Fits (a.toInt - b.toInt)
  · rw [if_neg fun hcheck => (subtract_check_iff a b).mp hcheck hfits, ← toInt_sub_of_fits hfits, ofInt?_toInt]
  · rw [if_pos ((subtract_check_iff a b).mpr hfits), ofInt?_of_not_fits hfits]

/-! ## Products -/

/-- A quotient of words is a word, unless the divisor is minus one. -/
theorem fits_tdiv {c b : Int} (hc : Fits c) (hzero : b ≠ 0) (hneg : b ≠ -1) : Fits (c.tdiv b) := by
  have habs : (c.tdiv b).natAbs = c.natAbs / b.natAbs := Int.natAbs_tdiv c b
  by_cases hone : b = 1
  · rw [hone, Int.tdiv_one]
    exact hc
  · have hhalf : c.natAbs / b.natAbs ≤ c.natAbs / 2 := Nat.div_le_div_left (by omega) (by decide)
    unfold Fits at *
    omega

/-- A product that wraps differs from the exact one by more than any remainder. -/
theorem fits_of_quotient_eq {a b : Int64} (hzero : b ≠ 0) (hneg : b ≠ -1) (hquotient : a * b / b = a) :
    Fits (a.toInt * b.toInt) := by
  have hb : b.toInt ≠ 0 := fun h => hzero (Int64.toInt_inj.mp (h.trans Int64.toInt_zero.symm))
  have hb' : b.toInt ≠ -1 := fun h => hneg (Int64.toInt_inj.mp h)
  have hdiv : (a * b).toInt.tdiv b.toInt = a.toInt := by
    have h := congrArg Int64.toInt hquotient
    rw [Int64.toInt_div] at h
    exact (bmod_of_fits (fits_tdiv (fits_toInt (a * b)) hb hb')).symm.trans h
  have hsplit : (a * b).toInt = b.toInt * a.toInt + (a * b).toInt.tmod b.toInt := by
    have h := Int.mul_tdiv_add_tmod (a * b).toInt b.toInt
    rw [hdiv] at h
    exact h.symm
  have hwrap : (a * b).toInt + 18446744073709551616 * (a.toInt * b.toInt).bdiv 18446744073709551616 = a.toInt * b.toInt := by
    rw [Int64.toInt_mul]
    exact Int.bmod_add_bdiv (a.toInt * b.toInt) 18446744073709551616
  have hrem : ((a * b).toInt.tmod b.toInt).natAbs < b.toInt.natAbs := by
    rw [Int.natAbs_tmod]
    exact Nat.mod_lt _ (by omega)
  have hfits := fits_toInt (a * b)
  have hbound := fits_toInt b
  rw [Int.mul_comm b.toInt] at hsplit
  unfold Fits at *
  omega

theorem quotient_eq_of_fits {a b : Int64} (hzero : b ≠ 0) (hfits : Fits (a.toInt * b.toInt)) : a * b / b = a := by
  have hb : b.toInt ≠ 0 := fun h => hzero (Int64.toInt_inj.mp (h.trans Int64.toInt_zero.symm))
  apply Int64.toInt_inj.mp
  rw [Int64.toInt_div, toInt_mul_of_fits hfits, Int.mul_tdiv_cancel _ hb]
  exact bmod_of_fits (fits_toInt a)

theorem multiply?_eq (a b : Int64) : multiply? a b = ofInt? (a.toInt * b.toInt) := by
  unfold multiply?
  by_cases hzero : a = 0 ∨ b = 0
  · rw [if_pos (by simpa using hzero)]
    rcases hzero with rfl | rfl
    · rw [Int64.toInt_zero, Int.zero_mul]
      rfl
    · rw [Int64.toInt_zero, Int.mul_zero]
      rfl
  · rw [not_or] at hzero
    rw [if_neg (by simp [hzero])]
    by_cases hneg : (a = -1 ∧ b = Int64.minValue) ∨ (b = -1 ∧ a = Int64.minValue)
    · -- the one product of magnitude 2 ^ 63 that is positive
      rw [if_pos (by simpa using hneg)]
      rcases hneg with ⟨rfl, rfl⟩ | ⟨rfl, rfl⟩ <;> rfl
    · rw [if_neg (by simpa using hneg)]
      simp only
      by_cases hfits : Fits (a.toInt * b.toInt)
      · rw [if_pos (by simpa using quotient_eq_of_fits hzero.2 hfits), ← toInt_mul_of_fits hfits, ofInt?_toInt]
      · have hminus : b ≠ -1 := by
          rintro rfl
          refine hfits ?_
          have hmin : a.toInt ≠ -9223372036854775808 :=
            fun h => hneg (.inr ⟨rfl, Int64.toInt_inj.mp h⟩)
          have hone : (-1 : Int64).toInt = -1 := rfl
          have ha := fits_toInt a
          rw [hone]
          unfold Fits at *
          omega
        rw [if_neg fun hquotient => hfits (fits_of_quotient_eq hzero.2 hminus (by simpa using hquotient)),
          ofInt?_of_not_fits hfits]

end Word

/-! ## Operations on several operands -/

/-- The integer that a value counts for. -/
def Value.whole : Value → Int
  | .int n => n.toInt
  | .bool true => 1
  | _ => 0

theorem Value.toInt64?_of_isInteger {v : Value} (h : v.isInteger = true) :
    ∃ n : Int64, v.toInt64? = some n ∧ n.toInt = v.whole := by
  cases v with
  | int n => exact ⟨n, rfl, rfl⟩
  | bool b => cases b <;> exact ⟨_, rfl, rfl⟩
  | _ => cases h

theorem Value.isNumber_of_isInteger {v : Value} (h : v.isInteger = true) : v.isNumber = true := by
  cases v with
  | int n | bool b => rfl
  | _ => cases h

theorem checkOperands_eq_ok (op : String) {args : List Value} (h : ∀ v ∈ args, v.isNumber = true) :
    checkOperands op args = .ok () := by
  have hfind : args.find? (!·.isNumber) = none := List.find?_eq_none.mpr (by simpa using h)
  rw [checkOperands, hfind]

namespace Arithmetic

/-- The operation on integers of any size. -/
def exact : Arithmetic → Int → Int → Int
  | .add => (· + ·)
  | .subtract => (· - ·)
  | .multiply => (· * ·)

theorem onWords_eq_ofInt? (op : Arithmetic) (a b : Int64) : op.onWords a b = Word.ofInt? (op.exact a.toInt b.toInt) := by
  cases op with
  | add => exact Word.add?_eq a b
  | subtract => exact Word.subtract?_eq a b
  | multiply => exact Word.multiply?_eq a b

/-- The numbers that are combined. A single number is subtracted from zero. -/
def terms : Arithmetic → List Int → List Int
  | .subtract, [n] => [0, n]
  | _, ns => ns

/-- What combining from left to right goes through, from the first number to the result. -/
def passes (op : Arithmetic) : List Int → List Int
  | [] => []
  | n :: ns => ns.scanl op.exact n

/-- The result of combining from left to right. -/
def total (op : Arithmetic) : List Int → Int
  | [] => 0
  | n :: ns => ns.foldl op.exact n

/-- The operation gives the exact result if every number on the way to it is a word, and else it overflows. -/
def Decides (passes : List Int) (total : Int) (r : Except Fault Value) : Prop :=
  ((∀ x ∈ passes, Word.Fits x) → ∃ n : Int64, n.toInt = total ∧ r = .ok (.int n)) ∧
  ((∃ x ∈ passes, ¬ Word.Fits x) → r = .error .overflow)

section combine

variable (op : Arithmetic) {acc next : Value} {x y : Int64} (hacc : acc.toInt64? = some x) (hnext : next.toInt64? = some y)

include hacc hnext

theorem combine_of_fits (hfits : Word.Fits (op.exact x.toInt y.toInt)) :
    op.combine acc next = .ok (.int (Int64.ofInt (op.exact x.toInt y.toInt))) := by
  have hboth : acc.integers? next = some (x, y) := by rw [Value.integers?, hacc, hnext]
  simp only [combine, hboth, onWords_eq_ofInt?, Word.ofInt?_of_fits hfits]

theorem combine_of_not_fits (hfits : ¬ Word.Fits (op.exact x.toInt y.toInt)) : op.combine acc next = .error .overflow := by
  have hboth : acc.integers? next = some (x, y) := by rw [Value.integers?, hacc, hnext]
  simp only [combine, hboth, onWords_eq_ofInt?, Word.ofInt?_of_not_fits hfits]

end combine

theorem decides_foldFrom (op : Arithmetic) (acc : Int64) {vs : List Value} (hvs : ∀ v ∈ vs, v.isInteger = true) :
    Decides ((vs.map Value.whole).scanl op.exact acc.toInt) ((vs.map Value.whole).foldl op.exact acc.toInt)
      (op.foldFrom (.int acc) vs) := by
  induction vs generalizing acc with
  | nil =>
    refine ⟨fun _ => ⟨acc, rfl, rfl⟩, ?_⟩
    rintro ⟨x, hx, hnot⟩
    obtain rfl : x = acc.toInt := by simpa using hx
    exact absurd (Word.fits_toInt acc) hnot
  | cons v vs ih =>
    rw [List.forall_mem_cons] at hvs
    obtain ⟨y, hy, hwhole⟩ := Value.toInt64?_of_isInteger hvs.1
    have hacc : (Value.int acc).toInt64? = some acc := rfl
    rw [List.map_cons, List.scanl_cons, List.foldl_cons, foldFrom, ← hwhole]
    by_cases hfits : Word.Fits (op.exact acc.toInt y.toInt)
    · have hnext := ih (Int64.ofInt (op.exact acc.toInt y.toInt)) hvs.2
      rw [Word.toInt_ofInt hfits] at hnext
      rw [combine_of_fits op hacc hy hfits]
      refine ⟨fun hall => hnext.1 (List.forall_mem_cons.mp hall).2, ?_⟩
      rintro ⟨x, hx, hnot⟩
      rcases List.mem_cons.mp hx with rfl | hx
      · exact absurd (Word.fits_toInt acc) hnot
      · exact hnext.2 ⟨x, hx, hnot⟩
    · -- the first result that is no word stands on the way
      rw [combine_of_not_fits op hacc hy hfits]
      refine ⟨fun hall => absurd (hall _ ?_) hfits, fun _ => rfl⟩
      refine List.mem_cons_of_mem _ ?_
      cases vs.map Value.whole <;> simp

theorem decides_fold (op : Arithmetic) {args : List Value} (hne : args ≠ []) (hargs : ∀ v ∈ args, v.isInteger = true) :
    Decides (op.passes (args.map Value.whole)) (op.total (args.map Value.whole)) (op.fold args) := by
  obtain ⟨v, vs, rfl⟩ := List.exists_cons_of_ne_nil hne
  have hcheck := checkOperands_eq_ok op.symbol fun v hv => Value.isNumber_of_isInteger (hargs v hv)
  rw [List.forall_mem_cons] at hargs
  obtain ⟨n, hn, hunbool⟩ : ∃ n : Int64, n.toInt = v.whole ∧ unbool v = .int n := by
    cases v with
    | int n => exact ⟨n, rfl, rfl⟩
    | bool b => cases b <;> exact ⟨_, rfl, rfl⟩
    | _ => cases hargs.1
  rw [fold, hcheck]
  simp only [hunbool]
  rw [List.map_cons, passes, total, ← hn]
  exact decides_foldFrom op n hargs.2

theorem decides_apply (op : Arithmetic) {args : List Value} (hne : args ≠ []) (hargs : ∀ v ∈ args, v.isInteger = true) :
    Decides (op.passes (op.terms (args.map Value.whole))) (op.total (op.terms (args.map Value.whole))) (op.apply args) := by
  by_cases hsingle : op = .subtract ∧ ∃ v, args = [v]
  · obtain ⟨rfl, v, rfl⟩ := hsingle
    have hboth : ∀ w ∈ [Value.int 0, v], w.isInteger = true := by simpa [Value.isInteger] using hargs
    exact decides_fold .subtract (by simp) hboth
  · have hterms : op.terms (args.map Value.whole) = args.map Value.whole ∧ op.apply args = op.fold args := by
      cases op with
      | add | multiply => exact ⟨rfl, rfl⟩
      | subtract =>
        rcases args with _ | ⟨v, _ | ⟨w, rest⟩⟩
        · exact ⟨rfl, rfl⟩
        · exact absurd ⟨rfl, v, rfl⟩ hsingle
        · exact ⟨rfl, rfl⟩
    rw [hterms.1, hterms.2]
    exact decides_fold op hne hargs

/-- The operation as the default registry has it. -/
def entry (op : Arithmetic) (registry : Nat) : Builtin :=
  ⟨op.symbol, 1, none, .arithmetic op, registry⟩

theorem get?_defaults (op : Arithmetic) (registry : Nat) :
    (Registry.defaults registry).get? op.symbol = some (.builtin (op.entry registry)) := by
  cases op <;> rfl

theorem callBuiltin_entry (op : Arithmetic) (registry : Nat) (m : Machine) {args : List Value} (hne : args ≠ []) :
    Eval.callBuiltin m (op.entry registry) args = (m.countCall, Eval.builtinOutcome (op.entry registry) args) := by
  have hlength : 1 ≤ args.length := List.length_pos_iff.mpr hne
  exact Eval.callBuiltin_eq m _ (by simp [Builtin.takes, entry, hlength])

/-- **Integer arithmetic is exact or reports an overflow.** Called with integers and booleans, the built-ins `+`, `-` and `*`
return what the integers give, if every number on the way to it is a word, and else they fail with an overflow. On two words
the checks are right, although they are computed in words. -/
theorem call_exact (registry : Nat) (op : Arithmetic) (args : List Value) (hne : args ≠ [])
    (hargs : ∀ v ∈ args, v.isInteger = true) (m : Machine) :
    ∃ b, (Registry.defaults registry).get? op.symbol = some (.builtin b) ∧
      ((∀ x ∈ op.passes (op.terms (args.map Value.whole)), Word.Fits x) →
        ∃ n : Int64, n.toInt = op.total (op.terms (args.map Value.whole)) ∧
          Eval.callBuiltin m b args = (m.countCall, .ok (.int n))) ∧
      ((∃ x ∈ op.passes (op.terms (args.map Value.whole)), ¬ Word.Fits x) →
        ∃ err : EvalError, err.code = .arithmetic ∧ err.message = "integer overflow" ∧
          Eval.callBuiltin m b args = (m.countCall, .error err)) ∧
      ∀ x y : Int64, ((op.onWords x y).isSome = true ↔ Word.Fits (op.exact x.toInt y.toInt)) ∧
        ∀ n, op.onWords x y = some n → n.toInt = op.exact x.toInt y.toInt := by
  have hdecides := op.decides_apply hne hargs
  refine ⟨op.entry registry, op.get?_defaults registry, fun hall => ?_, fun hsome => ?_, fun x y => ⟨?_, fun n hn => ?_⟩⟩
  · obtain ⟨n, hn, hok⟩ := hdecides.1 hall
    refine ⟨n, hn, ?_⟩
    rw [op.callBuiltin_entry registry m hne, Eval.builtinOutcome, entry, Operation.apply, hok]
  · refine ⟨.fault .overflow, rfl, rfl, ?_⟩
    rw [op.callBuiltin_entry registry m hne, Eval.builtinOutcome, entry, Operation.apply, hdecides.2 hsome]
  · rw [onWords_eq_ofInt?, Word.ofInt?]
    split <;> simp_all
  · rw [onWords_eq_ofInt?] at hn
    exact Word.ofInt?_eq_some_iff.mp hn

/-- The largest word, a true value and minus five: the sum of all three is a word, but that of the first two is not. -/
def overshooting : List Value :=
  [.int Int64.maxValue, .bool true, .int (-5)]

/-- The sum fails on the way to a result that would fit, and the difference of a single word is its negation. -/
theorem call_exact_overshooting :
    Word.Fits (total .add (overshooting.map Value.whole)) ∧
    ∃ plus minus, (Registry.defaults 0).get? "+" = some (.builtin plus) ∧ (Registry.defaults 0).get? "-" = some (.builtin minus) ∧
      (∃ err : EvalError, err.code = .arithmetic ∧ err.message = "integer overflow" ∧
        (Eval.callBuiltin (.start .empty "" false) plus overshooting).2 = .error err) ∧
      ∃ n : Int64, n.toInt = -9223372036854775807 ∧
        (Eval.callBuiltin (.start .empty "" false) minus [.int Int64.maxValue]).2 = .ok (.int n) := by
  obtain ⟨plus, hplus, -, hover, -⟩ :=
    call_exact 0 .add overshooting (by simp [overshooting]) (by simp [overshooting, Value.isInteger]) (.start .empty "" false)
  obtain ⟨minus, hminus, hok, -⟩ :=
    call_exact 0 .subtract [.int Int64.maxValue] (by simp) (by simp [Value.isInteger]) (.start .empty "" false)
  obtain ⟨err, hcode, hmessage, herr⟩ := hover ⟨9223372036854775808, by decide, by decide⟩
  obtain ⟨n, hn, hcall⟩ := hok (by decide)
  refine ⟨by decide, plus, minus, hplus, hminus, ⟨err, hcode, hmessage, by rw [herr]⟩, n, hn, by rw [hcall]⟩

end Arithmetic

end FormLang
