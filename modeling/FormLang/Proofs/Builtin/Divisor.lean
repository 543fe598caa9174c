import FormLang.Proofs.Builtin.Rounding

/-!
# The greatest common divisor

The divisors of the greatest common divisor are the common divisors, which settles it, also where all numbers are zero
(`GreatestDivisor`). Euclid's algorithm on words without a sign computes it for two numbers (`Word.toNat_gcd`), and taking in
one argument after the other keeps it (`gcdFrom_eq_ok`). It is a word, unless it is the magnitude of the least one, which is
the case just for arguments that are zero or that word (`GreatestDivisor.eq_bound_iff`).
-/

namespace FormLang

/-! ## Common divisors -/

/-- The divisors of `g` are the common divisors of the numbers. -/
def GreatestDivisor (ns : List Int) (g : Nat) : Prop :=
  ∀ d : Int, d ∣ (g : Int) ↔ ∀ n ∈ ns, d ∣ n

namespace GreatestDivisor

variable {ns : List Int} {g : Nat} (h : GreatestDivisor ns g)

include h

theorem dvd {n : Int} (hn : n ∈ ns) : (g : Int) ∣ n :=
  (h g).mp (Int.dvd_refl _) n hn

theorem unique {g' : Nat} (h' : GreatestDivisor ns g') : g' = g := by
  have hle : (g' : Int) ∣ g := (h g').mpr ((h' g').mp (Int.dvd_refl _))
  have hge : (g : Int) ∣ g' := (h' g).mpr ((h g).mp (Int.dvd_refl _))
  exact Nat.dvd_antisymm (Int.natCast_dvd_natCast.mp hle) (Int.natCast_dvd_natCast.mp hge)

theorem perm {ns' : List Int} (hperm : ns.Perm ns') : GreatestDivisor ns' g := by
  intro d
  rw [h d]
  exact ⟨fun hall n hn => hall n (hperm.mem_iff.mpr hn), fun hall n hn => hall n (hperm.mem_iff.mp hn)⟩

/-- It is zero exactly if all numbers are. -/
theorem eq_zero_iff : g = 0 ↔ ∀ n ∈ ns, n = 0 := by
  have hzero := h 0
  simp only [Int.zero_dvd] at hzero
  rw [← hzero]
  exact Int.natCast_eq_zero.symm

variable (hfits : ∀ n ∈ ns, Word.Fits n)

include hfits

/-- Of words it is at most the magnitude of the least word. -/
theorem le_bound : g ≤ 9223372036854775808 := by
  by_cases hall : ∀ n ∈ ns, n = 0
  · rw [h.eq_zero_iff.mpr hall]
    exact Nat.zero_le _
  · obtain ⟨n, hn, hne⟩ : ∃ n ∈ ns, n ≠ 0 := by simpa using hall
    have hdvd : g ∣ n.natAbs := Int.ofNat_dvd_left.mp (h.dvd hn)
    have hle : g ≤ n.natAbs := Nat.le_of_dvd (by omega) hdvd
    have hword := hfits n hn
    unfold Word.Fits at hword
    omega

/-- **The one divisor of words that is no word** is that of zeros and the least word. -/
theorem eq_bound_iff : g = 9223372036854775808 ↔
    (∀ n ∈ ns, n = 0 ∨ n = -9223372036854775808) ∧ -9223372036854775808 ∈ ns := by
  constructor
  · rintro rfl
    have hcases : ∀ n ∈ ns, n = 0 ∨ n = -9223372036854775808 := by
      intro n hn
      obtain ⟨k, rfl⟩ := h.dvd hn
      have hword := hfits _ hn
      unfold Word.Fits at hword
      omega
    refine ⟨hcases, ?_⟩
    apply Classical.byContradiction
    intro hnone
    have hzero : ∀ n ∈ ns, n = 0 := fun n hn => (hcases n hn).resolve_right fun hmin => hnone (hmin ▸ hn)
    exact absurd (h.eq_zero_iff.mpr hzero) (by decide)
  · rintro ⟨hcases, hn⟩
    have hdvd : g ∣ 9223372036854775808 := Int.ofNat_dvd_left.mp (h.dvd hn)
    have hdvd' : (9223372036854775808 : Int) ∣ g := by
      refine (h _).mpr fun n hn => ?_
      rcases hcases n hn with rfl | rfl
      · exact Int.dvd_zero _
      · exact Int.dvd_neg.mpr (Int.dvd_refl _)
    exact Nat.dvd_antisymm hdvd (Int.natCast_dvd_natCast.mp hdvd')

end GreatestDivisor

/-! ## Euclid's algorithm -/

theorem Word.toNat_gcd (a b : UInt64) : (Word.gcd a b).toNat = Nat.gcd a.toNat b.toNat := by
  induction a, b using Word.gcd.induct with
  | case1 a =>
    rw [Word.gcd, if_pos rfl]
    exact (Nat.gcd_zero_right _).symm
  | case2 a b hb ih => rw [Word.gcd, if_neg hb, ih, UInt64.toNat_mod, Nat.gcd_comm b.toNat, ← Nat.gcd_rec, Nat.gcd_comm]

theorem Word.dvd_gcd_iff (a : UInt64) (n : Int64) (d : Int) :
    d ∣ ((Word.gcd a (Word.magnitude n)).toNat : Int) ↔ d ∣ (a.toNat : Int) ∧ d ∣ n.toInt := by
  have hnat : ∀ k : Nat, d ∣ (k : Int) ↔ d.natAbs ∣ k := fun k => Int.natAbs_dvd_natAbs.symm
  rw [hnat, hnat, ← Int.natAbs_dvd_natAbs, Word.toNat_gcd, Word.toNat_magnitude, Nat.dvd_gcd_iff]

/-- Every further integer restricts the divisors. -/
theorem gcdFrom_eq_ok (acc : UInt64) {vs : List Value} (hvs : ∀ v ∈ vs, v.isInteger = true) :
    ∃ g : UInt64, gcdFrom acc vs = .ok g ∧
      ∀ d : Int, d ∣ (g.toNat : Int) ↔ d ∣ (acc.toNat : Int) ∧ ∀ n ∈ vs.map Value.whole, d ∣ n := by
  induction vs generalizing acc with
  | nil => exact ⟨acc, rfl, by simp⟩
  | cons v vs ih =>
    rw [List.forall_mem_cons] at hvs
    obtain ⟨n, hn, hwhole⟩ := Value.toInt64?_of_isInteger hvs.1
    obtain ⟨g, hg, hdvd⟩ := ih (Word.gcd acc (Word.magnitude n)) hvs.2
    refine ⟨g, ?_, fun d => ?_⟩
    · rw [gcdFrom, hn]
      exact hg
    · rw [hdvd d, Word.dvd_gcd_iff, List.map_cons, List.forall_mem_cons, hwhole, and_assoc]

/-- The first argument that is no integer ends the computation. -/
theorem gcdFrom_eq_error (acc : UInt64) {vs : List Value} (hvs : ∃ v ∈ vs, v.isInteger = false) :
    ∃ kind, gcdFrom acc vs = .error (.notInteger "gcd" kind) := by
  induction vs generalizing acc with
  | nil => simp at hvs
  | cons v vs ih =>
    rw [gcdFrom]
    cases hn : v.toInt64? with
    | none => exact ⟨v.kind, rfl⟩
    | some n =>
      have hv : v.isInteger = true := by
        cases v with
        | int _ | bool _ => rfl
        | _ => cases hn
      obtain ⟨w, hw, hnot⟩ := hvs
      rcases List.mem_cons.mp hw with rfl | hw
      · rw [hv] at hnot
        cases hnot
      · exact ih _ ⟨w, hw, hnot⟩

/-! ## The built-in -/

theorem Value.fits_whole (v : Value) : Word.Fits v.whole := by
  unfold Value.whole
  split
  · exact Word.fits_toInt _
  · decide
  · decide

theorem fits_of_mem_map_whole (args : List Value) : ∀ n ∈ args.map Value.whole, Word.Fits n :=
  List.forall_mem_map.mpr fun v _ => v.fits_whole

theorem gcdOf_eq_error {args : List Value} (h : ∃ v ∈ args, v.isInteger = false) :
    ∃ kind, gcdOf args = .error (.notInteger "gcd" kind) := by
  obtain ⟨kind, herr⟩ := gcdFrom_eq_error 0 h
  exact ⟨kind, by rw [gcdOf, herr]⟩

/-- Of integers the divisor is returned if it is a word. -/
theorem gcdOf_eq {args : List Value} (h : ∀ v ∈ args, v.isInteger = true) :
    ∃ g : Nat, GreatestDivisor (args.map Value.whole) g ∧
      (Word.Fits g → gcdOf args = .ok (.int (Int64.ofInt g))) ∧ (¬ Word.Fits g → gcdOf args = .error .overflow) := by
  obtain ⟨g, hg, hdvd⟩ := gcdFrom_eq_ok 0 h
  have hword := Word.positive_eq g
  refine ⟨g.toNat, fun d => ?_, fun hfits => ?_, fun hnot => ?_⟩
  · rw [hdvd d]
    exact and_iff_right (Int.dvd_zero d)
  · rw [Word.ofInt?_of_fits hfits, Option.ite_none_left_eq_some] at hword
    rw [gcdOf, hg]
    simp only [if_neg hword.1, Option.some.inj hword.2]
  · rw [Word.ofInt?_of_not_fits hnot] at hword
    have hlarge : 9223372036854775807 < g := by simpa using hword
    rw [gcdOf, hg]
    simp only [if_pos hlarge]

/-- The order of integers does not matter, for they have one greatest divisor. -/
theorem gcdOf_perm {args args' : List Value} (hperm : args.Perm args') (h : ∀ v ∈ args, v.isInteger = true) :
    gcdOf args' = gcdOf args := by
  obtain ⟨g, hg, hok, herr⟩ := gcdOf_eq h
  obtain ⟨g', hg', hok', herr'⟩ := gcdOf_eq fun v hv => h v (hperm.mem_iff.mpr hv)
  obtain rfl : g' = g := (hg.perm (hperm.map Value.whole)).unique hg'
  by_cases hfits : Word.Fits g'
  · rw [hok hfits, hok' hfits]
  · rw [herr hfits, herr' hfits]

/-- The built-in `gcd` as the default registry has it. -/
def gcdEntry (registry : Nat) : Builtin :=
  ⟨"gcd", 2, none, .gcd, registry⟩

section call

variable {registry : Nat} {args : List Value}

theorem callBuiltin_gcdEntry (registry : Nat) (hcount : 2 ≤ args.length) (m : Machine) :
    Eval.callBuiltin m (gcdEntry registry) args = (m.countCall, Eval.builtinOutcome (gcdEntry registry) args) :=
  Eval.callBuiltin_eq m _ (by simp [Builtin.takes, gcdEntry, hcount])

/-- An argument that is no integer is an error of types. -/
theorem builtinOutcome_gcdEntry_of_not (registry : Nat) (h : ∃ v ∈ args, v.isInteger = false) :
    ∃ err : EvalError, err.code = .type ∧ Eval.builtinOutcome (gcdEntry registry) args = .error err := by
  obtain ⟨kind, herr⟩ := gcdOf_eq_error h
  exact ⟨_, rfl, Eval.builtinOutcome_of_error (by simp) herr⟩

/-- Of integers the divisor is returned if it is a word. The one that is no word is an overflow. -/
theorem builtinOutcome_gcdEntry_of_integers (registry : Nat) (h : ∀ v ∈ args, v.isInteger = true) :
    ∃ g : Nat, GreatestDivisor (args.map Value.whole) g ∧ g ≤ 9223372036854775808 ∧
      (g < 9223372036854775808 →
        ∃ n : Int64, n.toInt = g ∧ Eval.builtinOutcome (gcdEntry registry) args = .ok (.int n)) ∧
      (g = 9223372036854775808 → Eval.builtinOutcome (gcdEntry registry) args = .error (.fault .overflow)) := by
  obtain ⟨g, hg, hok, herr⟩ := gcdOf_eq h
  have hword : Word.Fits g ↔ g < 9223372036854775808 := by
    unfold Word.Fits
    omega
  refine ⟨g, hg, hg.le_bound (fits_of_mem_map_whole args), fun hlt => ?_, fun heq => ?_⟩
  · exact ⟨_, Word.toInt_ofInt (hword.mpr hlt), Eval.builtinOutcome_of_ok (hok (hword.mpr hlt))⟩
  · exact Eval.builtinOutcome_of_error (by simp) (herr fun hfits => by have := hword.mp hfits; omega)

/-- The order of integers does not matter. -/
theorem builtinOutcome_gcdEntry_perm (registry : Nat) {args' : List Value} (hperm : args.Perm args')
    (h : ∀ v ∈ args, v.isInteger = true) :
    Eval.builtinOutcome (gcdEntry registry) args' = Eval.builtinOutcome (gcdEntry registry) args := by
  rw [Eval.builtinOutcome, Eval.builtinOutcome, gcdEntry, Operation.apply, Operation.apply, gcdOf_perm hperm h]

end call

/-- **The built-in `gcd` gives the greatest common divisor.** An argument that is no integer is an error of types, wherever it
stands. The divisor of integers is returned if it is a word. The only other divisor is the magnitude of the least word, and
then the call fails with an overflow. In whatever order the arguments stand, the value or the code of the error is the
same. -/
theorem gcd_exact (registry : Nat) (args : List Value) (hcount : 2 ≤ args.length) (m : Machine) :
    ∃ b, (Registry.defaults registry).get? "gcd" = some (.builtin b) ∧
      ((∃ v ∈ args, v.isInteger = false) →
        ∃ err : EvalError, err.code = .type ∧ Eval.callBuiltin m b args = (m.countCall, .error err)) ∧
      ((∀ v ∈ args, v.isInteger = true) →
        ∃ g : Nat, GreatestDivisor (args.map Value.whole) g ∧
          (g < 9223372036854775808 →
            ∃ n : Int64, n.toInt = g ∧ Eval.callBuiltin m b args = (m.countCall, .ok (.int n))) ∧
          ((∃ err : EvalError, err.code = .arithmetic ∧ err.message = "integer overflow" ∧
            Eval.callBuiltin m b args = (m.countCall, .error err)) ↔ g = 9223372036854775808) ∧
          (g = 9223372036854775808 ↔
            (∀ v ∈ args, v.whole = 0 ∨ v.whole = -9223372036854775808) ∧ ∃ v ∈ args, v.whole = -9223372036854775808)) ∧
      ∀ args', args.Perm args' →
        (Eval.callBuiltin m b args').2.mapError EvalError.code = (Eval.callBuiltin m b args).2.mapError EvalError.code ∧
        ((∀ v ∈ args, v.isInteger = true) → Eval.callBuiltin m b args' = Eval.callBuiltin m b args) := by
  have hcall := callBuiltin_gcdEntry registry hcount m
  refine ⟨gcdEntry registry, rfl, fun hnot => ?_, fun hargs => ?_, fun args' hperm => ?_⟩
  · obtain ⟨err, hcode, herr⟩ := builtinOutcome_gcdEntry_of_not registry hnot
    exact ⟨err, hcode, by rw [hcall, herr]⟩
  · obtain ⟨g, hg, hle, hok, herr⟩ := builtinOutcome_gcdEntry_of_integers registry hargs
    have hbound := hg.eq_bound_iff (fits_of_mem_map_whole args)
    rw [List.forall_mem_map, List.mem_map] at hbound
    refine ⟨g, hg, fun hlt => ?_, ⟨?_, fun heq => ?_⟩, hbound⟩
    · obtain ⟨n, hn, hvalue⟩ := hok hlt
      exact ⟨n, hn, by rw [hcall, hvalue]⟩
    · rintro ⟨err, -, -, hfails⟩
      rcases Nat.lt_or_eq_of_le hle with hlt | heq
      · obtain ⟨n, -, hvalue⟩ := hok hlt
        rw [hcall, hvalue] at hfails
        cases hfails
      · exact heq
    · exact ⟨.fault .overflow, rfl, rfl, by rw [hcall, herr heq]⟩
  · have hcount' : 2 ≤ args'.length := hperm.length_eq ▸ hcount
    have hcall' := callBuiltin_gcdEntry registry hcount' m
    by_cases hargs : ∀ v ∈ args, v.isInteger = true
    · rw [hcall, hcall', builtinOutcome_gcdEntry_perm registry hperm hargs]
      exact ⟨rfl, fun _ => rfl⟩
    · refine ⟨?_, fun hall => absurd hall hargs⟩
      obtain ⟨v, hv, hnot⟩ : ∃ v ∈ args, v.isInteger = false := by simpa using hargs
      obtain ⟨err, hcode, herr⟩ := builtinOutcome_gcdEntry_of_not registry ⟨v, hv, hnot⟩
      obtain ⟨err', hcode', herr'⟩ := builtinOutcome_gcdEntry_of_not registry ⟨v, hperm.mem_iff.mp hv, hnot⟩
      rw [hcall, hcall', herr, herr']
      exact congrArg Except.error (hcode'.trans hcode.symm)

/-- Zeros, a false value and the least word, in two orders: their divisor is the one that is no word. -/
theorem gcd_exact_least :
    2 ≤ [Value.int 0, .int Int64.minValue, .bool false].length ∧
    [Value.int 0, .int Int64.minValue, .bool false].Perm [.int Int64.minValue, .bool false, .int 0] ∧
    ∃ b, (Registry.defaults 0).get? "gcd" = some (.builtin b) ∧
      (∃ err : EvalError, err.code = .arithmetic ∧ err.message = "integer overflow" ∧
        (Eval.callBuiltin (.start .empty "" false) b [.int 0, .int Int64.minValue, .bool false]).2 = .error err) ∧
      (Eval.callBuiltin (.start .empty "" false) b [.int Int64.minValue, .bool false, .int 0]).2.mapError EvalError.code =
        .error .arithmetic := by
  have hargs : ∀ v ∈ [Value.int 0, .int Int64.minValue, .bool false], v.isInteger = true := by simp [Value.isInteger]
  have hperm : [Value.int 0, .int Int64.minValue, .bool false].Perm [.int Int64.minValue, .bool false, .int 0] :=
    (List.Perm.swap _ _ _).trans ((List.Perm.swap _ _ _).cons _)
  obtain ⟨b, hb, -, hinteger, horder⟩ :=
    gcd_exact 0 [.int 0, .int Int64.minValue, .bool false] (by decide) (.start .empty "" false)
  obtain ⟨g, -, -, hover, hbound⟩ := hinteger hargs
  have hleast : (∀ v ∈ [Value.int 0, .int Int64.minValue, .bool false], v.whole = 0 ∨ v.whole = -9223372036854775808) ∧
      ∃ v ∈ [Value.int 0, .int Int64.minValue, .bool false], v.whole = -9223372036854775808 := by
    simp [Value.whole]
  obtain ⟨err, hcode, hmessage, hcall⟩ := hover.mpr (hbound.mpr hleast)
  refine ⟨by decide, hperm, b, hb, ⟨err, hcode, hmessage, by rw [hcall]⟩, ?_⟩
  rw [(horder _ hperm).1, hcall]
  exact congrArg Except.error hcode

end FormLang
