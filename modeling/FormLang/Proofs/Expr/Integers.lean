import Mathlib.Tactic.Ring
import FormLang.Proofs.Expr.Printed

/-!
# Integer literals

An integer literal is an optional sign and decimal digits, of any number and with any zeros in front. It stands for the sum of
its digits at their places (`Numeral.Writes`). Folding the digits from the left gives this sum (`natOfDigits_eq_placeValue`), so
that a word is an integer exactly if it is such a literal and its number lies within 64 bits (`integer?_eq_some_iff`). The text
of an integer is the literal without superfluous zeros, also for the least one, whose magnitude no word holds.
-/

namespace FormLang

namespace Numeral

open Decimal (isDigit digitValue natOfDigits)

/-! ## Places -/

/-- The sum of the digits at their places. -/
def placeValue : List Char → Nat
  | [] => 0
  | c :: cs => digitValue c * 10 ^ cs.length + placeValue cs

theorem foldl_digits_eq (n : Nat) (cs : List Char) :
    cs.foldl (fun n c => 10 * n + digitValue c) n = n * 10 ^ cs.length + placeValue cs := by
  induction cs generalizing n with
  | nil => simp [placeValue]
  | cons c cs ih =>
    rw [List.foldl_cons, ih, placeValue, List.length_cons, pow_succ]
    ring

theorem natOfDigits_eq_placeValue (cs : List Char) : natOfDigits cs = placeValue cs := by
  rw [natOfDigits, foldl_digits_eq, Nat.zero_mul, Nat.zero_add]

/-! ## Signs -/

/-- What may stand before the digits. -/
inductive SignMark where
  | none
  | plus
  | minus

namespace SignMark

def chars : SignMark → List Char
  | .none => []
  | .plus => ['+']
  | .minus => ['-']

def apply : SignMark → Nat → Int
  | .minus, n => -n
  | _, n => n

end SignMark

/-- The word is an optional sign and at least one digit, and this is the number that they write. -/
def Writes (word : List Char) (v : Int) : Prop :=
  ∃ (sign : SignMark) (ds : List Char), ds ≠ [] ∧ (∀ c ∈ ds, isDigit c = true) ∧ word = sign.chars ++ ds ∧
    v = sign.apply (placeValue ds)

theorem splitSign_of_isDigit {ds : List Char} (hds : ∀ c ∈ ds, isDigit c = true) : splitSign ds = (false, ds) := by
  unfold splitSign
  split
  · exact absurd (hds '+' List.mem_cons_self) (by decide)
  · exact absurd (hds '-' List.mem_cons_self) (by decide)
  · rfl

/-- A sign in front of digits is found, and its number is the one that is computed. -/
theorem splitSign_append (sign : SignMark) {ds : List Char} (hds : ∀ c ∈ ds, isDigit c = true) (n : Nat) :
    (splitSign (sign.chars ++ ds)).2 = ds ∧
    (if (splitSign (sign.chars ++ ds)).1 then -(n : Int) else n) = sign.apply n := by
  cases sign with
  | none =>
    rw [SignMark.chars, List.nil_append, splitSign_of_isDigit hds]
    exact ⟨rfl, rfl⟩
  | plus => exact ⟨rfl, rfl⟩
  | minus => exact ⟨rfl, rfl⟩

/-- Every word has a sign or none. -/
theorem exists_sign (word : List Char) : ∃ sign : SignMark, word = sign.chars ++ (splitSign word).2 ∧
    ∀ n : Nat, (if (splitSign word).1 then -(n : Int) else n) = sign.apply n := by
  unfold splitSign
  split
  · exact ⟨.plus, rfl, fun _ => rfl⟩
  · exact ⟨.minus, rfl, fun _ => rfl⟩
  · exact ⟨.none, rfl, fun _ => rfl⟩

/-! ## Integers -/

theorem integer?_eq (word : List Char) : integer? word =
    if (splitSign word).2.isEmpty || !(splitSign word).2.all isDigit then none
    else if fitsInt64 (if (splitSign word).1 then -(natOfDigits (splitSign word).2 : Int) else natOfDigits (splitSign word).2)
    then some (Int64.ofInt (if (splitSign word).1 then -(natOfDigits (splitSign word).2 : Int)
      else natOfDigits (splitSign word).2))
    else none := rfl

theorem fitsInt64_iff (v : Int) : fitsInt64 v = true ↔ -2 ^ 63 ≤ v ∧ v ≤ 2 ^ 63 - 1 := by
  have hpow : Int.pow 2 63 = 2 ^ 63 := rfl
  rw [fitsInt64, hpow, Bool.and_eq_true, decide_eq_true_eq, decide_eq_true_eq, Int.le_sub_one_iff]

/-- A literal is read as its number, if that lies within 64 bits. -/
theorem Writes.integer?_eq {word : List Char} {v : Int} (h : Writes word v) :
    integer? word = if fitsInt64 v then some (Int64.ofInt v) else none := by
  obtain ⟨sign, ds, hne, hds, rfl, rfl⟩ := h
  obtain ⟨hrest, hsigned⟩ := splitSign_append sign hds (natOfDigits ds)
  have hdigits : (ds.isEmpty || !ds.all isDigit) = false := by
    simp [hne, List.all_eq_true.mpr hds]
  rw [Numeral.integer?_eq, hrest, hdigits, hsigned, natOfDigits_eq_placeValue]
  rfl

/-- Nothing but a literal is read as an integer. -/
theorem writes_of_integer? {word : List Char} {n : Int64} (h : integer? word = some n) : Writes word n.toInt := by
  obtain ⟨sign, hword, hsigned⟩ := exists_sign word
  rw [integer?_eq, hsigned, natOfDigits_eq_placeValue, Option.ite_none_left_eq_some, Option.ite_none_right_eq_some,
    Option.some.injEq] at h
  obtain ⟨hdigits, hfits, rfl⟩ := h
  have hparts : (splitSign word).2 ≠ [] ∧ ∀ c ∈ (splitSign word).2, isDigit c = true := by simpa using hdigits
  obtain ⟨hlow, hhigh⟩ := (fitsInt64_iff _).mp hfits
  refine ⟨sign, _, hparts.1, hparts.2, hword, ?_⟩
  exact Int64.toInt_ofInt_of_le hlow (Int.lt_of_le_sub_one hhigh)

end Numeral

namespace Expr

theorem ofToken_eq_int_iff (t : Token) (n : Int64) : ofToken t = .int n ↔ Numeral.integer? t.toList = some n := by
  unfold ofToken
  cases Numeral.integer? t.toList with
  | some m => simp
  | none =>
    simp only [reduceCtorEq, iff_false]
    split <;> simp

/-- **Integer literals are read exactly.** A word that is an optional sign and decimal digits is an integer with the number
that it writes, if that number lies within 64 bits, and no integer otherwise. No other word is an integer. The text of each
integer is read as that integer. -/
theorem integer_literals_exact :
    (∀ (t : Token) (v : Int), Numeral.Writes t.toList v →
      (-2 ^ 63 ≤ v ∧ v ≤ 2 ^ 63 - 1 → ∃ n : Int64, n.toInt = v ∧ ofToken t = .int n) ∧
      (¬ (-2 ^ 63 ≤ v ∧ v ≤ 2 ^ 63 - 1) → ∀ n, ofToken t ≠ .int n)) ∧
    (∀ (t : Token) (n : Int64), ofToken t = .int n → Numeral.Writes t.toList n.toInt) ∧
    ∀ n : Int64, ofToken (Decimal.ofInt64 n) = .int n := by
  refine ⟨fun t v hwrites => ⟨fun hfits => ?_, fun hlarge n hn => ?_⟩, fun t n hn => ?_, fun n => (readsBack_int n).2⟩
  · refine ⟨Int64.ofInt v, Int64.toInt_ofInt_of_le hfits.1 (Int.lt_of_le_sub_one hfits.2), ?_⟩
    rw [ofToken_eq_int_iff, hwrites.integer?_eq, if_pos ((Numeral.fitsInt64_iff v).mpr hfits)]
  · rw [ofToken_eq_int_iff, hwrites.integer?_eq, if_neg (mt (Numeral.fitsInt64_iff v).mp hlarge)] at hn
    cases hn
  · exact Numeral.writes_of_integer? ((ofToken_eq_int_iff t n).mp hn)

/-- The number after the largest integer is an integer with a minus sign only, whatever zeros stand in front. -/
theorem integer_literals_exact_limit :
    (∃ n : Int64, n.toInt = -9223372036854775808 ∧ ofToken "-0009223372036854775808" = .int n) ∧
    ∀ n, ofToken "+9223372036854775808" ≠ .int n := by
  have hleast : Numeral.Writes "-0009223372036854775808".toList (-9223372036854775808) :=
    ⟨.minus, "0009223372036854775808".toList, by decide, List.all_eq_true.mp (by decide), by decide, by decide⟩
  have hbeyond : Numeral.Writes "+9223372036854775808".toList 9223372036854775808 :=
    ⟨.plus, "9223372036854775808".toList, by decide, List.all_eq_true.mp (by decide), by decide, by decide⟩
  exact ⟨(integer_literals_exact.1 _ _ hleast).1 (by decide), (integer_literals_exact.1 _ _ hbeyond).2 (by decide)⟩

end Expr

end FormLang
