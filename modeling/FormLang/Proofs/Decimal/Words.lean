import FormLang.Expr.Printer
import FormLang.Proofs.Token.Text

/-!
# Numbers as words

The text of a number is a single word, whatever its layout. An integer is read back from its text (`integer?_ofInt64`), because
a run of digits is not a sign and writes the number that it was made of.
-/

namespace FormLang

/-! ## Digits -/

theorem Token.role_digit {c : Char} (hc : c.isDigit = true) : role c = .part := by
  have hbounds : 48 ≤ c.toNat ∧ c.toNat ≤ 57 := by
    simpa [Char.isDigit, UInt32.le_iff_toNat_le] using hc
  have hparen : ¬ (c = '(' || c = ')') = true := by
    simp only [Bool.or_eq_true, decide_eq_true_eq]
    rintro (rfl | rfl) <;> simp at hbounds
  have hblank : ¬ Text.isBlank c = true := by
    intro h
    simp only [Text.isBlank, Text.blankRanges, List.any_cons, List.any_nil, Bool.or_eq_true, Bool.and_eq_true,
      decide_eq_true_eq, Bool.false_eq_true, or_false] at h
    omega
  rw [role, if_neg hparen, if_neg hblank]

namespace Decimal

theorem isDigit_eq (c : Char) : isDigit c = c.isDigit := by
  simp [isDigit, Char.isDigit, Char.le_def]

theorem isDigit_of_mem_toDigits {n : Nat} {c : Char} (hc : c ∈ Nat.toDigits 10 n) : c.isDigit = true :=
  Nat.isDigit_of_mem_toDigits (by decide) (by decide) hc

theorem natOfDigits_toDigits (n : Nat) : natOfDigits (Nat.toDigits 10 n) = n :=
  Nat.ofDigitChars_ten_toDigits

theorem role_of_mem_toDigits {n : Nat} : ∀ c ∈ Nat.toDigits 10 n, Token.role c = .part :=
  fun _ hc => Token.role_digit (isDigit_of_mem_toDigits hc)

/-- The first character is a digit. -/
def StartsWithDigit (cs : List Char) : Prop :=
  ∃ c rest, cs = c :: rest ∧ c.isDigit = true

theorem startsWithDigit_toDigits (n : Nat) : StartsWithDigit (Nat.toDigits 10 n) := by
  obtain ⟨c, rest, h⟩ := List.exists_cons_of_ne_nil (Nat.toDigits_ne_nil (b := 10) (n := n))
  exact ⟨c, rest, h, isDigit_of_mem_toDigits (h ▸ List.mem_cons_self)⟩

/-! ## Integers -/

theorem toList_ofInt_ofNat (n : Nat) : (ofInt (.ofNat n)).toList = Nat.toDigits 10 n :=
  String.toList_ofList

theorem toList_ofInt_negSucc (n : Nat) : (ofInt (.negSucc n)).toList = '-' :: Nat.toDigits 10 (n + 1) := by
  simp [ofInt, ofNat]

theorem isWord_ofInt (v : Int) : Token.IsWord (ofInt v) := by
  cases v with
  | ofNat n =>
    refine ⟨by simp [ofInt, ofNat, Nat.toDigits_ne_nil], ?_⟩
    rw [toList_ofInt_ofNat]
    exact role_of_mem_toDigits
  | negSucc n =>
    refine ⟨by simp [ofInt], ?_⟩
    rw [toList_ofInt_negSucc]
    exact List.forall_mem_cons.mpr ⟨by decide, role_of_mem_toDigits⟩

end Decimal

namespace Numeral

open Decimal (natOfDigits)

theorem splitSign_of_startsWithDigit {cs : List Char} (h : Decimal.StartsWithDigit cs) : splitSign cs = (false, cs) := by
  obtain ⟨c, rest, rfl, hc⟩ := h
  unfold splitSign
  split
  · rename_i hplus
    cases hplus
    exact absurd hc (by decide)
  · rename_i hminus
    cases hminus
    exact absurd hc (by decide)
  · rfl

theorem not_empty_and_all_digits (n : Nat) :
    ((Nat.toDigits 10 n).isEmpty || !(Nat.toDigits 10 n).all Decimal.isDigit) = false := by
  have hall : (Nat.toDigits 10 n).all Decimal.isDigit = true :=
    List.all_eq_true.mpr fun c hc => by rw [Decimal.isDigit_eq, Decimal.isDigit_of_mem_toDigits hc]
  simp [hall, Nat.toDigits_ne_nil]

/-- The text of an integer writes that integer. -/
theorem integer?_ofInt (v : Int) :
    integer? (Decimal.ofInt v).toList = if fitsInt64 v then some (Int64.ofInt v) else none := by
  cases v with
  | ofNat n =>
    rw [Decimal.toList_ofInt_ofNat, integer?, splitSign_of_startsWithDigit (Decimal.startsWithDigit_toDigits n)]
    simp only [not_empty_and_all_digits, Decimal.natOfDigits_toDigits, Bool.false_eq_true, if_false]
    rw [Int.ofNat_eq_natCast]
  | negSucc n =>
    have hsplit : splitSign ('-' :: Nat.toDigits 10 (n + 1)) = (true, Nat.toDigits 10 (n + 1)) := rfl
    have hvalue : -((n + 1 : Nat) : Int) = .negSucc n := rfl
    rw [Decimal.toList_ofInt_negSucc, integer?, hsplit]
    simp only [not_empty_and_all_digits, Decimal.natOfDigits_toDigits, Bool.false_eq_true, if_false, if_true, hvalue]

theorem fitsInt64_toInt (n : Int64) : fitsInt64 n.toInt = true := by
  have hpow : Int.pow 2 63 = 2 ^ 63 := rfl
  rw [fitsInt64, hpow, Bool.and_eq_true, decide_eq_true_eq, decide_eq_true_eq]
  exact ⟨n.le_toInt, n.toInt_lt⟩

theorem integer?_ofInt64 (n : Int64) : integer? (Decimal.ofInt64 n).toList = some n := by
  rw [Decimal.ofInt64, integer?_ofInt, if_pos (fitsInt64_toInt n), Int64.ofInt_toInt]

end Numeral

/-! ## Floats -/

namespace Decimal

/-- The characters of a number that is finite: digits, a point, the mark of an exponent and signs. -/
def isNumeric (c : Char) : Bool :=
  c.isDigit || c = '.' || c = 'e' || c = '+' || c = '-'

theorem isNumeric_of_isDigit {c : Char} (h : c.isDigit = true) : isNumeric c = true := by
  simp [isNumeric, h]

theorem isNumeric_of_mem_toDigits {n : Nat} : ∀ c ∈ Nat.toDigits 10 n, isNumeric c = true :=
  fun _ hc => isNumeric_of_isDigit (isDigit_of_mem_toDigits hc)

theorem isNumeric_of_mem_zeros {n : Nat} : ∀ c ∈ List.replicate n '0', isNumeric c = true :=
  fun _ hc => List.eq_of_mem_replicate hc ▸ by decide

theorem role_of_isNumeric {c : Char} (h : isNumeric c = true) : Token.role c = .part := by
  simp only [isNumeric, Bool.or_eq_true, decide_eq_true_eq] at h
  rcases h with (((hdigit | rfl) | rfl) | rfl) | rfl
  · exact Token.role_digit hdigit
  all_goals decide

variable {digits : List Char}

theorem isNumeric_positional (hdigits : ∀ c ∈ digits, isNumeric c = true) (keepPoint : Bool) (exponent : Int) :
    ∀ c ∈ positional keepPoint digits exponent, isNumeric c = true := by
  have htail : ∀ c ∈ (if keepPoint then ['.', '0'] else []), isNumeric c = true := by
    cases keepPoint
    · exact List.forall_mem_nil _
    · exact List.all_eq_true.mp (by decide)
  rw [positional]
  by_cases hwhole : 0 ≤ exponent
  · rw [if_pos hwhole]
    exact List.forall_mem_append.mpr ⟨List.forall_mem_append.mpr ⟨hdigits, isNumeric_of_mem_zeros⟩, htail⟩
  · rw [if_neg hwhole]
    simp only
    split
    · refine List.forall_mem_append.mpr ⟨fun c hc => hdigits c (List.mem_of_mem_take hc), ?_⟩
      exact List.forall_mem_cons.mpr ⟨by decide, fun c hc => hdigits c (List.mem_of_mem_drop hc)⟩
    · refine List.forall_mem_append.mpr ⟨?_, hdigits⟩
      exact List.forall_mem_cons.mpr ⟨by decide, List.forall_mem_cons.mpr ⟨by decide, isNumeric_of_mem_zeros⟩⟩

theorem isNumeric_scientific (hdigits : ∀ c ∈ digits, isNumeric c = true) (width : Nat) (lead : Int) :
    ∀ c ∈ scientific width digits lead, isNumeric c = true := by
  have hsign : isNumeric (if lead < 0 then '-' else '+') = true := by split <;> decide
  unfold scientific
  refine List.forall_mem_append.mpr ⟨List.forall_mem_append.mpr ⟨?_, ?_⟩, isNumeric_of_mem_toDigits⟩
  · split
    · simp only [List.forall_mem_cons] at hdigits ⊢
      exact ⟨hdigits.1, by decide, hdigits.2⟩
    · exact hdigits
  · exact List.forall_mem_cons.mpr ⟨by decide, List.forall_mem_cons.mpr ⟨hsign, isNumeric_of_mem_zeros⟩⟩

namespace StartsWithDigit

variable (h : StartsWithDigit digits)

include h

theorem ne_nil : digits ≠ [] := by
  obtain ⟨c, rest, rfl, -⟩ := h
  exact List.cons_ne_nil c rest

theorem append (cs : List Char) : StartsWithDigit (digits ++ cs) := by
  obtain ⟨c, rest, rfl, hc⟩ := h
  exact ⟨c, rest ++ cs, rfl, hc⟩

theorem take {n : Nat} (hn : n ≠ 0) : StartsWithDigit (digits.take n) := by
  obtain ⟨c, rest, rfl, hc⟩ := h
  obtain ⟨k, rfl⟩ := Nat.exists_eq_succ_of_ne_zero hn
  exact ⟨c, rest.take k, rfl, hc⟩

theorem positional (keepPoint : Bool) (exponent : Int) : StartsWithDigit (positional keepPoint digits exponent) := by
  rw [Decimal.positional]
  by_cases hwhole : 0 ≤ exponent
  · rw [if_pos hwhole]
    exact (h.append _).append _
  · rw [if_neg hwhole]
    simp only
    split
    · exact (h.take (by omega)).append _
    · exact ⟨'0', _, rfl, by decide⟩

theorem scientific (width : Nat) (lead : Int) : StartsWithDigit (scientific width digits lead) := by
  obtain ⟨c, rest, rfl, hc⟩ := h
  cases rest with
  | nil => exact ⟨c, _, rfl, hc⟩
  | cons d rest => exact ⟨c, _, rfl, hc⟩

end StartsWithDigit

theorem Layout.startsWithDigit_finite (l : Layout) (bits : Nat) : StartsWithDigit (l.finite bits) := by
  unfold finite
  split
  · exact StartsWithDigit.positional ⟨'0', [], rfl, by decide⟩ _ _
  · simp only
    split
    · exact (startsWithDigit_toDigits _).positional _ _
    · exact (startsWithDigit_toDigits _).scientific _ _

theorem Layout.isNumeric_finite (l : Layout) (bits : Nat) : ∀ c ∈ l.finite bits, isNumeric c = true := by
  unfold finite
  split
  · exact isNumeric_positional (List.forall_mem_singleton.mpr (by decide)) _ _
  · simp only
    split
    · exact isNumeric_positional isNumeric_of_mem_toDigits _ _
    · exact isNumeric_scientific isNumeric_of_mem_toDigits _ _

/-- A layout whose names for what is not finite are words writes every double as a word. -/
theorem Layout.isWord_write {l : Layout} (hnan : Token.IsWord l.nan) (hinf : Token.IsWord l.infinity) (f : Float) :
    Token.IsWord (l.write f) := by
  have hminus : Token.IsWord "-" := Token.isWord_of_all (by decide) (by decide)
  have hsign : ∀ text : String, Token.IsWord text →
      Token.IsWord ((if Binary64.isNegative f then "-" else "") ++ text) := by
    intro text htext
    split
    · refine ⟨by simp, ?_⟩
      rw [String.toList_append]
      exact List.forall_mem_append.mpr ⟨hminus.2, htext.2⟩
    · rwa [String.empty_append]
  unfold write
  split
  · exact hnan
  · simp only
    split
    · exact hsign _ hinf
    · refine hsign _ ⟨by simp [(l.startsWithDigit_finite _).ne_nil], ?_⟩
      rw [String.toList_ofList]
      exact fun c hc => role_of_isNumeric (l.isNumeric_finite _ c hc)

end Decimal

theorem isWord_floatText (f : Float) : Token.IsWord (floatText f) :=
  Decimal.Layout.isWord_write (Token.isWord_of_all (by decide) (by decide)) (Token.isWord_of_all (by decide) (by decide)) f

end FormLang
