import FormLang.Proofs.Binary64.Pattern
import FormLang.Proofs.Decimal.Shortest
import FormLang.Proofs.Expr.Integers

/-!
# Printed floats are read back

The text of a float is read as that float (`float?_floatText`). A finite one is written positionally or with an exponent. Both
are read as the digits and the exponent that they were made of (`denotes_positional`, `denotes_scientific`), and the decimal of
these is rounded to the float, because it is nearest to it. So different floats have different texts.
-/

namespace FormLang

namespace Numeral

open Decimal (isDigit digitValue natOfDigits)

/-! ## Digits -/

theorem isDigit_toDigits (n : Nat) : ∀ c ∈ Nat.toDigits 10 n, isDigit c = true :=
  fun c hc => (Decimal.isDigit_eq c).trans (Decimal.isDigit_of_mem_toDigits hc)

theorem isDigit_zeros (n : Nat) : ∀ c ∈ List.replicate n '0', isDigit c = true :=
  fun _ hc => List.eq_of_mem_replicate hc ▸ by decide

theorem natOfDigits_append (a b : List Char) : natOfDigits (a ++ b) = natOfDigits a * 10 ^ b.length + natOfDigits b := by
  rw [natOfDigits, List.foldl_append, foldl_digits_eq, ← natOfDigits_eq_placeValue b]
  rfl

theorem natOfDigits_zeros (n : Nat) : natOfDigits (List.replicate n '0') = 0 := by
  induction n with
  | zero => rfl
  | succ n ih => rw [List.replicate_succ', natOfDigits_append, ih]; rfl

theorem le_foldl_digits (n : Nat) (ds : List Char) : n ≤ ds.foldl (fun n c => 10 * n + digitValue c) n := by
  rw [foldl_digits_eq]
  exact Nat.le_add_right_of_le (Nat.le_mul_of_pos_right n (pow_pos (by decide) _))

/-- Below the bound the value of an exponent is that of its digits. -/
theorem exponentValue_eq {ds : List Char} (h : natOfDigits ds < 10000) : exponentValue ds = natOfDigits ds := by
  rw [natOfDigits] at h ⊢
  rw [exponentValue]
  generalize 0 = n at h ⊢
  induction ds generalizing n with
  | nil => rfl
  | cons c ds ih =>
    have hle := le_foldl_digits n (c :: ds)
    rw [List.foldl_cons, if_pos (by omega)]
    exact ih _ h

theorem exponent?_eq (ds : List Char) : exponent? ds =
    if (splitSign ds).2.isEmpty || !(splitSign ds).2.all isDigit then none
    else some (if (splitSign ds).1 then -(exponentValue (splitSign ds).2 : Int) else exponentValue (splitSign ds).2) := rfl

/-- A sign and the digits of an exponent, with zeros in front. -/
theorem exponent?_digits {lead : ℤ} (hlead : lead.natAbs < 10000) (n : Nat) :
    exponent? ((if lead < 0 then '-' else '+') :: (List.replicate n '0' ++ Nat.toDigits 10 lead.natAbs)) = some lead := by
  have hvalue : natOfDigits (List.replicate n '0' ++ Nat.toDigits 10 lead.natAbs) = lead.natAbs := by
    rw [natOfDigits_append, natOfDigits_zeros, Nat.zero_mul, Nat.zero_add, Decimal.natOfDigits_toDigits]
  have hall : (List.replicate n '0' ++ Nat.toDigits 10 lead.natAbs).all isDigit = true :=
    List.all_eq_true.mpr (List.forall_mem_append.mpr ⟨isDigit_zeros n, isDigit_toDigits _⟩)
  have hsplit : splitSign ((if lead < 0 then '-' else '+') :: (List.replicate n '0' ++ Nat.toDigits 10 lead.natAbs)) =
      (decide (lead < 0), List.replicate n '0' ++ Nat.toDigits 10 lead.natAbs) := by
    by_cases h : lead < 0
    · rw [if_pos h, decide_eq_true h]
      rfl
    · rw [if_neg h, decide_eq_false h]
      rfl
  rw [exponent?_eq, hsplit]
  simp only
  rw [hall, exponentValue_eq (by omega), hvalue, if_neg (by simp [Nat.toDigits_ne_nil])]
  simp only [decide_eq_true_eq, Option.some.injEq]
  omega

/-! ## Mantissas -/

section mantissa

variable {whole frac : List Char} (hwhole : ∀ c ∈ whole, isDigit c = true) (rest : List Char)

include hwhole

theorem takeWhile_digits (hrest : ∀ c ∈ rest.head?, isDigit c = false) :
    (whole ++ rest).takeWhile isDigit = whole ∧ (whole ++ rest).dropWhile isDigit = rest := by
  rw [List.takeWhile_append_of_pos hwhole, List.dropWhile_append_of_pos hwhole]
  cases rest with
  | nil => simp
  | cons c rest => simp [hrest c rfl]

theorem mantissa?_point (hne : whole ≠ []) (hfrac : ∀ c ∈ frac, isDigit c = true)
    (hrest : ∀ c ∈ rest.head?, isDigit c = false) :
    mantissa? isDigit (whole ++ '.' :: (frac ++ rest)) = some (whole ++ frac, frac.length, rest) := by
  obtain ⟨htake, hdrop⟩ := takeWhile_digits hwhole ('.' :: (frac ++ rest)) (by simp; decide)
  obtain ⟨htake', hdrop'⟩ := takeWhile_digits hfrac rest hrest
  rw [mantissa?, htake, hdrop]
  simp only [htake', hdrop']
  simp [hne]

theorem mantissa?_whole (hne : whole ≠ []) (hrest : ∀ c ∈ rest.head?, isDigit c = false ∧ c ≠ '.') :
    mantissa? isDigit (whole ++ rest) = some (whole, 0, rest) := by
  obtain ⟨htake, hdrop⟩ := takeWhile_digits hwhole rest fun c hc => (hrest c hc).1
  rw [mantissa?, htake, hdrop]
  split
  rename_i hparts
  split at hparts
  · exact absurd rfl (hrest '.' rfl).2
  · cases hparts
    simp [hne]

end mantissa

/-! ## Decimals -/

/-- The numeral is read as the double nearest to this number. -/
def Denotes (cs : List Char) (x : ℚ) : Prop :=
  ∃ (m : Nat) (e : ℤ), decimal? cs = some (Binary64.ofDecimal m e) ∧ (m : ℚ) * 10 ^ e = x

/-- Digits with a point between them. -/
theorem denotes_point {whole frac : List Char} (hwhole : ∀ c ∈ whole, isDigit c = true) (hne : whole ≠ [])
    (hfrac : ∀ c ∈ frac, isDigit c = true) :
    Denotes (whole ++ '.' :: frac) (natOfDigits (whole ++ frac) * 10 ^ (-frac.length : ℤ)) := by
  have hmantissa := mantissa?_point hwhole [] hne hfrac fun c hc => by cases hc
  rw [List.append_nil] at hmantissa
  refine ⟨natOfDigits (whole ++ frac), 0 - frac.length, ?_, by rw [zero_sub]⟩
  rw [decimal?, hmantissa]
  rfl

theorem denotes_of_exponent? {cs ds tail : List Char} {places : Nat} {e : ℤ}
    (h : mantissa? isDigit cs = some (ds, places, 'e' :: tail)) (he : exponent? tail = some e) :
    Denotes cs (natOfDigits ds * 10 ^ (e - places)) := by
  refine ⟨natOfDigits ds, e - places, ?_, rfl⟩
  have hmark : lowerAscii 'e' = 'e' := by decide
  rw [decimal?, h]
  simp only [Option.bind_eq_bind, Option.bind_some, hmark, if_true, he]
  rfl

section layouts

variable {digits : List Char} (hdigits : ∀ c ∈ digits, isDigit c = true) (hne : digits ≠ [])

include hdigits hne

theorem denotes_positional (exponent : ℤ) :
    Denotes (Decimal.positional true digits exponent) (natOfDigits digits * 10 ^ exponent) := by
  have hzero : ∀ c ∈ ['0'], isDigit c = true := isDigit_zeros 1
  rw [Decimal.positional]
  by_cases hwhole : 0 ≤ exponent
  · obtain ⟨k, rfl⟩ := Int.eq_ofNat_of_zero_le hwhole
    have hpadded : ∀ c ∈ digits ++ List.replicate k '0', isDigit c = true :=
      List.forall_mem_append.mpr ⟨hdigits, isDigit_zeros k⟩
    have hvalue : natOfDigits (digits ++ List.replicate k '0' ++ ['0']) = natOfDigits digits * 10 ^ k * 10 := by
      rw [natOfDigits_append, natOfDigits_append, natOfDigits_zeros, List.length_replicate]
      rfl
    have h := denotes_point hpadded (List.append_ne_nil_of_left_ne_nil hne _) hzero
    rw [hvalue, List.length_singleton, Nat.cast_one, zpow_neg_one, Nat.cast_mul, Nat.cast_ofNat,
      mul_inv_cancel_right₀ (by norm_num), Nat.cast_mul, Nat.cast_pow, Nat.cast_ofNat, ← zpow_natCast] at h
    rw [if_pos hwhole]
    exact h
  · obtain ⟨places, hplaces⟩ := Int.eq_ofNat_of_zero_le (by omega : 0 ≤ -exponent)
    obtain rfl : exponent = -places := by omega
    rw [if_neg hwhole]
    simp only [neg_neg, Int.toNat_natCast]
    split
    · rename_i hlt
      have htake : digits.take (digits.length - places) ≠ [] := by
        simp only [ne_eq, List.take_eq_nil_iff, hne, or_false]
        omega
      have h := denotes_point (fun c hc => hdigits c (List.mem_of_mem_take hc)) htake
        fun c (hc : c ∈ digits.drop (digits.length - places)) => hdigits c (List.mem_of_mem_drop hc)
      rw [List.take_append_drop, List.length_drop, Nat.sub_sub_self hlt.le] at h
      exact h
    · rename_i hge
      have hvalue : natOfDigits (['0'] ++ (List.replicate (places - digits.length) '0' ++ digits)) = natOfDigits digits := by
        rw [natOfDigits_append, natOfDigits_append, natOfDigits_zeros]
        change 0 * 10 ^ _ + (0 * 10 ^ _ + natOfDigits digits) = natOfDigits digits
        omega
      have h := denotes_point hzero (List.cons_ne_nil _ _)
        (List.forall_mem_append.mpr ⟨isDigit_zeros (places - digits.length), hdigits⟩)
      rw [hvalue, List.length_append, List.length_replicate, Nat.sub_add_cancel (Nat.not_lt.mp hge)] at h
      exact h

theorem denotes_scientific (width : Nat) {lead : ℤ} (hlead : lead.natAbs < 10000) :
    Denotes (Decimal.scientific width digits lead) (natOfDigits digits * 10 ^ (lead - digits.length + 1)) := by
  have hexponent := exponent?_digits hlead (width - (Nat.toDigits 10 lead.natAbs).length)
  have hstop : isDigit 'e' = false := by decide
  unfold Decimal.scientific
  simp only [List.append_assoc, List.cons_append]
  generalize List.replicate (width - (Nat.toDigits 10 lead.natAbs).length) '0' ++ Nat.toDigits 10 lead.natAbs = power at *
  cases digits with
  | nil => exact absurd rfl hne
  | cons d rest =>
    cases rest with
    | nil =>
      have h := denotes_of_exponent? (mantissa?_whole hdigits ('e' :: _) hne (by simp [hstop])) hexponent
      simpa using h
    | cons d' rest =>
      obtain ⟨hd, hrest⟩ := List.forall_mem_cons.mp hdigits
      have h := denotes_of_exponent? (mantissa?_point (List.forall_mem_singleton.mpr hd) ('e' :: _) (List.cons_ne_nil _ _) hrest
        (by simp [hstop])) hexponent
      have hplaces : lead - ((d :: d' :: rest).length : ℤ) + 1 = lead - ((d' :: rest).length : ℤ) := by
        simp only [List.length_cons]
        omega
      rw [hplaces]
      exact h

end layouts

theorem Denotes.decimal?_eq {cs : List Char} {x : ℚ} {bits : Nat} (h : Denotes cs x) (hx : Binary64.RoundsTo x bits)
    (hbits : bits ≠ 0) (hfinite : bits < Binary64.infinityBits) : decimal? cs = some bits := by
  obtain ⟨m, e, hread, rfl⟩ := h
  rw [hread, Binary64.ofDecimal_eq_of_roundsTo hx hbits hfinite]

/-! ## Characters of decimals -/

section numeric

open Decimal (isNumeric)

theorem lowerAscii_of_isNumeric {c : Char} (h : isNumeric c = true) : lowerAscii c = c := by
  simp only [isNumeric, Bool.or_eq_true, decide_eq_true_eq] at h
  rcases h with (((hdigit | rfl) | rfl) | rfl) | rfl
  · have hbounds : 48 ≤ c.toNat ∧ c.toNat ≤ 57 := by
      simpa [Char.isDigit, UInt32.le_iff_toNat_le] using hdigit
    have hletter : ¬ ('A' ≤ c && c ≤ 'Z') = true := by
      intro hc
      simp only [Bool.and_eq_true, decide_eq_true_eq, Char.le_def, UInt32.le_iff_toNat_le] at hc
      have hlow : 65 ≤ c.toNat := hc.1
      omega
    rw [lowerAscii, if_neg hletter]
  all_goals decide

variable {cs : List Char}

theorem separatesDigits_of_not_mem (isDigit : Char → Bool) {last : Last} (hlast : last ≠ .underscore) (h : '_' ∉ cs) :
    separatesDigits isDigit last cs = true := by
  induction cs generalizing last with
  | nil => exact decide_eq_true hlast
  | cons c cs ih =>
    obtain ⟨hc, hcs⟩ := List.ne_and_not_mem_of_not_mem_cons h
    rw [separatesDigits]
    split
    · exact ih (by decide) hcs
    · rw [if_neg (Ne.symm hc), ih (by decide) hcs, Bool.and_true]
      exact decide_eq_true hlast

theorem underscoresFit_of_not_mem (h : '_' ∉ cs) : underscoresFit cs = true := by
  unfold underscoresFit
  split
  · rename_i x rest
    have hrest : '_' ∉ rest := fun hmem => h (List.mem_cons_of_mem _ (List.mem_cons_of_mem _ hmem))
    split
    · exact separatesDigits_of_not_mem _ (by decide) hrest
    · split
      · exact separatesDigits_of_not_mem _ (by decide) hrest
      · exact separatesDigits_of_not_mem _ (by decide) h
  · exact separatesDigits_of_not_mem _ (by decide) h

variable (h : ∀ c ∈ cs, isNumeric c = true)

include h

theorem magnitude?_of_isNumeric : magnitude? cs = decimal? cs := by
  have hunderscore : '_' ∉ cs := fun hmem => absurd (h '_' hmem) (by decide)
  have hfilter : cs.filter (· ≠ '_') = cs :=
    List.filter_eq_self.mpr fun c hc => decide_eq_true fun heq => hunderscore (heq ▸ hc)
  rw [magnitude?, underscoresFit_of_not_mem hunderscore, hfilter]
  simp only [Bool.not_true, Bool.false_eq_true, if_false]
  split
  · rename_i x rest
    have hx : isNumeric x = true := h x (List.mem_cons_of_mem _ List.mem_cons_self)
    rw [if_neg]
    rw [lowerAscii_of_isNumeric hx]
    rintro rfl
    exact absurd hx (by decide)
  · rfl

theorem special?_of_isNumeric : special? cs = none := by
  have hname : ∀ (word : List Char) (name : String), (∀ c ∈ word, isNumeric c = true) → 'n' ∈ name.toList →
      String.ofList (word.map lowerAscii) ≠ name := by
    rintro word name hword hmem rfl
    rw [String.toList_ofList, List.mem_map] at hmem
    obtain ⟨c, hc, hlower⟩ := hmem
    rw [lowerAscii_of_isNumeric (hword c hc)] at hlower
    subst hlower
    exact absurd (hword 'n' hc) (by decide)
  have hsplit : ∀ c ∈ (splitSign cs).2, isNumeric c = true := by
    obtain ⟨sign, hcs, -⟩ := exists_sign cs
    exact fun c hc => h c (hcs ▸ List.mem_append_right _ hc)
  unfold special?
  simp only
  rw [if_neg (hname cs "nan" h (by decide)), if_neg]
  simp only [Bool.or_eq_true, decide_eq_true_eq, not_or]
  exact ⟨hname _ "inf" hsplit (by decide), hname _ "infinity" hsplit (by decide)⟩

end numeric

end Numeral

/-! ## Floats -/

namespace Decimal

open Numeral (Denotes magnitude?)

theorem Layout.denotes_finite {l : Layout} (hpoint : l.keepPoint = true) {bits : Nat} (hbits : bits ≠ 0)
    (hfinite : bits < Binary64.infinityBits) : Denotes (l.finite bits) (shortest bits).toRat := by
  have hdigits := Numeral.isDigit_toDigits (shortest bits).digits
  have hne : Nat.toDigits 10 (shortest bits).digits ≠ [] := Nat.toDigits_ne_nil
  obtain ⟨hlow, hhigh⟩ := (shortest_roundsTo hbits hfinite).lead_bounds hbits hfinite
  unfold finite
  rw [if_neg hbits]
  simp only
  split
  · have h := Numeral.denotes_positional hdigits hne (shortest bits).exponent
    rw [natOfDigits_toDigits] at h
    rw [hpoint]
    exact h
  · have h := Numeral.denotes_scientific hdigits hne l.width
      (by omega : ((shortest bits).exponent + (Nat.toDigits 10 (shortest bits).digits).length - 1).natAbs < 10000)
    rw [natOfDigits_toDigits, sub_add, sub_sub_sub_cancel_right, add_sub_cancel_right] at h
    exact h

theorem Layout.magnitude?_finite {l : Layout} (hpoint : l.keepPoint = true) {bits : Nat}
    (hfinite : bits < Binary64.infinityBits) : magnitude? (l.finite bits) = some bits := by
  rw [Numeral.magnitude?_of_isNumeric (l.isNumeric_finite bits)]
  by_cases hbits : bits = 0
  · rw [finite, if_pos hbits, hpoint, hbits]
    rfl
  · exact (denotes_finite hpoint hbits hfinite).decimal?_eq (shortest_roundsTo hbits hfinite) hbits hfinite

end Decimal

namespace Numeral

open Decimal (isDigit)

/-- A minus sign or nothing. -/
def minusIf (negative : Bool) : List Char :=
  if negative then ['-'] else []

theorem splitSign_minusIf (negative : Bool) {cs : List Char} (h : Decimal.StartsWithDigit cs) :
    splitSign (minusIf negative ++ cs) = (negative, cs) := by
  cases negative with
  | true => rfl
  | false => exact splitSign_of_startsWithDigit h

theorem toList_floatText {f : Float} (h : Binary64.magnitude f < Binary64.infinityBits) :
    (floatText f).toList = minusIf (Binary64.isNegative f) ++ floatLayout.finite (Binary64.magnitude f) := by
  have hnan : ¬ Binary64.isNaN f = true := by simp [Binary64.isNaN, h.le]
  have hinf : ¬ Binary64.isInfinite f = true := by simp [Binary64.isInfinite, h.ne]
  rw [floatText, Decimal.Layout.write, if_neg hnan, if_neg hinf, String.toList_append, String.toList_ofList, minusIf]
  split <;> rfl

theorem float?_finite {f : Float} (h : Binary64.magnitude f < Binary64.infinityBits) :
    float? (floatText f).toList = some f := by
  have hnumeric : ∀ c ∈ minusIf (Binary64.isNegative f) ++ floatLayout.finite (Binary64.magnitude f),
      Decimal.isNumeric c = true := by
    refine List.forall_mem_append.mpr ⟨?_, floatLayout.isNumeric_finite _⟩
    rw [minusIf]
    split
    · exact List.forall_mem_singleton.mpr (by decide)
    · exact List.forall_mem_nil _
  have hsplit := splitSign_minusIf (Binary64.isNegative f) (floatLayout.startsWithDigit_finite (Binary64.magnitude f))
  have hmagnitude : magnitude? (floatLayout.finite (Binary64.magnitude f)) = some (Binary64.magnitude f) :=
    Decimal.Layout.magnitude?_finite rfl h
  rw [toList_floatText h, float?, special?_of_isNumeric hnumeric, hsplit]
  simp only [hmagnitude, if_pos h, Binary64.ofMagnitude_magnitude]

theorem float?_floatText (f : Float) : float? (floatText f).toList = some f := by
  rcases Nat.lt_trichotomy (Binary64.magnitude f) Binary64.infinityBits with hfinite | hinf | hnan
  · exact float?_finite hfinite
  · have hf := Binary64.ofMagnitude_magnitude f
    rw [hinf] at hf
    rw [← hf]
    cases Binary64.isNegative f with
    | true => decide +kernel
    | false => decide +kernel
  · rw [Binary64.eq_notANumber (decide_eq_true hnan)]
    decide +kernel

theorem mark_mem_positional (digits : List Char) (exponent : ℤ) : '.' ∈ Decimal.positional true digits exponent := by
  rw [Decimal.positional]
  by_cases hwhole : 0 ≤ exponent
  · simp [hwhole]
  · rw [if_neg hwhole]
    simp only
    split <;> simp

theorem mark_mem_finite {l : Decimal.Layout} (hpoint : l.keepPoint = true) (bits : Nat) :
    ∃ c ∈ l.finite bits, isDigit c = false := by
  unfold Decimal.Layout.finite
  rw [hpoint]
  split
  · exact ⟨'.', mark_mem_positional _ _, by decide⟩
  · simp only
    split
    · exact ⟨'.', mark_mem_positional _ _, by decide⟩
    · exact ⟨'e', by simp [Decimal.scientific], by decide⟩

theorem integer?_floatText (f : Float) : integer? (floatText f).toList = none := by
  rcases Nat.lt_trichotomy (Binary64.magnitude f) Binary64.infinityBits with hfinite | hinf | hnan
  · have hsplit := splitSign_minusIf (Binary64.isNegative f) (floatLayout.startsWithDigit_finite (Binary64.magnitude f))
    obtain ⟨c, hc, hdigit⟩ := mark_mem_finite rfl (Binary64.magnitude f) (l := floatLayout)
    have hall : (floatLayout.finite (Binary64.magnitude f)).all isDigit = false :=
      List.all_eq_false.mpr ⟨c, hc, by simp [hdigit]⟩
    rw [toList_floatText hfinite, integer?_eq, hsplit]
    simp [hall]
  · have hf := Binary64.ofMagnitude_magnitude f
    rw [hinf] at hf
    rw [← hf]
    cases Binary64.isNegative f with
    | true => decide +kernel
    | false => decide +kernel
  · rw [Binary64.eq_notANumber (decide_eq_true hnan)]
    decide +kernel

end Numeral

/-- **A printed float is read back**, and as a float. -/
theorem Expr.ofToken_floatText (f : Float) : ofToken (floatText f) = .float f := by
  unfold ofToken
  simp only [Numeral.integer?_floatText, Numeral.float?_floatText]

end FormLang
