import FormLang.Expr.Basic

/-!
# Characters of numerals

The words that write numbers are made of digits, letters, signs, points and underscores (`marked_of_integer?`,
`marked_of_float?`). So a token with any other character is a symbol, whatever else it holds (`ofToken_of_mem`).
-/

namespace FormLang

namespace Numeral

open Decimal (isDigit)

/-- A digit, a letter, a sign, a point or an underscore. -/
def isMark (c : Char) : Bool :=
  isDigit c || ('a' ≤ lowerAscii c && lowerAscii c ≤ 'z') || c = '+' || c = '-' || c = '.' || c = '_'

/-- Every character may stand in a numeral. -/
def Marked (cs : List Char) : Prop :=
  ∀ c ∈ cs, isMark c = true

theorem isMark_of_isDigit {c : Char} (h : isDigit c = true) : isMark c = true := by
  simp [isMark, h]

theorem isMark_of_letter {c : Char} (h : ('a' ≤ lowerAscii c && lowerAscii c ≤ 'z') = true) : isMark c = true := by
  rw [isMark, h]
  simp

theorem isMark_of_lowerAscii {c l : Char} (hl : ('a' ≤ l && l ≤ 'z') = true) (h : lowerAscii c = l) : isMark c = true :=
  isMark_of_letter (h ▸ hl)

theorem isMark_of_isHexDigit {c : Char} (h : isHexDigit c = true) : isMark c = true := by
  rw [isHexDigit, Bool.or_eq_true] at h
  rcases h with h | h
  · exact isMark_of_isDigit h
  · rw [Bool.and_eq_true, decide_eq_true_eq, decide_eq_true_eq] at h
    refine isMark_of_letter ?_
    rw [Bool.and_eq_true, decide_eq_true_eq, decide_eq_true_eq]
    exact ⟨h.1, Char.le_trans h.2 (by decide)⟩

theorem marked_cons {c : Char} {cs : List Char} (hc : isMark c = true) (hcs : Marked cs) : Marked (c :: cs) :=
  List.forall_mem_cons.mpr ⟨hc, hcs⟩

theorem marked_of_all_isDigit {cs : List Char} (h : cs.all isDigit = true) : Marked cs :=
  fun c hc => isMark_of_isDigit (List.all_eq_true.mp h c hc)

theorem marked_of_splitSign {cs : List Char} (h : Marked (splitSign cs).2) : Marked cs := by
  unfold splitSign at h
  split at h
  · exact marked_cons (by decide) h
  · exact marked_cons (by decide) h
  · exact h

/-! ## Integers -/

theorem marked_of_integer? {word : List Char} {n : Int64} (h : integer? word = some n) : Marked word := by
  refine marked_of_splitSign (marked_of_all_isDigit ?_)
  unfold integer? at h
  simp only at h
  split at h
  · cases h
  · rename_i hdigits
    simp_all

/-! ## Floats -/

theorem marked_of_exponent? {cs : List Char} {e : Int} (h : exponent? cs = some e) : Marked cs := by
  refine marked_of_splitSign (marked_of_all_isDigit ?_)
  unfold exponent? at h
  simp only at h
  split at h
  · cases h
  · rename_i hdigits
    simp_all

/-- An exponent stands behind its mark, a letter in either case. -/
theorem marked_of_exponentMark {l c : Char} (hl : ('a' ≤ l && l ≤ 'z') = true) {tail : List Char} {next : Int → Option Nat}
    {bits : Nat} (h : (if lowerAscii c = l then (exponent? tail).bind next else none) = some bits) : Marked (c :: tail) := by
  rw [Option.ite_none_right_eq_some, Option.bind_eq_some_iff] at h
  obtain ⟨hc, e, hexponent, -⟩ := h
  exact marked_cons (isMark_of_lowerAscii hl hc) (marked_of_exponent? hexponent)

/-- Around the point stand digits. -/
theorem marked_of_mantissa? {isD : Char → Bool} (hmark : ∀ c, isD c = true → isMark c = true) {cs ds rest : List Char}
    {places : Nat} (h : mantissa? isD cs = some (ds, places, rest)) (hrest : Marked rest) : Marked cs := by
  have htake : ∀ l : List Char, Marked (l.takeWhile isD) := by
    intro l c hc
    exact hmark c (List.all_eq_true.mp List.all_takeWhile c hc)
  have hjoin : ∀ l : List Char, Marked (l.dropWhile isD) → Marked l := by
    intro l hdrop
    rw [← List.takeWhile_append_dropWhile (p := isD) (l := l)]
    exact List.forall_mem_append.mpr ⟨htake l, hdrop⟩
  apply hjoin
  unfold mantissa? at h
  simp only at h
  split at h
  · rename_i tail hdrop
    simp only [Option.ite_none_left_eq_some, Option.some.injEq, Prod.mk.injEq] at h
    rw [hdrop]
    exact marked_cons (by decide) (hjoin tail (h.2.2.2 ▸ hrest))
  · simp only [Option.ite_none_left_eq_some, Option.some.injEq, Prod.mk.injEq] at h
    exact h.2.2.2 ▸ hrest

theorem marked_of_decimal? {cs : List Char} {bits : Nat} (h : decimal? cs = some bits) : Marked cs := by
  simp only [decimal?, Option.bind_eq_bind, Option.bind_eq_some_iff] at h
  obtain ⟨⟨ds, places, rest⟩, hmantissa, h⟩ := h
  refine marked_of_mantissa? (fun c => isMark_of_isDigit) hmantissa ?_
  cases rest with
  | nil => exact fun c hc => absurd hc List.not_mem_nil
  | cons c tail => exact marked_of_exponentMark (by decide) h

theorem marked_of_hexadecimal? {cs : List Char} {bits : Nat} (h : hexadecimal? cs = some bits) : Marked cs := by
  simp only [hexadecimal?, Option.bind_eq_bind, Option.bind_eq_some_iff] at h
  obtain ⟨⟨ds, places, rest⟩, hmantissa, h⟩ := h
  refine marked_of_mantissa? (fun c => isMark_of_isHexDigit) hmantissa ?_
  cases rest with
  | nil => exact fun c hc => absurd hc List.not_mem_nil
  | cons c tail => exact marked_of_exponentMark (by decide) h

theorem marked_of_magnitude? {cs : List Char} {bits : Nat} (h : magnitude? cs = some bits) : Marked cs := by
  have hplain : Marked (cs.filter (· ≠ '_')) := by
    unfold magnitude? at h
    split at h
    · cases h
    · split at h
      · rename_i x rest heq
        rw [heq]
        split at h
        · rename_i hx
          exact marked_cons (by decide) (marked_cons (isMark_of_lowerAscii (by decide) hx) (marked_of_hexadecimal? h))
        · exact marked_of_decimal? h
      · exact marked_of_decimal? h
  intro c hc
  by_cases hscore : c = '_'
  · rw [hscore]
    decide
  · exact hplain c (List.mem_filter.mpr ⟨hc, by simpa using hscore⟩)

theorem marked_of_name {cs : List Char} {name : String} (hname : name.toList.all (fun l => 'a' ≤ l && l ≤ 'z') = true)
    (h : String.ofList (cs.map lowerAscii) = name) : Marked cs := by
  intro c hc
  have hmem : lowerAscii c ∈ name.toList := by
    rw [← h, String.toList_ofList]
    exact List.mem_map_of_mem hc
  exact isMark_of_letter (List.all_eq_true.mp hname _ hmem)

theorem marked_of_special? {word : List Char} {f : Float} (h : special? word = some f) : Marked word := by
  unfold special? at h
  simp only at h
  split at h
  · rename_i hnan
    exact marked_of_name (by decide) hnan
  · split at h
    · rename_i hinf
      rw [Bool.or_eq_true, decide_eq_true_eq, decide_eq_true_eq] at hinf
      refine marked_of_splitSign ?_
      rcases hinf with hinf | hinf
      · exact marked_of_name (by decide) hinf
      · exact marked_of_name (by decide) hinf
    · cases h

theorem marked_of_float? {word : List Char} {f : Float} (h : float? word = some f) : Marked word := by
  unfold float? at h
  split at h
  · rename_i hspecial
    exact marked_of_special? hspecial
  · simp only at h
    split at h
    · rename_i hmagnitude
      exact marked_of_splitSign (marked_of_magnitude? hmagnitude)
    · cases h

end Numeral

/-- A token with a character that no numeral has is a symbol. -/
theorem Expr.ofToken_of_mem {t : Token} {c : Char} (hc : c ∈ t.toList) (hmark : Numeral.isMark c = false) :
    ofToken t = .symbol t := by
  have hnot : ¬ Numeral.Marked t.toList := fun h => Bool.false_ne_true (hmark.symm.trans (h c hc))
  unfold ofToken
  split
  · rename_i hint
    exact absurd (Numeral.marked_of_integer? hint) hnot
  · split
    · rename_i hfloat
      exact absurd (Numeral.marked_of_float? hfloat) hnot
    · rfl

end FormLang
