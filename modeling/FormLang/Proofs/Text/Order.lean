import FormLang.Text.Sort

/-!
# The order of texts

Texts are ordered by their bytes, and no two different texts are equal in this order (`precedes_of_not`). Sorting puts the same
texts in this order, strictly ascending where none occurs twice (`ascending_sort`).
-/

namespace FormLang.Text

variable {a b c : String}

theorem precedes_iff : precedes a b = true ↔ bytes a < bytes b ∨ bytes a = bytes b ∧ a < b := by
  simp [precedes]

theorem precedes_trans (hab : precedes a b = true) (hbc : precedes b c = true) : precedes a c = true := by
  rw [precedes_iff] at *
  rcases hab with hab | ⟨hab, hab'⟩ <;> rcases hbc with hbc | ⟨hbc, hbc'⟩
  · exact .inl (List.lt_trans hab hbc)
  · exact .inl (hbc ▸ hab)
  · exact .inl (hab ▸ hbc)
  · exact .inr ⟨hab.trans hbc, String.lt_trans hab' hbc'⟩

theorem ne_of_precedes (h : precedes a b = true) : a ≠ b := by
  rintro rfl
  rcases precedes_iff.mp h with hlt | ⟨-, hlt⟩
  · exact List.lt_irrefl _ hlt
  · exact String.lt_irrefl _ hlt

theorem precedes_of_not (hne : a ≠ b) (h : precedes a b = false) : precedes b a = true := by
  rw [← Bool.not_eq_true, precedes_iff, not_or, List.not_lt] at h
  rw [precedes_iff]
  by_cases hbytes : bytes a = bytes b
  · have hle : ¬ a < b := fun hlt => h.2 ⟨hbytes, hlt⟩
    exact .inr ⟨hbytes.symm, Std.lt_of_le_of_ne (String.not_lt.mp hle) (Ne.symm hne)⟩
  · exact .inl (Std.lt_of_le_of_ne h.1 (Ne.symm hbytes))

theorem precedes_asymm (h : precedes a b = true) : precedes b a = false := by
  cases hba : precedes b a with
  | false => rfl
  | true => exact absurd rfl (ne_of_precedes (precedes_trans h hba))

/-- What does not precede a text does not precede any that follows it. -/
theorem not_precedes_trans (hba : precedes b a = false) (hcb : precedes c b = false) : precedes c a = false := by
  cases hca : precedes c a with
  | false => rfl
  | true =>
    by_cases hne : c = b
    · rw [← hne, hca] at hba
      cases hba
    · rw [precedes_trans (precedes_of_not hne hcb) hca] at hba
      cases hba

/-! ## Sorting -/

/-- Each text precedes all that follow it. -/
def Ascending (texts : List String) : Prop :=
  texts.Pairwise fun a b => precedes a b = true

theorem mem_sort {text : String} {texts : List String} : text ∈ sort texts ↔ text ∈ texts :=
  List.mem_mergeSort

theorem ascending_sort {texts : List String} (h : texts.Nodup) : Ascending (sort texts) := by
  have htrans : ∀ a b c : String, (!precedes b a) = true → (!precedes c b) = true → (!precedes c a) = true := by
    intro a b c hab hbc
    rw [Bool.not_eq_true'] at *
    exact not_precedes_trans hab hbc
  have htotal : ∀ a b : String, (!precedes b a || !precedes a b) = true := by
    intro a b
    cases hab : precedes a b with
    | false => simp
    | true => rw [precedes_asymm hab]; rfl
  have hsorted := List.pairwise_mergeSort htrans htotal texts
  have hnodup : (sort texts).Nodup := (List.mergeSort_perm texts _).nodup_iff.mpr h
  refine (hsorted.and hnodup).imp fun {a b} hab => ?_
  exact precedes_of_not (Ne.symm hab.2) (by simpa using hab.1)

end FormLang.Text
