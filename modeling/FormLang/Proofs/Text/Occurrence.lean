import FormLang.Text.Replace

/-!
# First occurrences

A word is replaced where it occurs first (`IsFirst`). A text has at most one such place, and it has one exactly if the word
occurs at all, so what stands there after the replacement is settled by the text (`replaceFirst_of_isFirst`).
-/

namespace FormLang.Text

/-! ## At the ends of a text -/

theorem stripStart?_eq_some_iff (word cs rest : List Char) : stripStart? word cs = some rest ↔ cs = word ++ rest := by
  induction word generalizing cs with
  | nil => simp [stripStart?]
  | cons w word ih =>
    cases cs with
    | nil => simp [stripStart?]
    | cons c cs =>
      rw [stripStart?, List.cons_append, List.cons.injEq]
      by_cases hc : w = c
      · simp [hc, ih]
      · simp [hc, Ne.symm hc]

theorem ne_append_of_stripStart? {word cs : List Char} (h : stripStart? word cs = none) (rest : List Char) :
    cs ≠ word ++ rest := by
  intro heq
  rw [← stripStart?_eq_some_iff, h] at heq
  cases heq

theorem isSome_stripStart? (word cs : List Char) : (stripStart? word cs).isSome = true ↔ word <+: cs := by
  simp only [Option.isSome_iff_exists, stripStart?_eq_some_iff]
  exact ⟨fun ⟨rest, h⟩ => ⟨rest, h.symm⟩, fun ⟨rest, h⟩ => ⟨rest, h.symm⟩⟩

theorem startsWith_iff (word text : String) : startsWith word text = true ↔ word.toList <+: text.toList :=
  isSome_stripStart? word.toList text.toList

theorem endsWith_iff (word text : String) : endsWith word text = true ↔ word.toList <:+ text.toList :=
  (isSome_stripStart? word.toList.reverse text.toList.reverse).trans List.reverse_prefix

/-! ## The first occurrence -/

section split

variable {word : List Char}

theorem splitFirstFrom_eq (before cs : List Char) :
    splitFirstFrom word before cs = (splitFirst? word cs).map fun p => (before.reverse ++ p.1, p.2) := by
  induction cs generalizing before with
  | nil => cases word <;> simp [splitFirst?, splitFirstFrom]
  | cons c cs ih =>
    rw [splitFirst?, splitFirstFrom, splitFirstFrom]
    cases stripStart? word (c :: cs) with
    | some rest => simp
    | none => simp [ih (c :: before), ih [c], Function.comp_def]

/-- What is found is an occurrence, and there is none before it. -/
theorem splitFirst?_eq_some {text before after : List Char} (h : splitFirst? word text = some (before, after)) :
    text = before ++ word ++ after ∧ ∀ b a, text = b ++ word ++ a → before.length ≤ b.length := by
  induction text generalizing before with
  | nil =>
    cases word with
    | nil => simp_all [splitFirst?, splitFirstFrom]
    | cons w word => cases h
  | cons c cs ih =>
    rw [splitFirst?, splitFirstFrom] at h
    cases hstrip : stripStart? word (c :: cs) with
    | some rest =>
      rw [hstrip] at h
      cases h
      rw [stripStart?_eq_some_iff] at hstrip
      exact ⟨hstrip, fun b a _ => Nat.zero_le b.length⟩
    | none =>
      rw [hstrip] at h
      simp only [splitFirstFrom_eq, Option.map_eq_some_iff] at h
      obtain ⟨⟨mid, rest⟩, hmid, hpair⟩ := h
      cases hpair
      obtain ⟨hcs, hfirst⟩ := ih hmid
      refine ⟨by simp [hcs], fun b a hocc => ?_⟩
      cases b with
      | nil => exact absurd hocc (ne_append_of_stripStart? hstrip a)
      | cons d b =>
        have hlater := hfirst b a (List.cons.inj hocc).2
        simpa using hlater

theorem splitFirst?_eq_none {text : List Char} (h : splitFirst? word text = none) (b a : List Char) :
    text ≠ b ++ word ++ a := by
  intro hocc
  induction text generalizing b with
  | nil =>
    have hword : word = [] := by simp_all
    rw [hword] at h
    cases h
  | cons c cs ih =>
    rw [splitFirst?, splitFirstFrom] at h
    cases hstrip : stripStart? word (c :: cs) with
    | some rest =>
      rw [hstrip] at h
      cases h
    | none =>
      rw [hstrip] at h
      simp only [splitFirstFrom_eq, Option.map_eq_none_iff] at h
      cases b with
      | nil => exact absurd hocc (ne_append_of_stripStart? hstrip a)
      | cons d b => exact ih h b (List.cons.inj hocc).2

end split

/-- The word stands in the text between `before` and `after`, and nowhere earlier. -/
structure IsFirst (word text before after : String) : Prop where
  occurs : text = before ++ word ++ after
  first : ∀ b a, text = b ++ word ++ a → before.length ≤ b.length

variable {word text : String}

theorem toList_eq_append {b a : String} : text = b ++ word ++ a ↔ text.toList = b.toList ++ word.toList ++ a.toList := by
  rw [← String.toList_inj, String.toList_append, String.toList_append]

theorem IsFirst.unique {b a b' a' : String} (h : IsFirst word text b a) (h' : IsFirst word text b' a') :
    b = b' ∧ a = a' := by
  have hlength : b.toList.length = b'.toList.length := by
    rw [String.length_toList, String.length_toList]
    exact Nat.le_antisymm (h.first b' a' h'.occurs) (h'.first b a h.occurs)
  have hsame := (toList_eq_append.mp h.occurs).symm.trans (toList_eq_append.mp h'.occurs)
  rw [List.append_assoc, List.append_assoc] at hsame
  obtain ⟨hbefore, hrest⟩ := List.append_inj hsame hlength
  exact ⟨String.toList_inj.mp hbefore, String.toList_inj.mp (List.append_cancel_left hrest)⟩

theorem isFirst_of_splitFirst? {before after : List Char}
    (h : splitFirst? word.toList text.toList = some (before, after)) :
    IsFirst word text (String.ofList before) (String.ofList after) := by
  obtain ⟨hocc, hfirst⟩ := splitFirst?_eq_some h
  refine ⟨?_, fun b a heq => ?_⟩
  · simpa [toList_eq_append] using hocc
  · have hle := hfirst b.toList a.toList (toList_eq_append.mp heq)
    rw [String.length_toList] at hle
    rwa [String.length_ofList]

theorem hasInfix_iff : hasInfix word text = true ↔ ∃ b a, text = b ++ word ++ a := by
  rw [hasInfix]
  cases hsplit : splitFirst? word.toList text.toList with
  | none =>
    simp only [Option.isSome_none, Bool.false_eq_true, false_iff]
    rintro ⟨b, a, heq⟩
    exact splitFirst?_eq_none hsplit b.toList a.toList (toList_eq_append.mp heq)
  | some p => exact ⟨fun _ => ⟨_, _, (isFirst_of_splitFirst? hsplit).occurs⟩, fun _ => rfl⟩

theorem exists_isFirst (h : hasInfix word text = true) : ∃ b a, IsFirst word text b a := by
  rw [hasInfix] at h
  obtain ⟨p, hsplit⟩ := Option.isSome_iff_exists.mp h
  exact ⟨_, _, isFirst_of_splitFirst? hsplit⟩

theorem replaceFirst_of_isFirst {before after : String} (h : IsFirst word text before after) (fill : String) :
    replaceFirst word fill text = hold (before ++ fill ++ after) := by
  rw [replaceFirst]
  cases hsplit : splitFirst? word.toList text.toList with
  | none => exact absurd (toList_eq_append.mp h.occurs) (splitFirst?_eq_none hsplit before.toList after.toList)
  | some p =>
    obtain ⟨hbefore, hafter⟩ := (isFirst_of_splitFirst? hsplit).unique h
    rw [← hbefore, ← hafter]
    refine congrArg hold ?_
    simp [← String.toList_inj]

theorem replaceFirst_of_not_hasInfix (h : hasInfix word text = false) (fill : String) :
    replaceFirst word fill text = text := by
  have hsplit : splitFirst? word.toList text.toList = none := by simpa [hasInfix] using h
  rw [replaceFirst, hsplit]

end FormLang.Text
