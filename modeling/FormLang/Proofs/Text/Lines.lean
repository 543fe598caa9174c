import FormLang.Text.Lines

/-!
# Lines and line feeds

Lines that hold no line feed are found again after they were joined (`lines_unlines`), and a text is what its lines are
when they are joined (`unlines_lines`). A line feed cuts the lines of a text in two (`lines_append_lineFeed`).
-/

namespace FormLang.Text

/-- Characters before the next line feed belong to the current line. -/
theorem linesFrom_append {cs : List Char} (hcs : '\n' ∉ cs) (line rest : List Char) :
    linesFrom line (cs ++ rest) = linesFrom (cs.reverse ++ line) rest := by
  induction cs generalizing line with
  | nil => rfl
  | cons c cs ih =>
    rw [List.mem_cons, not_or] at hcs
    rw [List.cons_append, linesFrom, if_neg (Ne.symm hcs.1), ih hcs.2, List.reverse_cons, List.append_assoc,
      List.singleton_append]

theorem lines_of_notMem {l : String} (hl : '\n' ∉ l.toList) : lines l = [l] := by
  have hfrom := linesFrom_append hl [] []
  rw [List.append_nil, List.append_nil] at hfrom
  rw [lines, hfrom, linesFrom, List.reverse_reverse, String.ofList_toList]

theorem lines_append {l : String} (hl : '\n' ∉ l.toList) (rest : String) :
    lines (l ++ "\n" ++ rest) = l :: lines rest := by
  have hchars : (l ++ "\n" ++ rest).toList = l.toList ++ '\n' :: rest.toList := by simp
  rw [lines, hchars, linesFrom_append hl, linesFrom, if_pos rfl, List.append_nil, List.reverse_reverse,
    String.ofList_toList, lines]

theorem lines_unlines {ls : List String} (hne : ls ≠ []) (hls : ∀ l ∈ ls, '\n' ∉ l.toList) : lines (unlines ls) = ls := by
  induction ls with
  | nil => exact absurd rfl hne
  | cons l rest ih =>
    rw [List.forall_mem_cons] at hls
    cases rest with
    | nil =>
      rw [unlines, String.intercalate_singleton]
      exact lines_of_notMem hls.1
    | cons l' rest =>
      rw [unlines, String.intercalate_cons_cons, lines_append hls.1]
      exact congrArg (l :: ·) (ih (List.cons_ne_nil _ _) hls.2)

/-! ## Lines of any text -/

/-- A line feed ends the line before it, and what follows has lines of its own. -/
theorem linesFrom_append_lineFeed (line cs rest : List Char) :
    linesFrom line (cs ++ '\n' :: rest) = linesFrom line cs ++ linesFrom [] rest := by
  induction cs generalizing line with
  | nil => simp [linesFrom]
  | cons c cs ih =>
    rw [List.cons_append, linesFrom, linesFrom]
    by_cases hc : c = '\n'
    · rw [if_pos hc, if_pos hc, ih, List.cons_append]
    · rw [if_neg hc, if_neg hc, ih]

theorem lines_append_lineFeed (s t : String) : lines (s ++ "\n" ++ t) = lines s ++ lines t := by
  have hchars : (s ++ "\n" ++ t).toList = s.toList ++ '\n' :: t.toList := by simp
  rw [lines, hchars, linesFrom_append_lineFeed, lines, lines]

theorem linesFrom_ne_nil (line cs : List Char) : linesFrom line cs ≠ [] := by
  induction cs generalizing line with
  | nil => exact List.cons_ne_nil _ _
  | cons c cs ih =>
    rw [linesFrom]
    split
    · exact List.cons_ne_nil _ _
    · exact ih _

theorem length_linesFrom (line cs : List Char) : (linesFrom line cs).length = cs.count '\n' + 1 := by
  induction cs generalizing line with
  | nil => rfl
  | cons c cs ih =>
    rw [linesFrom]
    by_cases hc : c = '\n'
    · rw [if_pos hc, List.length_cons, ih, hc, List.count_cons_self]
    · rw [if_neg hc, ih, List.count_cons_of_ne hc]

/-- A text has one line more than line feeds. -/
theorem length_lines (text : String) : (lines text).length = text.toList.count '\n' + 1 :=
  length_linesFrom [] text.toList

theorem toList_unlines_linesFrom (line cs : List Char) :
    (unlines (linesFrom line cs)).toList = line.reverse ++ cs := by
  induction cs generalizing line with
  | nil => simp [linesFrom, unlines]
  | cons c cs ih =>
    rw [linesFrom]
    by_cases hc : c = '\n'
    · obtain ⟨l, ls, hls⟩ := List.exists_cons_of_ne_nil (linesFrom_ne_nil [] cs)
      have hrest := ih []
      rw [if_pos hc, hls, unlines, String.intercalate_cons_cons]
      rw [hls, unlines] at hrest
      simp [hrest, hc]
    · rw [if_neg hc, ih]
      simp

/-- Joining the lines of a text gives the text back. -/
theorem unlines_lines (text : String) : unlines (lines text) = text := by
  have hchars := toList_unlines_linesFrom [] text.toList
  rw [List.reverse_nil, List.nil_append] at hchars
  exact String.toList_inj.mp hchars

/-! ## Final characters -/

theorem eq_empty_or_append_singleton (text : String) :
    text = "" ∨ ∃ init last, text = init ++ String.singleton last := by
  rcases List.eq_nil_or_concat text.toList with hnil | ⟨init, last, hchars⟩
  · left
    simpa using hnil
  · right
    refine ⟨String.ofList init, last, String.toList_inj.mp ?_⟩
    rw [hchars, String.toList_append, String.toList_ofList, String.toList_singleton, List.concat_eq_append]

theorem dropFinal_append_singleton (c last : Char) (init : String) :
    dropFinal c (init ++ String.singleton last) = if last = c then init else init ++ String.singleton last := by
  have hchars : (init ++ String.singleton last).toList.reverse = last :: init.toList.reverse := by simp
  rw [dropFinal, hchars]
  simp

theorem dropFinal_cases (c : Char) (text : String) :
    dropFinal c text = text ∨ text = dropFinal c text ++ String.singleton c := by
  obtain rfl | ⟨init, last, rfl⟩ := eq_empty_or_append_singleton text
  · exact .inl rfl
  · rw [dropFinal_append_singleton]
    by_cases hlast : last = c
    · right
      rw [if_pos hlast, hlast]
    · left
      rw [if_neg hlast]

/-- What is dropped at the end of two texts put together is dropped from the second, unless that is empty. -/
theorem dropFinal_append_of_ne (c : Char) (s : String) {t : String} (ht : t ≠ "") :
    dropFinal c (s ++ t) = s ++ dropFinal c t := by
  obtain rfl | ⟨init, last, rfl⟩ := eq_empty_or_append_singleton t
  · exact absurd rfl ht
  · rw [← String.append_assoc, dropFinal_append_singleton, dropFinal_append_singleton]
    by_cases hlast : last = c
    · rw [if_pos hlast, if_pos hlast]
    · rw [if_neg hlast, if_neg hlast, String.append_assoc]

theorem dropFinal_append (c : Char) (text : String) : dropFinal c (text ++ String.singleton c) = text := by
  rw [dropFinal_append_singleton, if_pos rfl]

theorem dropFinal_of_notMem {c : Char} {text : String} (hc : c ∉ text.toList) : dropFinal c text = text := by
  unfold dropFinal
  split
  · rfl
  · rename_i d rest hchars
    have hd : d ∈ text.toList := by
      rw [← List.mem_reverse, hchars]
      exact List.mem_cons_self
    have hne : d ≠ c := fun h => hc (h ▸ hd)
    rw [if_neg hne]

/-- A final line feed only adds an empty line. -/
theorem exists_lines_eq_append (text : String) : ∃ rest, lines text = lines (dropFinal '\n' text) ++ rest := by
  rcases dropFinal_cases '\n' text with heq | heq
  · exact ⟨[], by rw [heq, List.append_nil]⟩
  · refine ⟨lines "", ?_⟩
    rw [← lines_append_lineFeed, String.append_empty]
    exact congrArg lines heq

end FormLang.Text
