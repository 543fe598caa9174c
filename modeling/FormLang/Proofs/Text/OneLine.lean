import Mathlib.Data.List.Basic
import FormLang.Program
import FormLang.Proofs.Text.Ascii
import FormLang.Proofs.Text.Lines
import FormLang.Text.Case

/-!
# Texts of one line

A text of one line holds no line feed. Such texts are found again as the lines of a text in which a line feed ends each of them
(`lines_join_printLine`). Joining them, replacing one inside another and changing their letters to upper case leave one line:
no letter becomes a line feed (`upperChar_eq_lineFeed`), nor do bytes that are put together to a character.
-/

namespace FormLang.Text

/-- The text holds no line feed. -/
def OneLine (text : String) : Prop :=
  '\n' ∉ text.toList

instance : DecidablePred OneLine :=
  fun text => inferInstanceAs (Decidable ('\n' ∉ text.toList))

theorem OneLine.append {s t : String} (hs : OneLine s) (ht : OneLine t) : OneLine (s ++ t) := by
  rw [OneLine, String.toList_append, List.mem_append, not_or]
  exact ⟨hs, ht⟩

theorem oneLine_intercalate {sep : String} (hsep : OneLine sep) {texts : List String} (h : ∀ t ∈ texts, OneLine t) :
    OneLine (sep.intercalate texts) := by
  induction texts with
  | nil => exact List.not_mem_nil
  | cons s rest ih =>
    rw [List.forall_mem_cons] at h
    cases rest with
    | nil =>
      rw [String.intercalate_singleton]
      exact h.1
    | cons t rest =>
      rw [String.intercalate_cons_cons]
      exact (h.1.append hsep).append (ih h.2)

/-- Texts of one line, each ended by a line feed, are found again, with an empty line after the last. -/
theorem lines_join_printLine {ls : List String} (h : ∀ l ∈ ls, OneLine l) :
    lines (String.join (ls.map printLine)) = ls ++ [""] := by
  induction ls with
  | nil => rfl
  | cons l rest ih =>
    rw [List.forall_mem_cons] at h
    rw [List.map_cons, String.join_cons, printLine, lines_append h.1, ih h.2, List.cons_append]

/-! ## Replaced parts -/

theorem oneLine_hold {text : String} (h : OneLine text) : OneLine (hold text) :=
  fun hmem => h (mem_of_bytes_eq (by decide) (bytes_hold text).symm hmem)

theorem oneLine_erase {text : String} (h : OneLine text) (c : Char) : OneLine (erase c text) := by
  refine oneLine_hold ?_
  rw [OneLine, String.toList_ofList]
  exact fun hmem => h (List.mem_of_mem_filter hmem)

theorem oneLine_replaceFirst {fill text : String} (hfill : OneLine fill) (htext : OneLine text) (word : String) :
    OneLine (replaceFirst word fill text) := by
  cases hinfix : hasInfix word text with
  | false =>
    rw [replaceFirst_of_not_hasInfix hinfix]
    exact htext
  | true =>
    obtain ⟨before, after, hfirst⟩ := exists_isFirst hinfix
    rw [hfirst.occurs, OneLine, String.toList_append, String.toList_append, List.mem_append, List.mem_append, not_or,
      not_or] at htext
    rw [replaceFirst_of_isFirst hfirst]
    exact oneLine_hold ((OneLine.append htext.1.1 hfill).append htext.2)

/-! ## Upper case -/

theorem ofNat_eq_lineFeed {n : Nat} (h : Char.ofNat n = '\n') : n = 10 := by
  have hten := congrArg Char.toNat h
  rw [toNat_ofNat] at hten
  split at hten
  · exact hten
  · cases hten

/-- The runs of letters end up above the line feed. -/
theorem lt_of_mem_upperRuns : ∀ r ∈ upperRuns, 10 < r.first + r.shift := by
  have hall : upperRuns.all (fun r => decide (10 < r.first + r.shift)) = true := by decide
  exact fun r hr => of_decide_eq_true (List.all_eq_true.mp hall r hr)

theorem shiftCase_upperRuns_eq_lineFeed {c : Char} (h : shiftCase upperRuns c = '\n') : c = '\n' := by
  unfold shiftCase at h
  split at h
  · rename_i r hfind
    have hholds := List.find?_some hfind
    have habove := lt_of_mem_upperRuns r (List.mem_of_find?_eq_some hfind)
    have hten := ofNat_eq_lineFeed h
    simp only [CaseRun.holds, Bool.and_eq_true, decide_eq_true_eq] at hholds
    omega
  · exact h

/-- No letter but a line feed becomes a line feed. -/
theorem upperChar_eq_lineFeed {c : Char} (h : upperChar c = '\n') : c = '\n' := by
  unfold upperChar at h
  split at h
  · rename_i hlower
    have hten := ofNat_eq_lineFeed h
    have hbound : 'a'.toNat ≤ c.toNat := by
      rw [Bool.and_eq_true, decide_eq_true_eq] at hlower
      exact hlower.1
    have ha : 'a'.toNat = 97 := rfl
    omega
  · split at h
    · exact h
    · exact shiftCase_upperRuns_eq_lineFeed h

/-- Bytes that are put together to a character are no line feed. -/
theorem ne_lineFeed_of_joined? {cs : List Char} {d : Char} {n : Nat} (h : joined? cs = some (d, n)) : d ≠ '\n' := by
  rintro rfl
  obtain ⟨hall, hbytes⟩ := encoding_of_joined? h
  have hten : 10 ∈ (cs.take (n + 1)).flatMap charBytes := by
    rw [hbytes]
    decide
  obtain ⟨x, hx, hbyte⟩ := List.mem_flatMap.mp hten
  have hlow : 0x10FF80 ≤ x.toNat := of_decide_eq_true (hall x hx)
  exact absurd (le_of_mem_charBytes (Nat.le_trans (by decide) hlow) hbyte) (by decide)

theorem lineFeed_notMem_holdChar {c : Char} (hc : c ≠ '\n') : '\n' ∉ holdChar c := by
  rw [holdChar]
  split
  · intro hmem
    obtain ⟨b, -, hb⟩ := List.mem_map.mp hmem
    have hten := ofNat_eq_lineFeed hb
    omega
  · simpa using Ne.symm hc

/-- Stand-ins are replaced without a line feed, if neither the rest nor what was done has one. -/
theorem lineFeed_notMem_settleFrom {skip : Nat} {done cs : List Char} (hdone : '\n' ∉ done) (hcs : '\n' ∉ cs) :
    '\n' ∉ settleFrom holdChar (fun _ => [replacement]) skip done cs := by
  induction cs generalizing skip done with
  | nil =>
    rw [settleFrom, List.mem_reverse]
    exact hdone
  | cons c cs ih =>
    rw [List.mem_cons, not_or] at hcs
    cases skip with
    | succ n => exact ih hdone hcs.2
    | zero =>
      rw [settleFrom]
      split
      · exact ih (by simpa using ⟨hcs.1, hdone⟩) hcs.2
      · split
        · rename_i d n hjoined
          refine ih ?_ hcs.2
          rw [List.mem_append, List.mem_reverse, not_or]
          exact ⟨lineFeed_notMem_holdChar (ne_lineFeed_of_joined? hjoined), hdone⟩
        · refine ih ?_ hcs.2
          rw [List.mem_append, not_or]
          exact ⟨by decide, hdone⟩

theorem oneLine_upper {text : String} (h : OneLine text) : OneLine (upper text) := by
  rw [OneLine, upper, repair, String.toList_ofList, String.toList_ofList]
  intro hmem
  obtain ⟨c, hc, hupper⟩ := List.mem_map.mp hmem
  rw [upperChar_eq_lineFeed hupper] at hc
  exact lineFeed_notMem_settleFrom List.not_mem_nil h hc

end FormLang.Text
