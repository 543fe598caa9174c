import FormLang.Proofs.Text.Lines
import FormLang.Proofs.Token.Text
import FormLang.Statement

/-!
# Gathering lines

Lines are gathered as long as a parenthesis is open. So a block of lines is gathered as one statement if every line but the
last ends inside a form and the last one ends outside of all (`Closes`). A list of such blocks is gathered as the list of
their texts (`text_ofLines_blocks`).
-/

namespace FormLang

/-! ## Lines and depth -/

/-- The line holds tokens and takes the depth from `a` to `b`, never below zero. -/
def Moves (a : Nat) (line : String) (b : Nat) : Prop :=
  Token.ofText line ≠ [] ∧ (Token.ofText line).foldl Token.Depth.next ⟨a, 0⟩ = ⟨b, 0⟩

/-- The lines take the depth from the one number to the other, and each of them ends at the floor or above. -/
inductive Above (floor : Nat) : Nat → List String → Nat → Prop
  | nil (a : Nat) : Above floor a [] a
  | cons {a b c : Nat} {line : String} {rest : List String} :
    Moves a line b → floor ≤ b → Above floor b rest c → Above floor a (line :: rest) c

/-- The last line ends at depth `k`, the lines before it deeper. -/
def Closes (k a : Nat) (ls : List String) : Prop :=
  ∃ init last b, ls = init ++ [last] ∧ Above (k + 1) a init b ∧ Moves b last k

namespace Above

variable {floor a b c : Nat} {ls ls' : List String}

theorem mono {floor' : Nat} (hle : floor' ≤ floor) (h : Above floor a ls b) : Above floor' a ls b := by
  induction h with
  | nil a => exact .nil a
  | cons hmoves hfloor _ ih => exact .cons hmoves (Nat.le_trans hle hfloor) ih

theorem append (h : Above floor a ls b) (h' : Above floor b ls' c) : Above floor a (ls ++ ls') c := by
  induction h with
  | nil a => exact h'
  | cons hmoves hfloor _ ih => exact .cons hmoves hfloor (ih h')

theorem of_append (h : Above floor a (ls ++ ls') c) : ∃ b, Above floor a ls b ∧ Above floor b ls' c := by
  induction ls generalizing a with
  | nil => exact ⟨a, .nil a, h⟩
  | cons line ls ih =>
    cases h with
    | cons hmoves hfloor hrest =>
      obtain ⟨b, hls, hls'⟩ := ih hrest
      exact ⟨b, .cons hmoves hfloor hls, hls'⟩

end Above

theorem Closes.above {k a : Nat} {ls : List String} (h : Closes k a ls) : Above k a ls k := by
  obtain ⟨init, last, b, rfl, hinit, hlast⟩ := h
  exact (hinit.mono (Nat.le_succ k)).append (.cons hlast (Nat.le_refl k) (.nil k))

/-! ## Feeding lines -/

theorem Token.ofText_of_isBlankText {line : String} (h : Text.isBlankText line = true) : ofText line = [] := by
  have hgaps : ∀ c ∈ line.toList, role c = .gap := by
    intro c hc
    have hblank : Text.isBlank c = true := List.all_eq_true.mp h c hc
    have hparen : ¬ (c = '(' || c = ')') = true := by
      simp only [Bool.or_eq_true, decide_eq_true_eq]
      rintro (rfl | rfl) <;> exact absurd hblank (by decide)
    rw [role, if_neg hparen, if_pos hblank]
  have hcut := Text.cut_gaps_append hgaps ""
  rwa [String.append_empty] at hcut

theorem Token.isBlankText_of_ofText_eq_nil {text : String} (h : ofText text = []) : Text.isBlankText text = true := by
  refine List.all_eq_true.mpr fun c hc => ?_
  have hgap := (Text.role_of_cutFrom_eq_nil h).2 c hc
  unfold role at hgap
  split at hgap
  · cases hgap
  · split at hgap
    · assumption
    · cases hgap

namespace Gatherer

variable {g : Gatherer} {a b : Nat} {line : String}

theorem depth_push (hdepth : g.depth = ⟨a, 0⟩) (hmoves : Moves a line b) : (g.push line).depth = ⟨b, 0⟩ := by
  rw [push, hdepth]
  exact hmoves.2

theorem feed_of_moves (hmoves : Moves a line b) :
    g.feed line = if (g.push line).isOpen then (none, g.push line) else (some (g.push line).text, (g.push line).reset) := by
  have hblank : Text.isBlankText line = false := by
    rw [← Bool.not_eq_true]
    exact fun h => hmoves.1 (Token.ofText_of_isBlankText h)
  rw [feed, hblank, Bool.and_false, if_neg Bool.false_ne_true]

theorem feed_of_moves_pos (hdepth : g.depth = ⟨a, 0⟩) (hmoves : Moves a line b) (hb : 0 < b) :
    g.feed line = (none, g.push line) := by
  rw [feed_of_moves hmoves, if_pos]
  rw [isOpen, depth_push hdepth hmoves]
  simpa using hb

theorem feed_of_moves_zero (hdepth : g.depth = ⟨a, 0⟩) (hmoves : Moves a line 0) :
    g.feed line = (some (g.push line).text, (g.push line).reset) := by
  rw [feed_of_moves hmoves, if_neg]
  rw [isOpen, depth_push hdepth hmoves]
  simp

end Gatherer

namespace Statement

/-- Lines that end inside a form are kept. -/
theorem ofLines_above {ls : List String} {a b : Nat} (h : Above 1 a ls b) {g : Gatherer} (hdepth : g.depth = ⟨a, 0⟩)
    (rest : List String) :
    ∃ g', ofLines g (ls ++ rest) = ofLines g' rest ∧ g'.pending = ls.reverse ++ g.pending ∧ g'.depth = ⟨b, 0⟩ := by
  induction h generalizing g with
  | nil a => exact ⟨g, rfl, rfl, hdepth⟩
  | @cons a b c line ls hmoves hfloor _ ih =>
    obtain ⟨g', hlines, hpending, hdepth'⟩ := ih (Gatherer.depth_push hdepth hmoves)
    refine ⟨g', ?_, ?_, hdepth'⟩
    · rw [List.cons_append, ofLines, Gatherer.feed_of_moves_pos hdepth hmoves hfloor]
      exact hlines
    · rw [hpending, Gatherer.push, List.reverse_cons, List.append_assoc, List.singleton_append]

/-- A block of lines that closes is handed over as one statement, and nothing is pending after it. -/
theorem ofLines_closes {ls : List String} (h : Closes 0 0 ls) {g : Gatherer} (hpending : g.pending = [])
    (hdepth : g.depth = .start) (rest : List String) :
    ∃ n g', ofLines g (ls ++ rest) = ⟨n, Text.unlines ls⟩ :: ofLines g' rest ∧ g'.pending = [] ∧ g'.depth = .start := by
  obtain ⟨init, last, b, rfl, hinit, hlast⟩ := h
  obtain ⟨g', hlines, hkept, hdepth'⟩ := ofLines_above hinit hdepth ([last] ++ rest)
  refine ⟨(g'.push last).start, (g'.push last).reset, ?_, rfl, rfl⟩
  have htext : (g'.push last).text = Text.unlines (init ++ [last]) := by
    rw [Gatherer.text, Gatherer.push, hkept, hpending, List.append_nil, List.reverse_cons, List.reverse_reverse]
  rw [List.append_assoc, hlines, List.singleton_append, ofLines, Gatherer.feed_of_moves_zero hdepth' hlast, htext]
  rfl

/-- Blocks of lines that close are the statements. -/
theorem text_ofLines_blocks {blocks : List (List String)} (hblocks : ∀ ls ∈ blocks, Closes 0 0 ls) {g : Gatherer}
    (hpending : g.pending = []) (hdepth : g.depth = .start) :
    (ofLines g blocks.flatten).map (·.text) = blocks.map Text.unlines := by
  induction blocks generalizing g with
  | nil =>
    rw [List.flatten_nil, ofLines, Gatherer.flush, Gatherer.isPending, hpending]
    rfl
  | cons ls blocks ih =>
    rw [List.forall_mem_cons] at hblocks
    obtain ⟨n, g', hlines, hpending', hdepth'⟩ := ofLines_closes hblocks.1 hpending hdepth blocks.flatten
    rw [List.flatten_cons, hlines, List.map_cons, ih hblocks.2 hpending' hdepth', List.map_cons]

end Statement

end FormLang
