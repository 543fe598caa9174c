import FormLang.Proofs.Decimal.Words
import FormLang.Proofs.Text.OneLine

/-!
# Documents on one line

The compact text of a document holds no line feed, as its numbers hold none (`oneLine_compact`): whatever its texts hold is
quoted, and no quoted character is a line feed (`lineFeed_notMem_quoteChar`).
-/

namespace FormLang.Json

/-! ## Quoted texts -/

theorem lineFeed_ne_hexDigit : ∀ n, n < 16 → '\n' ≠ hexDigit n := by decide

theorem lineFeed_notMem_escape (n : Nat) : '\n' ∉ escape n := by
  have hdigit : ∀ k, '\n' ≠ hexDigit (k % 16) := fun k => lineFeed_ne_hexDigit _ (Nat.mod_lt k (by decide))
  simp [escape, hdigit]

theorem lineFeed_notMem_quoteChar (c : Char) : '\n' ∉ quoteChar c := by
  unfold quoteChar
  split
  · decide
  split
  · decide
  split
  · decide
  rename_i hlineFeed
  split
  · decide
  split
  · decide
  split
  · decide
  split
  · decide
  split
  · exact lineFeed_notMem_escape c.toNat
  · simpa using Ne.symm hlineFeed

theorem oneLine_quote (s : String) : Text.OneLine (quote s) := by
  rw [Text.OneLine, quote, String.toList_ofList]
  simp [lineFeed_notMem_quoteChar]

/-! ## Documents -/

mutual

/-- The literals of the numbers in a document. -/
def numbers : Json → List String
  | .num literal => [literal]
  | .arr items => itemNumbers items
  | .obj fields => fieldNumbers fields
  | .null | .bool _ | .str _ => []

def itemNumbers : List Json → List String
  | [] => []
  | j :: rest => j.numbers ++ itemNumbers rest

def fieldNumbers : List (String × Json) → List String
  | [] => []
  | (_, j) :: rest => j.numbers ++ fieldNumbers rest

end

mutual

/-- A document is written on one line, as its numbers are. -/
theorem oneLine_compact : ∀ j : Json, (∀ l ∈ j.numbers, Text.OneLine l) → Text.OneLine j.compact
  | .null, _ => by decide
  | .bool b, _ => by cases b <;> decide
  | .num literal, h => h literal List.mem_cons_self
  | .str s, _ => oneLine_quote s
  | .arr items, h => by
    rw [compact]
    have hitems := Text.oneLine_intercalate (by decide : Text.OneLine ",") (oneLine_compactItems items h)
    exact (Text.OneLine.append (by decide) hitems).append (by decide)
  | .obj fields, h => by
    rw [compact]
    have hfields := Text.oneLine_intercalate (by decide : Text.OneLine ",") (oneLine_compactFields fields h)
    exact (Text.OneLine.append (by decide) hfields).append (by decide)

theorem oneLine_compactItems : ∀ items : List Json, (∀ l ∈ itemNumbers items, Text.OneLine l) →
    ∀ t ∈ compactItems items, Text.OneLine t
  | [], _ => by simp [compactItems]
  | j :: rest, h => by
    rw [itemNumbers, List.forall_mem_append] at h
    rw [compactItems, List.forall_mem_cons]
    exact ⟨oneLine_compact j h.1, oneLine_compactItems rest h.2⟩

theorem oneLine_compactFields : ∀ fields : List (String × Json), (∀ l ∈ fieldNumbers fields, Text.OneLine l) →
    ∀ t ∈ compactFields fields, Text.OneLine t
  | [], _ => by simp [compactFields]
  | (key, j) :: rest, h => by
    rw [fieldNumbers, List.forall_mem_append] at h
    rw [compactFields, List.forall_mem_cons]
    exact ⟨((oneLine_quote key).append (by decide)).append (oneLine_compact j h.1), oneLine_compactFields rest h.2⟩

end

theorem itemNumbers_map_str (texts : List String) : itemNumbers (texts.map .str) = [] := by
  induction texts with
  | nil => rfl
  | cons t rest ih => exact ih

theorem oneLine_ofNat (n : Nat) : ∀ l ∈ (ofNat n).numbers, Text.OneLine l := by
  intro l hl hmem
  rw [ofNat, numbers, List.mem_singleton] at hl
  rw [hl, String.toList_ofList] at hmem
  exact absurd (Decimal.isDigit_of_mem_toDigits hmem) (by decide)

end FormLang.Json
