import FormLang.Json.Basic
import FormLang.Numeral

/-!
# Reading records from JSON

Fields are found by their names without regard to case. A null leaves a single value as it was and empties a list, a field
given twice counts as it was given last, and unknown fields are ignored. A value of another kind than expected is refused.
-/

namespace FormLang.Json

/-- A letter without its case. The long s and the Kelvin sign count as the letters that they become. -/
def foldChar (c : Char) : Char :=
  if 'A' ≤ c && c ≤ 'Z' then Char.ofNat (c.toNat + 32)
  else if c.toNat = 0x17F then 's'
  else if c.toNat = 0x212A then 'k'
  else c

/-- Whether a key stands for the field of this name. -/
def isKey (name key : String) : Bool :=
  key.toList.map foldChar = name.toList.map foldChar

def str? (old : String) : Json → Option String
  | .null => some old
  | .str s => some s
  | _ => none

def bool? (old : Bool) : Json → Option Bool
  | .null => some old
  | .bool b => some b
  | _ => none

/-- A whole number of 64 bits, written without point and exponent. -/
def int? (old : Int) : Json → Option Int
  | .null => some old
  | .num literal => (Numeral.integer? literal.toList).map Int64.toInt
  | _ => none

/-- A list of texts, with those that a longer list given before it has left behind its end. -/
structure Texts where
  items : List String
  behind : List String

namespace Texts

def empty : Texts :=
  ⟨[], []⟩

/-- The texts of an array, laid over earlier ones. A null keeps the text at its place, or is the empty text if there was
none. -/
def lay? : List String → List Json → Option (List String)
  | _, [] => some []
  | [], j :: js => do return (← str? "" j) :: (← lay? [] js)
  | old :: olds, j :: js => do return (← str? old j) :: (← lay? olds js)

end Texts

/-- Texts in an array. A null and an empty array forget what was given before. -/
def texts? (old : Texts) : Json → Option Texts
  | .null | .arr [] => some .empty
  | .arr items =>
    let known := old.items ++ old.behind
    (Texts.lay? known items).map fun texts => ⟨texts, known.drop items.length⟩
  | _ => none

/-- Reads a record field by field. -/
def record? {α : Type} (set : α → String → Json → Option α) (base : α) : Json → Option α
  | .null => some base
  | .obj fields => fields.foldlM (fun r f => set r f.1 f.2) base
  | _ => none

/-! ## Numbers in range -/

/-- The double that a literal stands for, if it is finite. -/
def toFloat? (literal : String) : Option Float :=
  Numeral.float? literal.toList

mutual

/-- Whether every number of a document is within the range of a double. -/
def inRange : Json → Bool
  | .num literal => (toFloat? literal).isSome
  | .arr items => itemsInRange items
  | .obj fields => fieldsInRange fields
  | _ => true

def itemsInRange : List Json → Bool
  | [] => true
  | j :: rest => inRange j && itemsInRange rest

def fieldsInRange : List (String × Json) → Bool
  | [] => true
  | (_, j) :: rest => inRange j && fieldsInRange rest

end

end FormLang.Json
