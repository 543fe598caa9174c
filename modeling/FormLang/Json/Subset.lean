import FormLang.Json.Decode

/-!
# Subsets of documents

A document is a subset of another if it is what remains after taking fields out of objects and items off the ends of arrays,
at any depth. Numbers are compared as doubles, and of a field given twice the last counts.
-/

namespace FormLang.Json

/-- The field of a key. -/
def get? (fields : List (String × Json)) (key : String) : Option Json :=
  match fields with
  | [] => none
  | (k, j) :: rest =>
    match get? rest key with
    | some later => some later
    | none => if k = key then some j else none

/-- A literal up to its value: the bits of the double, with one zero. What is no finite number stands for itself. -/
def numberKey (literal : String) : Nat × String :=
  match toFloat? literal with
  | some f => (if Binary64.magnitude f = 0 then 0 else f.toBits.toNat, "")
  | none => (0, literal)

mutual

def isSubset : Json → Json → Bool
  | .obj fields, .obj whole => areFields fields whole
  | .arr items, .arr whole => areItems items whole
  | .null, .null => true
  | .bool a, .bool b => a = b
  | .num a, .num b => numberKey a = numberKey b
  | .str a, .str b => a = b
  | _, _ => false

/-- Whether each field, unless given again later, is a subset of the field of the same key. -/
def areFields : List (String × Json) → List (String × Json) → Bool
  | [], _ => true
  | (key, j) :: rest, whole =>
    ((get? rest key).isSome ||
      match get? whole key with
      | some w => isSubset j w
      | none => false) && areFields rest whole

/-- Whether each item is a subset of the item at the same position. -/
def areItems : List Json → List Json → Bool
  | [], _ => true
  | _ :: _, [] => false
  | j :: rest, w :: whole => isSubset j w && areItems rest whole

end

end FormLang.Json
