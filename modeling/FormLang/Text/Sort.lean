import FormLang.Text.Bytes

/-!
# Sorted texts
-/

namespace FormLang.Text

/-- Texts in ascending order of their bytes. -/
def sort (texts : List String) : List String :=
  texts.mergeSort (fun a b => !precedes b a)

end FormLang.Text
