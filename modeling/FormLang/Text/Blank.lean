/-!
# Blanks

The characters that separate words, and texts stripped of them at both ends.
-/

namespace FormLang.Text

/-- The code points with the White_Space property, as closed ranges in ascending order. -/
def blankRanges : List (Nat × Nat) :=
  [(0x09, 0x0D), (0x20, 0x20), (0x85, 0x85), (0xA0, 0xA0), (0x1680, 0x1680), (0x2000, 0x200A),
    (0x2028, 0x2029), (0x202F, 0x202F), (0x205F, 0x205F), (0x3000, 0x3000)]

def isBlank (c : Char) : Bool :=
  blankRanges.any fun r => r.1 ≤ c.toNat && c.toNat ≤ r.2

/-- The text without the blanks at its start. -/
def trimStart (cs : List Char) : List Char :=
  cs.dropWhile isBlank

/-- The text without the blanks at its start and at its end. -/
def trimChars (cs : List Char) : List Char :=
  (trimStart (trimStart cs).reverse).reverse

def trim (s : String) : String :=
  String.ofList (trimChars s.toList)

/-- A text of blanks only. -/
def isBlankText (s : String) : Bool :=
  s.toList.all isBlank

end FormLang.Text
