import FormLang.Text.Pieces

/-!
# Tokens

A source text is cut into tokens: each parenthesis is one, and so is each maximal run of other characters between
blanks. The depth of a token list is the number of its open parentheses less that of its closed ones.
-/

namespace FormLang

abbrev Token := String

namespace Token

def opening : Token := "("

def closing : Token := ")"

def role (c : Char) : Text.Role :=
  if c = '(' || c = ')' then .single else if Text.isBlank c then .gap else .part

def ofText (source : String) : List Token :=
  Text.cut role source

/-! ## Depth -/

/-- The depth after some tokens, and the lowest depth that a closing parenthesis led to, or zero. -/
structure Depth where
  net : Int
  low : Int
  deriving DecidableEq, Repr

def Depth.start : Depth :=
  ⟨0, 0⟩

def Depth.next (d : Depth) (t : Token) : Depth :=
  if t = opening then { d with net := d.net + 1 }
  else if t = closing then ⟨d.net - 1, min d.low (d.net - 1)⟩
  else d

def depth (ts : List Token) : Depth :=
  ts.foldl Depth.next .start

end Token

end FormLang
