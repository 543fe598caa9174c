/-!
# Lines

A text as the lines between its line feeds, and ends that are dropped.
-/

namespace FormLang.Text

/-- The lines of the rest of a text, given the current line so far (newest character first). -/
def linesFrom (line : List Char) : List Char → List String
  | [] => [String.ofList line.reverse]
  | c :: cs =>
    if c = '\n' then String.ofList line.reverse :: linesFrom [] cs else linesFrom (c :: line) cs

/-- The pieces between line feeds. There is always at least one, and a final line feed is followed by an empty one. -/
def lines (text : String) : List String :=
  linesFrom [] text.toList

/-- The text without one final `c`, if it has one. -/
def dropFinal (c : Char) (text : String) : String :=
  match text.toList.reverse with
  | [] => text
  | d :: rest => if d = c then String.ofList rest.reverse else text

/-- The lines of an input. A line feed ends a line and takes a carriage return before it along; what follows the last one
is a line too unless it is empty. -/
def inputLines (text : String) : List String :=
  match (lines text).reverse with
  | [] => []
  | last :: ended =>
    (ended.map (dropFinal '\r')).reverse ++ if last = "" then [] else [last]

/-- Joins the lines with line feeds. -/
def unlines (ls : List String) : String :=
  "\n".intercalate ls

end FormLang.Text
