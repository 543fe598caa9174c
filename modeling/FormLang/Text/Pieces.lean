import FormLang.Text.Blank

/-!
# Pieces of a text

A text is cut by the role of each of its characters. A gap separates, a single is a piece by itself, and a
maximal run of parts is one piece. Words are the runs between blanks.
-/

namespace FormLang.Text

/-- What a character does when a text is cut. -/
inductive Role where
  | gap
  | single
  | part
  deriving DecidableEq, Repr

/-- The run read so far, newest character first, becomes a piece unless it is empty. -/
def closeRun (done : List String) : List Char → List String
  | [] => done
  | c :: run => String.ofList (c :: run).reverse :: done

/-- Cuts the rest of a text, given the pieces found (newest first) and the run being read (newest first). -/
def cutFrom (role : Char → Role) (done : List String) (run : List Char) : List Char → List String
  | [] => (closeRun done run).reverse
  | c :: cs =>
    match role c with
    | .gap => cutFrom role (closeRun done run) [] cs
    | .single => cutFrom role (String.singleton c :: closeRun done run) [] cs
    | .part => cutFrom role done (c :: run) cs

/-- The pieces of a text in order. -/
def cut (role : Char → Role) (text : String) : List String :=
  cutFrom role [] [] text.toList

/-- The maximal runs without blanks. -/
def words (text : String) : List String :=
  cut (fun c => if isBlank c then .gap else .part) text

end FormLang.Text
