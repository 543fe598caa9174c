import FormLang.Text.Bytes

/-!
# Occurrences

The first occurrence of a text inside another, and its replacement. What stood apart may then stand together, so the result is held
anew.
-/

namespace FormLang.Text

/-- The rest of `cs` after `word`, if `cs` begins with it. -/
def stripStart? : List Char → List Char → Option (List Char)
  | [], cs => some cs
  | _ :: _, [] => none
  | w :: word, c :: cs => if w = c then stripStart? word cs else none

/-- Splits at the first occurrence of `word`; `before` holds what was passed, newest first. -/
def splitFirstFrom (word before : List Char) : List Char → Option (List Char × List Char)
  | [] =>
    match word with
    | [] => some (before.reverse, [])
    | _ :: _ => none
  | c :: cs =>
    match stripStart? word (c :: cs) with
    | some rest => some (before.reverse, rest)
    | none => splitFirstFrom word (c :: before) cs

/-- What stands before and after the first occurrence of `word`. -/
def splitFirst? (word text : List Char) : Option (List Char × List Char) :=
  splitFirstFrom word [] text

/-- The text with the first occurrence of `word` replaced by `fill`, or unchanged if there is none. -/
def replaceFirst (word fill text : String) : String :=
  match splitFirst? word.toList text.toList with
  | some (before, after) => hold (String.ofList (before ++ fill.toList ++ after))
  | none => text

def hasInfix (word text : String) : Bool :=
  (splitFirst? word.toList text.toList).isSome

def startsWith (word text : String) : Bool :=
  (stripStart? word.toList text.toList).isSome

def endsWith (word text : String) : Bool :=
  (stripStart? word.toList.reverse text.toList.reverse).isSome

/-- The text without any `c`. -/
def erase (c : Char) (text : String) : String :=
  hold (String.ofList (text.toList.filter (· ≠ c)))

/-- The text with every `c` replaced by `d`. -/
def substitute (c d : Char) (text : String) : String :=
  String.ofList (text.toList.map fun x => if x = c then d else x)

end FormLang.Text
