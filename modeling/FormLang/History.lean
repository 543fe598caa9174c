import FormLang.Text.Bytes
import FormLang.Text.Lines

/-!
# The history of a prompt

What was entered, oldest first. Entries equal to the one before are not repeated, and only the latest thousand are kept.
-/

namespace FormLang.History

def limit : Nat := 1000

/-- A line of this many bytes or more cannot be read back. -/
def maxLine : Nat := 4096

/-- The latest entries within the limit. -/
def keepLatest (entries : List String) : List String :=
  entries.drop (entries.length - limit)

/-- Adds an entry, unless it is the latest one again. -/
def record (entries : List String) (entry : String) : List String :=
  if entries.getLast? = some entry then entries else keepLatest (entries ++ [entry])

/-- The entries of a history file. Reading ends before the first line that is too long or does not consist of characters. -/
def ofText (text : String) : List String :=
  let all := Text.lines text
  let short := all.takeWhile fun line => Text.size line < maxLine && Text.isWhole line
  keepLatest (if short.length < all.length then short.map (Text.dropFinal '\r') else Text.inputLines text)

def toText (entries : List String) : String :=
  String.join (entries.map (· ++ "\n"))

end FormLang.History
