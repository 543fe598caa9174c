import FormLang.Text.Bytes
import FormLang.Text.Lines

/-!
# Lines of bounded length

A reader that takes a bounded number of bytes at a time hands out a longer line in chunks, each as a line of its own.
-/

namespace FormLang.Text

/-- The number of bytes of a full chunk. -/
def chunkSize : Nat := 4096

/-- The first `room` bytes, and the rest. A character that lies across the end falls into bytes. -/
def cutBytes (room : Nat) : List Char → List Char × List Char
  | [] => ([], [])
  | c :: cs =>
    if room = 0 then ([], c :: cs)
    else if charSize c ≤ room then
      match cutBytes (room - charSize c) cs with
      | (first, rest) => (c :: first, rest)
    else
      let pieces := (charBytes c).map standIn
      (pieces.take room, pieces.drop room ++ cs)

/-- A full chunk and the rest, unless what is left of the line does not fill one. A carriage return at the end of the chunk
goes to the rest, since a line feed may follow. -/
def cutChunk? (cs : List Char) : Option (String × List Char) :=
  match cutBytes chunkSize cs with
  | (first, rest) =>
    let chunk := String.ofList first
    if size chunk < chunkSize then none
    else if first.getLast? = some '\r' then some (String.ofList first.dropLast, '\r' :: rest)
    else some (chunk, rest)

/-- The full chunks of a line, at most `count` of them, and what is left. -/
def chunks (cs : List Char) : (count : Nat) → List String × String
  | 0 => ([], String.ofList cs)
  | n + 1 =>
    match cutChunk? cs with
    | none => ([], String.ofList cs)
    | some (chunk, rest) =>
      match chunks rest n with
      | (more, left) => (chunk :: more, left)

/-- A line as a bounded reader hands it out. What is left after the full chunks counts as a line if a line feed ended it,
which then takes a carriage return along, or if it is not empty. -/
def lineChunks (ended : Bool) (line : String) : List String :=
  match chunks line.toList (size line) with
  | (full, left) => full ++ if ended then [dropFinal '\r' left] else if left = "" then [] else [left]

/-- The lines of an input as a bounded reader hands them out. -/
def inputChunks (text : String) : List String :=
  match (lines text).reverse with
  | [] => []
  | last :: ended => ended.reverse.flatMap (lineChunks true) ++ lineChunks false last

end FormLang.Text
