/-!
# Texts as bytes

A text is a sequence of bytes. Where they encode characters it is held as these characters. A byte that belongs to no
character, as a cut through a character leaves it, is held as a stand-in, which is one of the last 128 code points. The
characters of these code points are themselves held as the stand-ins of their bytes, so that each text is held in one way.

Where parts of texts are put together, stand-ins may come to encode a character. Then `hold` puts the character in their place.
-/

namespace FormLang.Text

/-! ## Stand-ins -/

/-- The stand-in of a byte from 128 up. -/
def standIn (b : UInt8) : Char :=
  Char.ofNat (0x10FF00 + b.toNat)

def isStandIn (c : Char) : Bool :=
  0x10FF80 ≤ c.toNat

/-- The bytes that a character of a text is held for. -/
def charBytes (c : Char) : List UInt8 :=
  if isStandIn c then [UInt8.ofNat (c.toNat - 0x10FF00)] else String.utf8EncodeChar c

/-- The number of these bytes. -/
def charSize (c : Char) : Nat :=
  if isStandIn c then 1 else c.utf8Size

/-- How a character is held. -/
def holdChar (c : Char) : List Char :=
  if isStandIn c then (String.utf8EncodeChar c).map standIn else [c]

def bytes (text : String) : List UInt8 :=
  text.toList.flatMap charBytes

/-- The number of bytes of a text. -/
def size (text : String) : Nat :=
  text.toList.foldl (fun n c => n + charSize c) 0

/-! ## Reading characters out of stand-ins -/

/-- The character that two to four bytes encode. -/
def ofEncoding? (bs : List UInt8) : Option Char :=
  let lead := (bs.headD 0).toNat % Nat.pow 2 (7 - bs.length)
  let c := Char.ofNat (bs.tail.foldl (fun n b => n * 64 + b.toNat % 64) lead)
  if String.utf8EncodeChar c = bs then some c else none

/-- The bytes of the first `n` characters, if all of these are stand-ins. -/
def leadingBytes? (n : Nat) (cs : List Char) : Option (List UInt8) :=
  let first := cs.take n
  if first.length = n && first.all isStandIn then some (first.flatMap charBytes) else none

/-- The character that stand-ins at the front encode together, and how many of them follow the first. -/
def joined? (cs : List Char) : Option (Char × Nat) :=
  [2, 3, 4].findSome? fun n => ((leadingBytes? n cs).bind ofEncoding?).map fun c => (c, n - 1)

/-- Replaces stand-ins: those that encode a character together by `join`, and each other one by `stray`. The first `skip`
characters belong to a character already replaced, and `done` holds the characters so far, newest first. -/
def settleFrom (join stray : Char → List Char) (skip : Nat) (done : List Char) : List Char → List Char
  | [] => done.reverse
  | c :: cs =>
    match skip with
    | n + 1 => settleFrom join stray n done cs
    | 0 =>
      if !isStandIn c then settleFrom join stray 0 (c :: done) cs
      else
        match joined? (c :: cs) with
        | some (d, n) => settleFrom join stray n ((join d).reverse ++ done) cs
        | none => settleFrom join stray 0 ((stray c).reverse ++ done) cs

/-- The character shown for a byte that belongs to none. -/
def replacement : Char :=
  Char.ofNat 0xFFFD

/-! ## From and to the outside -/

/-- The text of a string of characters. -/
def ofUnicode (s : String) : String :=
  String.ofList (s.toList.flatMap holdChar)

/-- The characters of a text. Bytes that belong to none are replaced. -/
def toUnicode (text : String) : String :=
  String.ofList (settleFrom (fun c => [c]) (fun _ => [replacement]) 0 [] text.toList)

/-- How a byte is held as long as nothing is known of the bytes around it. -/
def holdByte (b : UInt8) : Char :=
  if b < 128 then Char.ofNat b.toNat else standIn b

/-- The text of a sequence of bytes. -/
def ofBytes (bs : List UInt8) : String :=
  String.ofList (settleFrom holdChar (fun c => [c]) 0 [] (bs.map holdByte))

/-- The text as it is held, where stand-ins may have come together. -/
@[irreducible]
def hold (text : String) : String :=
  ofBytes (bytes text)

/-- The text with the bytes that belong to no character replaced. -/
def repair (text : String) : String :=
  String.ofList (settleFrom holdChar (fun _ => [replacement]) 0 [] text.toList)

/-- Whether all bytes belong to characters. -/
def isWhole (text : String) : Bool :=
  repair text = text

/-! ## Order -/

/-- The order of texts by their bytes. -/
def precedes (a b : String) : Bool :=
  bytes a < bytes b || (bytes a = bytes b && a < b)

end FormLang.Text
