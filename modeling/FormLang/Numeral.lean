import FormLang.Binary64.Basic
import FormLang.Decimal.Integer

/-!
# Numerals

The words that write numbers. An integer is an optional sign and decimal digits, within 64 bits. A float is a decimal
with optional point and exponent, a hexadecimal with a binary exponent, or the name of a value that is not finite. In a
float, an underscore may stand between two digits or after the mark of a hexadecimal.
-/

namespace FormLang.Numeral

open Decimal (isDigit digitValue natOfDigits)

/-- Whether the word begins with a minus sign, and the word without its sign. -/
def splitSign : List Char → Bool × List Char
  | '+' :: cs => (false, cs)
  | '-' :: cs => (true, cs)
  | cs => (false, cs)

/-! ## Integers -/

def fitsInt64 (v : Int) : Bool :=
  -Int.pow 2 63 ≤ v && v < Int.pow 2 63

/-- The integer that a word writes, if it is one and lies within 64 bits. -/
def integer? (word : List Char) : Option Int64 :=
  let (negative, ds) := splitSign word
  if ds.isEmpty || !ds.all isDigit then none
  else
    let v : Int := if negative then -(natOfDigits ds : Int) else natOfDigits ds
    if fitsInt64 v then some (Int64.ofInt v) else none

/-! ## Floats -/

def lowerAscii (c : Char) : Char :=
  if 'A' ≤ c && c ≤ 'Z' then Char.ofNat (c.toNat + 32) else c

def isHexDigit (c : Char) : Bool :=
  isDigit c || ('a' ≤ lowerAscii c && lowerAscii c ≤ 'f')

def hexDigitValue (c : Char) : Nat :=
  if isDigit c then digitValue c else (lowerAscii c).toNat - 'a'.toNat + 10

/-- The names of the values that are not finite. Only infinity takes a sign. -/
def special? (word : List Char) : Option Float :=
  let name (cs : List Char) : String := String.ofList (cs.map lowerAscii)
  if name word = "nan" then some Binary64.notANumber
  else
    let (negative, cs) := splitSign word
    if name cs = "inf" || name cs = "infinity" then
      some (Binary64.ofMagnitude negative Binary64.infinityBits)
    else none

/-- What stood last when underscores are checked. -/
inductive Last where
  | other
  | digit
  | underscore
  deriving DecidableEq

/-- Each underscore follows a digit and is followed by one. -/
def separatesDigits (isDigit : Char → Bool) (last : Last) : List Char → Bool
  | [] => last ≠ .underscore
  | c :: cs =>
    if isDigit c then separatesDigits isDigit .digit cs
    else if c = '_' then last = .digit && separatesDigits isDigit .underscore cs
    else last ≠ .underscore && separatesDigits isDigit .other cs

/-- Whether the underscores of an unsigned numeral stand where they may. A mark of base counts as a digit. -/
def underscoresFit (cs : List Char) : Bool :=
  match cs with
  | '0' :: x :: rest =>
    if lowerAscii x = 'x' then separatesDigits isHexDigit .digit rest
    else if lowerAscii x = 'b' || lowerAscii x = 'o' then separatesDigits isDigit .digit rest
    else separatesDigits isDigit .other cs
  | _ => separatesDigits isDigit .other cs

/-- The digits around an optional point: the digits, how many follow the point, and the rest. -/
def mantissa? (isDigit : Char → Bool) (cs : List Char) : Option (List Char × Nat × List Char) :=
  let whole := cs.takeWhile isDigit
  let (frac, rest) :=
    match cs.dropWhile isDigit with
    | '.' :: tail => (tail.takeWhile isDigit, tail.dropWhile isDigit)
    | tail => ([], tail)
  if whole.isEmpty && frac.isEmpty then none else some (whole ++ frac, frac.length, rest)

/-- The value of the digits of an exponent. Past ten thousand further digits change nothing. -/
def exponentValue (ds : List Char) : Nat :=
  ds.foldl (fun e c => if e < 10000 then 10 * e + digitValue c else e) 0

/-- An exponent without its mark, up to the end of the word. -/
def exponent? (cs : List Char) : Option Int :=
  let (negative, ds) := splitSign cs
  if ds.isEmpty || !ds.all isDigit then none
  else some (if negative then -(exponentValue ds : Int) else exponentValue ds)

/-- The magnitude of an unsigned decimal numeral without underscores. -/
def decimal? (cs : List Char) : Option Nat := do
  let (ds, places, rest) ← mantissa? isDigit cs
  let e ←
    match rest with
    | [] => some 0
    | c :: tail => if lowerAscii c = 'e' then exponent? tail else none
  return Binary64.ofDecimal (natOfDigits ds) (e - places)

/-- The magnitude of a hexadecimal numeral without its mark and without underscores. It needs a binary exponent. -/
def hexadecimal? (cs : List Char) : Option Nat := do
  let (ds, places, rest) ← mantissa? isHexDigit cs
  let e ←
    match rest with
    | [] => none
    | c :: tail => if lowerAscii c = 'p' then exponent? tail else none
  return Binary64.ofBinary (ds.foldl (fun n c => 16 * n + hexDigitValue c) 0) (e - 4 * places)

/-- The magnitude of an unsigned numeral. -/
def magnitude? (cs : List Char) : Option Nat :=
  if !underscoresFit cs then none
  else
    match cs.filter (· ≠ '_') with
    | '0' :: x :: rest => if lowerAscii x = 'x' then hexadecimal? rest else decimal? ('0' :: x :: rest)
    | plain => decimal? plain

/-- The float that a word writes, if it is one and is not too large. -/
def float? (word : List Char) : Option Float :=
  match special? word with
  | some f => some f
  | none =>
    let (negative, cs) := splitSign word
    match magnitude? cs with
    | some bits =>
      if bits < Binary64.infinityBits then some (Binary64.ofMagnitude negative bits) else none
    | none => none

end FormLang.Numeral
