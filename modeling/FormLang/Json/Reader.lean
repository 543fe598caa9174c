import FormLang.Decimal.Integer
import FormLang.Json.Basic

/-!
# Reading JSON

A text is read as one document, with white space around it and nothing else. An object keeps repeated fields. An escaped
surrogate without its partner is read as the replacement character, and so is a byte that belongs to no character.
Documents nested deeper than ten thousand are refused.
-/

namespace FormLang.Json

open Decimal (isDigit digitValue)

def isSpace (c : Char) : Bool :=
  c = ' ' || c = '\t' || c = '\n' || c = '\r'

def skipSpace (cs : List Char) : List Char :=
  cs.dropWhile isSpace

/-! ## Strings -/

def hexValue? (c : Char) : Option Nat :=
  if isDigit c then some (digitValue c)
  else if 'a' ≤ c && c ≤ 'f' then some (c.toNat - 87)
  else if 'A' ≤ c && c ≤ 'F' then some (c.toNat - 55)
  else none

/-- The number written by four hexadecimal digits. -/
def hex4? (a b c d : Char) : Option Nat := do
  let a ← hexValue? a
  let b ← hexValue? b
  let c ← hexValue? c
  let d ← hexValue? d
  return ((a * 16 + b) * 16 + c) * 16 + d

def isHighSurrogate (n : Nat) : Bool :=
  0xD800 ≤ n && n < 0xDC00

def isLowSurrogate (n : Nat) : Bool :=
  0xDC00 ≤ n && n < 0xE000

def joinSurrogates (high low : Nat) : Char :=
  Char.ofNat (0x10000 + (high - 0xD800) * 0x400 + (low - 0xDC00))

/-- The character that a single letter after a backslash stands for. -/
def shortEscape? (c : Char) : Option Char :=
  if c = '"' || c = '\\' || c = '/' then some c
  else if c = 'n' then some '\n'
  else if c = 't' then some '\t'
  else if c = 'r' then some '\r'
  else if c = 'b' then some (Char.ofNat 8)
  else if c = 'f' then some (Char.ofNat 12)
  else none

/-- An escape after its backslash: the character and the number of further characters that it takes. -/
def escape? : List Char → Option (Char × Nat)
  | 'u' :: a :: b :: c :: d :: rest => do
    let n ← hex4? a b c d
    if isHighSurrogate n then
      match rest with
      | '\\' :: 'u' :: a :: b :: c :: d :: _ =>
        match hex4? a b c d with
        | some low => if isLowSurrogate low then some (joinSurrogates n low, 11) else some (Text.replacement, 5)
        | none => some (Text.replacement, 5)
      | _ => some (Text.replacement, 5)
    else if isLowSurrogate n then some (Text.replacement, 5)
    else some (Char.ofNat n, 5)
  | c :: _ => (shortEscape? c).map fun x => (x, 1)
  | [] => none

/-- Reads a string after its opening quote. `skip` characters belong to an escape already read, and `done` holds the
characters so far, newest first. -/
def stringFrom (skip : Nat) (done : List Char) : List Char → Option (String × List Char)
  | [] => none
  | c :: cs =>
    match skip with
    | n + 1 => stringFrom n done cs
    | 0 =>
      if c = '"' then some (Text.repair (String.ofList done.reverse), cs)
      else if c = '\\' then
        match escape? cs with
        | some (x, n) => stringFrom n ((Text.holdChar x).reverse ++ done) cs
        | none => none
      else if c.toNat < 0x20 then none
      else stringFrom 0 (c :: done) cs

/-! ## Numbers -/

/-- A run of at least one digit. -/
def digits? (cs : List Char) : Option (List Char × List Char) :=
  match cs.takeWhile isDigit with
  | [] => none
  | ds => some (ds, cs.dropWhile isDigit)

/-- The whole part of a number: a zero, or digits that do not begin with one. -/
def whole? : List Char → Option (List Char × List Char)
  | '0' :: cs => some (['0'], cs)
  | cs => digits? cs

/-- A point with digits, or nothing. -/
def fraction? : List Char → Option (List Char × List Char)
  | '.' :: cs => (digits? cs).map fun (ds, rest) => ('.' :: ds, rest)
  | cs => some ([], cs)

/-- An exponent with an optional sign, or nothing. -/
def power? : List Char → Option (List Char × List Char)
  | c :: cs =>
    if c = 'e' || c = 'E' then
      match cs with
      | s :: tail =>
        if s = '+' || s = '-' then (digits? tail).map fun (ds, rest) => (c :: s :: ds, rest)
        else (digits? cs).map fun (ds, rest) => (c :: ds, rest)
      | [] => none
    else some ([], c :: cs)
  | [] => some ([], [])

/-- The literal of a number and the rest. -/
def number? (cs : List Char) : Option (String × List Char) := do
  let (sign, cs) :=
    match cs with
    | '-' :: rest => (['-'], rest)
    | _ => ([], cs)
  let (whole, cs) ← whole? cs
  let (frac, cs) ← fraction? cs
  let (power, cs) ← power? cs
  return (String.ofList (sign ++ whole ++ frac ++ power), cs)

/-! ## Documents -/

/-- The rest after a fixed word. -/
def keyword? : List Char → List Char → Option (List Char)
  | [], cs => some cs
  | _ :: _, [] => none
  | w :: ws, c :: cs => if w = c then keyword? ws cs else none

def maxNesting : Nat := 10000

mutual

/-- Reads one document. `fuel` bounds the calls and `room` the nesting. -/
def valueFrom (fuel room : Nat) (cs : List Char) : Option (Json × List Char) :=
  match fuel with
  | 0 => none
  | fuel + 1 =>
    match skipSpace cs with
    | [] => none
    | '"' :: rest => (stringFrom 0 [] rest).map fun (s, rest) => (.str s, rest)
    | '[' :: rest =>
      match room with
      | 0 => none
      | room + 1 =>
        match skipSpace rest with
        | ']' :: rest => some (.arr [], rest)
        | rest => itemsFrom fuel room [] rest
    | '\x7b' :: rest =>
      match room with
      | 0 => none
      | room + 1 =>
        match skipSpace rest with
        | '\x7d' :: rest => some (.obj [], rest)
        | rest => fieldsFrom fuel room [] rest
    | 'n' :: rest => (keyword? ['u', 'l', 'l'] rest).map fun rest => (.null, rest)
    | 't' :: rest => (keyword? ['r', 'u', 'e'] rest).map fun rest => (.bool true, rest)
    | 'f' :: rest => (keyword? ['a', 'l', 's', 'e'] rest).map fun rest => (.bool false, rest)
    | c :: rest => (number? (c :: rest)).map fun (n, rest) => (.num n, rest)

/-- Reads the items of an array up to its end, given those before (newest first). -/
def itemsFrom (fuel room : Nat) (done : List Json) (cs : List Char) : Option (Json × List Char) :=
  match fuel with
  | 0 => none
  | fuel + 1 =>
    match valueFrom fuel room cs with
    | none => none
    | some (j, rest) =>
      match skipSpace rest with
      | ',' :: rest => itemsFrom fuel room (j :: done) rest
      | ']' :: rest => some (.arr (j :: done).reverse, rest)
      | _ => none

/-- Reads the fields of an object up to its end, given those before (newest first). -/
def fieldsFrom (fuel room : Nat) (done : List (String × Json)) (cs : List Char) :
    Option (Json × List Char) :=
  match fuel with
  | 0 => none
  | fuel + 1 =>
    match skipSpace cs with
    | '"' :: rest =>
      match stringFrom 0 [] rest with
      | none => none
      | some (key, rest) =>
        match skipSpace rest with
        | ':' :: rest =>
          match valueFrom fuel room rest with
          | none => none
          | some (j, rest) =>
            match skipSpace rest with
            | ',' :: rest => fieldsFrom fuel room ((key, j) :: done) rest
            | '\x7d' :: rest => some (.obj ((key, j) :: done).reverse, rest)
            | _ => none
        | _ => none
    | _ => none

end

/-- The document that a text writes. Each call of the reader either takes a character or follows one that did, so twice
the length bounds their nesting. -/
def parse? (text : String) : Option Json :=
  let cs := text.toList
  match valueFrom (2 * cs.length + 2) maxNesting cs with
  | some (j, rest) => if (skipSpace rest).isEmpty then some j else none
  | none => none

end FormLang.Json
