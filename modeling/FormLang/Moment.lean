import FormLang.Decimal.Integer

/-!
# Moments

Points in time written as RFC 3339: date, `T`, time of day with an optional fraction after a point or a comma, and `Z` or an
offset. An hour may have a single digit, and offsets reach to 24 hours and 60 minutes.
-/

namespace FormLang

open Decimal (isDigit digitValue natOfDigits)

/-- Seconds since the start of the year zero in universal time, and nanoseconds beyond. -/
structure Moment where
  seconds : Int
  nanoseconds : Nat
  deriving DecidableEq, Repr

namespace Moment

/-! ## The calendar -/

def isLeap (year : Nat) : Bool :=
  year % 4 = 0 && (year % 100 ≠ 0 || year % 400 = 0)

def daysInMonth (year month : Nat) : Nat :=
  if month = 2 then if isLeap year then 29 else 28
  else if month = 4 || month = 6 || month = 9 || month = 11 then 30
  else 31

/-- The days from the start of the year zero to the start of a year. -/
def daysBeforeYear (year : Nat) : Nat :=
  365 * year + (year + 3) / 4 - (year + 99) / 100 + (year + 399) / 400

/-- The days from the start of a year to the start of a month, counted from one. -/
def daysBeforeMonth (year month : Nat) : Nat :=
  ((List.range (month - 1)).map fun m => daysInMonth year (m + 1)).foldr (· + ·) 0

/-! ## Reading -/

/-- A fixed number of digits. -/
def digits? (n : Nat) (cs : List Char) : Option (Nat × List Char) :=
  let ds := cs.take n
  if ds.length = n && ds.all isDigit then some (natOfDigits ds, cs.drop n) else none

/-- One or two digits. -/
def hour? (cs : List Char) : Option (Nat × List Char) :=
  match digits? 2 cs with
  | some r => some r
  | none => digits? 1 cs

def skip? (c : Char) : List Char → Option (List Char)
  | d :: cs => if d = c then some cs else none
  | [] => none

/-- The nanoseconds of digits after the point. Those beyond the ninth do not count. -/
def nanosecondsOf (ds : List Char) : Nat :=
  natOfDigits ((ds ++ List.replicate 9 '0').take 9)

/-- A point or comma and digits, if they follow. -/
def fraction : List Char → Nat × List Char
  | c :: d :: cs =>
    if (c = '.' || c = ',') && isDigit d then
      (nanosecondsOf ((d :: cs).takeWhile isDigit), (d :: cs).dropWhile isDigit)
    else (0, c :: d :: cs)
  | cs => (0, cs)

/-- The seconds by which local time is ahead, from the end of the text. -/
def offset? : List Char → Option Int
  | ['Z'] => some 0
  | sign :: cs => do
    let (hours, cs) ← digits? 2 cs
    let cs ← skip? ':' cs
    let (minutes, cs) ← digits? 2 cs
    if 24 < hours || 60 < minutes || !cs.isEmpty then none
    else if sign = '+' then some ((hours * 60 + minutes) * 60 : Nat)
    else if sign = '-' then some (-((hours * 60 + minutes) * 60 : Nat))
    else none
  | [] => none

/-- The moment that a text writes. -/
def ofText? (text : String) : Option Moment := do
  let (year, cs) ← digits? 4 text.toList
  let cs ← skip? '-' cs
  let (month, cs) ← digits? 2 cs
  let cs ← skip? '-' cs
  let (day, cs) ← digits? 2 cs
  let cs ← skip? 'T' cs
  let (hour, cs) ← hour? cs
  let cs ← skip? ':' cs
  let (minute, cs) ← digits? 2 cs
  let cs ← skip? ':' cs
  let (second, cs) ← digits? 2 cs
  let (nanoseconds, cs) := fraction cs
  let offset ← offset? cs
  if month < 1 || 12 < month || day < 1 || daysInMonth year month < day then none
  else if 24 ≤ hour || 60 ≤ minute || 60 ≤ second then none
  else
    let days := daysBeforeYear year + daysBeforeMonth year month + (day - 1)
    some ⟨(((days * 24 + hour) * 60 + minute) * 60 + second : Nat) - offset, nanoseconds⟩

/-! ## Writing -/

/-- The seconds from the start of the year zero to that of 1970. -/
def epoch : Int :=
  daysBeforeYear 1970 * 86400

/-- The year that a day since the start of the year zero lies in. A mean year has 146097 / 400 days, so the first guess is
wrong by one at most. -/
def yearOf (day : Nat) : Nat :=
  let guess := day * 400 / 146097
  if day < daysBeforeYear guess then guess - 1
  else if daysBeforeYear (guess + 1) ≤ day then guess + 1
  else guess

/-- The month, counted from one, that a day of a year lies in. -/
def monthOf (year day : Nat) : Nat :=
  ((List.range 12).filter fun m => daysBeforeMonth year (m + 1) ≤ day).length

/-- Digits with zeros before them. -/
def padded (width n : Nat) : List Char :=
  let ds := Nat.toDigits 10 n
  List.replicate (width - ds.length) '0' ++ ds

/-- A fraction without the zeros at its end, or nothing. -/
def fractionText (nanoseconds : Nat) : List Char :=
  match ((padded 9 nanoseconds).reverse.dropWhile (· = '0')).reverse with
  | [] => []
  | ds => '.' :: ds

/-- The moment in universal time. -/
def toText (m : Moment) : String :=
  let seconds := m.seconds.toNat
  let day := seconds / 86400
  let year := yearOf day
  let ofYear := day - daysBeforeYear year
  let month := monthOf year ofYear
  let time := seconds % 86400
  String.ofList <|
    padded 4 year ++ '-' :: padded 2 month ++ '-' :: padded 2 (ofYear - daysBeforeMonth year month + 1)
      ++ 'T' :: padded 2 (time / 3600) ++ ':' :: padded 2 (time / 60 % 60) ++ ':' :: padded 2 (time % 60)
      ++ fractionText m.nanoseconds ++ ['Z']

/-! ## Durations -/

/-- The bounds of a duration in nanoseconds. -/
def longest : Int := Int.pow 2 63 - 1

/-- The nanoseconds from one moment to another, within 64 bits. -/
def nanosecondsTo (a b : Moment) : Int :=
  let exact := (b.seconds - a.seconds) * 1000000000 + ((b.nanoseconds : Int) - a.nanoseconds)
  max (-longest - 1) (min longest exact)

/-- Whole microseconds from one moment to another, cut toward zero. -/
def microsecondsTo (a b : Moment) : Int :=
  (a.nanosecondsTo b).tdiv 1000

end Moment

end FormLang
