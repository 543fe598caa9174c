/-!
# Integers in decimal
-/

namespace FormLang.Decimal

def ofNat (n : Nat) : String :=
  String.ofList (Nat.toDigits 10 n)

/-- A minus sign and the digits, or the digits alone. -/
def ofInt : Int → String
  | .ofNat n => ofNat n
  | .negSucc n => "-" ++ ofNat (n + 1)

def ofInt64 (n : Int64) : String :=
  ofInt n.toInt

def isDigit (c : Char) : Bool :=
  '0' ≤ c && c ≤ '9'

def digitValue (c : Char) : Nat :=
  c.toNat - '0'.toNat

/-- The number that a run of digits writes. -/
def natOfDigits (cs : List Char) : Nat :=
  cs.foldl (fun n c => 10 * n + digitValue c) 0

end FormLang.Decimal
