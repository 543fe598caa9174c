import FormLang.Text.Bytes

/-!
# JSON documents

The values of JSON and their compact text. A number is kept as the literal that writes it, and an object as its fields
in order. In strings the characters that matter to HTML and the two Unicode line separators are escaped too.
-/

namespace FormLang

inductive Json where
  | null
  | bool (b : Bool)
  | num (literal : String)
  | str (s : String)
  | arr (items : List Json)
  | obj (fields : List (String × Json))
  deriving Inhabited

namespace Json

/-! ## Equality -/

mutual

/-- Whether two documents are the same. -/
def same : Json → Json → Bool
  | .null, .null => true
  | .bool a, .bool b => a = b
  | .num a, .num b => a = b
  | .str a, .str b => a = b
  | .arr a, .arr b => sameItems a b
  | .obj a, .obj b => sameFields a b
  | _, _ => false

def sameItems : List Json → List Json → Bool
  | [], [] => true
  | a :: as, b :: bs => same a b && sameItems as bs
  | _, _ => false

def sameFields : List (String × Json) → List (String × Json) → Bool
  | [], [] => true
  | (k, a) :: as, (l, b) :: bs => k = l && (same a b && sameFields as bs)
  | _, _ => false

end

mutual

theorem same_iff : ∀ a b : Json, same a b = true ↔ a = b
  | .null, b => by cases b <;> simp [same]
  | .bool _, b => by cases b <;> simp [same]
  | .num _, b => by cases b <;> simp [same]
  | .str _, b => by cases b <;> simp [same]
  | .arr items, b => by
    cases b with
    | arr items' => rw [same, sameItems_iff, arr.injEq]
    | _ => simp [same]
  | .obj fields, b => by
    cases b with
    | obj fields' => rw [same, sameFields_iff, obj.injEq]
    | _ => simp [same]

theorem sameItems_iff : ∀ as bs : List Json, sameItems as bs = true ↔ as = bs
  | [], bs => by cases bs <;> simp [sameItems]
  | a :: as, bs => by
    cases bs with
    | nil => simp [sameItems]
    | cons b bs => rw [sameItems, Bool.and_eq_true, same_iff a b, sameItems_iff as bs, List.cons.injEq]

theorem sameFields_iff : ∀ as bs : List (String × Json), sameFields as bs = true ↔ as = bs
  | [], bs => by cases bs <;> simp [sameFields]
  | (k, a) :: as, bs => by
    cases bs with
    | nil => simp [sameFields]
    | cons x bs =>
      rw [sameFields, Bool.and_eq_true, Bool.and_eq_true, same_iff a x.2, sameFields_iff as bs, decide_eq_true_eq,
        List.cons.injEq, Prod.ext_iff, and_assoc]

end

instance : DecidableEq Json :=
  fun a b => decidable_of_iff (same a b = true) (same_iff a b)

/-! ## Texts -/

def hexDigit (n : Nat) : Char :=
  if n < 10 then Char.ofNat (48 + n) else Char.ofNat (87 + n)

/-- The escape of a code point below `2 ^ 16`. -/
def escape (n : Nat) : List Char :=
  ['\\', 'u', hexDigit (n / 4096 % 16), hexDigit (n / 256 % 16), hexDigit (n / 16 % 16), hexDigit (n % 16)]

/-- Whether a character is written as a numeric escape unless it has a short one. -/
def needsEscape (c : Char) : Bool :=
  c.toNat < 0x20 || c = '<' || c = '>' || c = '&' || c.toNat = 0x2028 || c.toNat = 0x2029

def quoteChar (c : Char) : List Char :=
  if c = '"' then ['\\', '"']
  else if c = '\\' then ['\\', '\\']
  else if c = '\n' then ['\\', 'n']
  else if c = '\r' then ['\\', 'r']
  else if c = '\t' then ['\\', 't']
  else if c.toNat = 8 then ['\\', 'b']
  else if c.toNat = 12 then ['\\', 'f']
  else if needsEscape c then escape c.toNat
  else [c]

/-- The string between quotes, with escapes. A byte that belongs to no character is replaced, and the character shown for it is
written as it is and not as an escape. -/
def quote (s : String) : String :=
  String.ofList ('"' :: (Text.repair s).toList.flatMap quoteChar ++ ['"'])

mutual

/-- The text of a document without any space. -/
def compact : Json → String
  | .null => "null"
  | .bool b => if b then "true" else "false"
  | .num literal => literal
  | .str s => quote s
  | .arr items => "[" ++ ",".intercalate (compactItems items) ++ "]"
  | .obj fields => "\x7b" ++ ",".intercalate (compactFields fields) ++ "\x7d"

def compactItems : List Json → List String
  | [] => []
  | j :: rest => compact j :: compactItems rest

def compactFields : List (String × Json) → List String
  | [] => []
  | (key, j) :: rest => (quote key ++ ":" ++ compact j) :: compactFields rest

end

/-- An object with each field on a line of its own, indented by two spaces. -/
def fieldLines (fields : List (String × Json)) : String :=
  match fields with
  | [] => "\x7b\x7d"
  | _ =>
    let line (f : String × Json) : String := "  " ++ quote f.1 ++ ": " ++ compact f.2
    "\x7b\n" ++ ",\n".intercalate (fields.map line) ++ "\n\x7d"

def ofNat (n : Nat) : Json :=
  .num (String.ofList (Nat.toDigits 10 n))

end Json

end FormLang
