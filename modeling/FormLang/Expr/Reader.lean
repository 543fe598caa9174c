import FormLang.Expr.Basic
import FormLang.Token.Balance

/-!
# Reading expressions

A reader is a cursor over tokens with a limit on nesting. Building takes one expression from the front. Reading a whole
token list checks its balance first, so that afterwards only the nesting can be refused.
-/

namespace FormLang

/-- The nesting of forms, and of evaluations, when no limit is set. -/
def defaultLimit : Nat := 10000

/-- A limit that is not positive stands for the default. -/
def effectiveLimit (limit : Int) : Nat :=
  if limit ≤ 0 then defaultLimit else limit.toNat

/-- Why no expression could be built. -/
inductive ReadError where
  | endOfInput
  | unclosedForm
  | tooDeep (limit : Nat)
  | strayClose
  | leftover (count : Nat)
  deriving DecidableEq, Repr

namespace ReadError

def code : ReadError → Code
  | .endOfInput | .unclosedForm => .unexpectedEnd
  | .tooDeep _ => .resource
  | .strayClose => .unexpectedCloseParen
  | .leftover _ => .mismatchedParens

def message : ReadError → String
  | .endOfInput => "unexpected end of input"
  | .unclosedForm => "unexpected end of input: missing ')'"
  | .tooDeep limit => "maximum nesting depth exceeded (" ++ Decimal.ofNat limit ++ ")"
  | .strayClose => "unexpected ')'"
  | .leftover n => Decimal.ofNat n ++ " unconsumed token(s) after expression"

def diagnostic (e : ReadError) : Diagnostic :=
  .plain e.code e.message

end ReadError

namespace Expr

/-- What building leaves behind. -/
structure Built where
  result : Except ReadError Expr
  /-- The tokens that were not consumed, also after a failure. -/
  rest : List Token
  /-- The number of forms that are open. -/
  nesting : Nat

/-- Reads on inside an open form, given the number of open forms, the items of this one so far and those of the forms around it
(innermost form first, newest item first). A form counts from its opening parenthesis until it ends, and a failure ends
all of those that were opened here. -/
def buildInside (limit nesting : Nat) (items : List Expr) (outer : List (List Expr)) : List Token → Built
  | [] => ⟨.error .unclosedForm, [], nesting - (outer.length + 1)⟩
  | t :: ts =>
    if t = Token.opening then
      -- the form that is refused has been counted too
      if limit < nesting + 1 then ⟨.error (.tooDeep limit), ts, nesting + 1 - (outer.length + 2)⟩
      else buildInside limit (nesting + 1) [] (items :: outer) ts
    else if t = Token.closing then
      match outer with
      | [] => ⟨.ok (.list items.reverse), ts, nesting - 1⟩
      | around :: outer => buildInside limit (nesting - 1) (.list items.reverse :: around) outer ts
    else buildInside limit nesting (ofToken t :: items) outer ts

/-- Takes one expression from the front of the tokens, with so many forms open already. -/
def buildFrom (limit nesting : Nat) : List Token → Built
  | [] => ⟨.error .endOfInput, [], nesting⟩
  | t :: ts =>
    if t = Token.opening then
      if limit < nesting + 1 then ⟨.error (.tooDeep limit), ts, nesting + 1 - 1⟩
      else buildInside limit (nesting + 1) [] [] ts
    else if t = Token.closing then ⟨.error .strayClose, ts, nesting⟩
    else ⟨.ok (ofToken t), ts, nesting⟩

/-- Takes one expression from the front of the tokens and returns the rest. Forms may nest up to the limit. -/
def build (limit : Nat) (ts : List Token) : Except ReadError Expr × List Token :=
  let b := buildFrom limit 0 ts
  (b.result, b.rest)

end Expr

/-! ## A cursor over tokens -/

/-- Tokens that are consumed from the front. A limit that is not positive stands for the default. -/
structure Reader where
  tokens : List Token
  position : Nat
  limit : Int
  /-- The number of forms that are open. -/
  nesting : Nat
  inside : position ≤ tokens.length

namespace Reader

def ofTokens (tokens : List Token) (limit : Int) : Reader :=
  ⟨tokens, 0, limit, 0, Nat.zero_le _⟩

/-- The tokens not yet consumed. -/
def rest (r : Reader) : List Token :=
  r.tokens.drop r.position

def size (r : Reader) : Nat :=
  r.tokens.length - r.position

def peek? (r : Reader) : Option Token :=
  r.rest.head?

/-- Moves the cursor so that these tokens are left. -/
def skipTo (r : Reader) (ts : List Token) : Reader :=
  { r with position := r.tokens.length - ts.length, inside := Nat.sub_le _ _ }

/-- Consumes one token, if there is one. -/
def pop (r : Reader) : Option Token × Reader :=
  match r.rest with
  | [] => (none, r)
  | t :: ts => (some t, r.skipTo ts)

/-- Consumes one expression. A failure consumes the tokens up to the one that caused it. -/
def build (r : Reader) : Except ReadError Expr × Reader :=
  let b := Expr.buildFrom (effectiveLimit r.limit) r.nesting r.rest
  (b.result, { r.skipTo b.rest with nesting := b.nesting })

end Reader

/-! ## Whole token lists -/

/-- Why a token list is not one expression. -/
inductive ParseError where
  | balance (e : BalanceError)
  | read (e : ReadError)
  deriving DecidableEq, Repr

def ParseError.diagnostic : ParseError → Diagnostic
  | .balance e => e.diagnostic
  | .read e => e.diagnostic

namespace Expr

/-- The single expression that the tokens hold, nested no deeper than the limit. -/
def parse (limit : Int) (ts : List Token) : Except ParseError Expr :=
  match Token.checkBalance ts with
  | .error e => .error (.balance e)
  | .ok () =>
    match build (effectiveLimit limit) ts with
    | (.error e, _) => .error (.read e)
    | (.ok e, []) => .ok e
    | (.ok _, t :: rest) => .error (.read (.leftover (t :: rest).length))

/-- The expression that a source text holds, under the default limit. -/
def ofText (source : String) : Except ParseError Expr :=
  parse 0 (Token.ofText source)

end Expr

end FormLang
