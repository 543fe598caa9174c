import FormLang.Diagnostic
import FormLang.Token.Basic

/-!
# Balance

A token list is balanced when it is exactly one parenthesised form. The check runs before any expression is built.
A second, weaker check looks at the net depth only.
-/

namespace FormLang

/-- Why a token list is not one form. Positions count tokens from one. -/
inductive BalanceError where
  | empty
  | notOpened (tokens : List Token)
  | notClosed
  | strayClose (position : Nat)
  | closedEarly (position : Nat)
  | unclosed (count : Nat)
  | offBy (depth : Int)
  deriving DecidableEq, Repr

namespace BalanceError

def code : BalanceError → Code
  | .empty => .emptyInput
  | .notOpened _ | .notClosed => .missingOuterParens
  | _ => .mismatchedParens

def message : BalanceError → String
  | .empty => "empty input"
  | .notOpened _ => "expression must start with '('"
  | .notClosed => "expression must end with ')'"
  | .strayClose p => "unexpected ')' at token " ++ Decimal.ofNat p
  | .closedEarly p => "unexpected tokens after the closing ')' at token " ++ Decimal.ofNat p
  | .unclosed n => Decimal.ofNat n ++ " unclosed '('"
  | .offBy d => "parenthesis count is off by " ++ Decimal.ofInt d

/-- At most eight tokens, with a mark that there are more. -/
def excerpt (ts : List Token) : String :=
  " ".intercalate (ts.take 8) ++ (if 8 < ts.length then " ..." else "")

def hint : BalanceError → String
  | .notOpened ts => "wrap the input as (" ++ excerpt ts ++ ")"
  | .closedEarly _ => "evaluate one expression at a time"
  | _ => ""

def diagnostic (e : BalanceError) : Diagnostic :=
  ⟨e.code, e.message, none, e.hint⟩

end BalanceError

namespace Token

/-- The first token opens and the last one closes. -/
def checkOuter (ts : List Token) : Except BalanceError Unit :=
  match ts with
  | [] => .error .empty
  | t :: _ =>
    if t ≠ opening then .error (.notOpened ts)
    else if ts.getLast? ≠ some closing then .error .notClosed
    else .ok ()

/-- Scans tokens from a position on, with so many parentheses open. Only the last token may close the outermost one. -/
def scanBalance (position opened : Nat) : List Token → Except BalanceError Unit
  | [] => if opened = 0 then .ok () else .error (.unclosed opened)
  | t :: ts =>
    if t = opening then scanBalance (position + 1) (opened + 1) ts
    else if t = closing then
      match opened with
      | 0 => .error (.strayClose position)
      | n + 1 =>
        if n = 0 && !ts.isEmpty then .error (.closedEarly position) else scanBalance (position + 1) n ts
    else scanBalance (position + 1) opened ts

/-- Accepts exactly one parenthesised form. -/
def checkBalance (ts : List Token) : Except BalanceError Unit := do
  checkOuter ts
  scanBalance 1 0 ts

/-- Looks at the ends and the net depth only, so it cannot see a form that closes early. -/
def checkSum (ts : List Token) : Except BalanceError Unit := do
  checkOuter ts
  if (depth ts).net = 0 then .ok () else .error (.offBy (depth ts).net)

end Token

end FormLang
