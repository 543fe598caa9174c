import FormLang.Decimal.Integer
import FormLang.Text.Lines
import FormLang.Token.Basic

/-!
# Statements

Lines are gathered until they hold a complete statement: until the parentheses balance, or as soon as one closes that was
never opened. The latter is handed over as it is, for the balance check to report.
-/

namespace FormLang

/-- Lines gathered so far. -/
structure Gatherer where
  /-- The pending lines, newest first. -/
  pending : List String
  /-- The depth of the pending lines. -/
  depth : Token.Depth
  /-- The number of the line on which the latest statement began; zero before the first. -/
  start : Nat
  /-- The number of the next line. -/
  next : Nat
  deriving DecidableEq, Repr

namespace Gatherer

def empty : Gatherer :=
  ⟨[], .start, 0, 1⟩

def isPending (g : Gatherer) : Bool :=
  !g.pending.isEmpty

/-- The pending lines as one text. -/
def text (g : Gatherer) : String :=
  Text.unlines g.pending.reverse

/-- Discards the pending lines. -/
def reset (g : Gatherer) : Gatherer :=
  { g with pending := [], depth := .start }

/-- Adds a line to the pending ones. -/
def push (g : Gatherer) (line : String) : Gatherer :=
  { pending := line :: g.pending
    depth := (Token.ofText line).foldl Token.Depth.next g.depth
    start := if g.isPending then g.start else g.next
    next := g.next + 1 }

/-- Whether more lines are needed. -/
def isOpen (g : Gatherer) : Bool :=
  0 < g.depth.net && 0 ≤ g.depth.low

/-- Adds a line. The result is the statement that it completes, if it does. Blank lines between statements are
dropped. -/
def feed (g : Gatherer) (line : String) : Option String × Gatherer :=
  if !g.isPending && Text.isBlankText line then (none, { g with next := g.next + 1 })
  else
    let g := g.push line
    if g.isOpen then (none, g) else (some g.text, g.reset)

/-- Hands over what is pending, complete or not. -/
def flush (g : Gatherer) : Option String × Gatherer :=
  if g.isPending then (some g.text, g.reset) else (none, g)

end Gatherer

/-- A statement and the line of the source on which it begins. -/
structure Statement where
  line : Nat
  text : String
  deriving DecidableEq, Repr

namespace Statement

/-- The statements of the lines, gathered on. -/
def ofLines (g : Gatherer) : List String → List Statement
  | [] =>
    match g.flush with
    | (some text, g) => [⟨g.start, text⟩]
    | (none, _) => []
  | line :: rest =>
    match g.feed line with
    | (some text, g) => ⟨g.start, text⟩ :: ofLines g rest
    | (none, g) => ofLines g rest

/-- The lines of a source: a final line feed ends the last one, and a carriage return before a line feed is dropped. -/
def sourceLines (source : String) : List String :=
  (Text.lines (Text.dropFinal '\n' source)).map (Text.dropFinal '\r')

/-- The statements of a source. -/
def ofSource (source : String) : List Statement :=
  ofLines .empty (sourceLines source)

end Statement

end FormLang
