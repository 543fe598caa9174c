import FormLang.Statement
import FormLang.Text.Blank
import FormLang.Text.Replace

/-!
# Reading statements from a prompt

Lines are asked for until they make a statement. A line that begins with a colon, when nothing is pending, is a command to
the prompt itself and stands alone. An interrupt discards what is pending.
-/

namespace FormLang

/-- What arrives when a line is asked for. -/
inductive Input where
  | line (text : String)
  /-- The pending lines are to be discarded. -/
  | interrupt
  /-- Nothing can be read any more. -/
  | failure
  /-- The end of the input. -/
  | ended
  deriving DecidableEq, Repr

/-- What an input leads to. -/
inductive Reply where
  | again
  | statement (text : String)
  | stop
  deriving DecidableEq, Repr

def Reply.statement? : Reply → Option String
  | .statement text => some text
  | _ => none

/-- Whether a line is a command to the prompt. -/
def isCommand (line : String) : Bool :=
  Text.startsWith ":" (Text.trim line)

def continuationPrompt : String :=
  "...> "

namespace Gatherer

/-- The prompt to show: the given one, or the one for a statement that goes on. -/
def asks (g : Gatherer) (fresh : String) : String :=
  if g.isPending then continuationPrompt else fresh

/-- Takes one input. At the end of the input the pending lines are a statement, complete or not. -/
def accept (g : Gatherer) : Input → Reply × Gatherer
  | .interrupt => (.again, g.reset)
  | .failure => (.stop, g)
  | .ended =>
    match g.flush with
    | (some text, g) => (.statement text, g)
    | (none, g) => (.stop, g)
  | .line line =>
    if !g.isPending && isCommand line then (.statement (Text.trim line), g)
    else
      match g.feed line with
      | (some text, g) => (.statement text, g)
      | (none, g) => (.again, g)

end Gatherer

/-- One statement read from a script. -/
structure Reading where
  /-- The statement, or nothing when the reading stopped without one. -/
  statement : Option String
  gatherer : Gatherer
  /-- The inputs that are left. -/
  rest : List Input
  /-- The prompts shown, one for each input asked for. -/
  prompts : List String

/-- Reads up to the next statement. Past its last input a script has ended. -/
def readStatement (fresh : String) (g : Gatherer) : List Input → Reading
  | [] =>
    match g.accept .ended with
    | (reply, h) => ⟨reply.statement?, h, [], [g.asks fresh]⟩
  | i :: rest =>
    match g.accept i with
    | (.again, h) =>
      let r := readStatement fresh h rest
      { r with prompts := g.asks fresh :: r.prompts }
    | (reply, h) => ⟨reply.statement?, h, rest, [g.asks fresh]⟩

/-- Reads statements until one fails to come: the statements, and the prompts shown. A statement that was pending at the
end is followed by one more request. -/
def readAll (fresh : String) (g : Gatherer) : List Input → List String × List String
  | [] =>
    match g.accept .ended with
    | (.statement text, h) => ([text], [g.asks fresh, h.asks fresh])
    | _ => ([], [g.asks fresh])
  | i :: rest =>
    match g.accept i with
    | (.again, h) =>
      match readAll fresh h rest with
      | (texts, prompts) => (texts, g.asks fresh :: prompts)
    | (.statement text, h) =>
      match readAll fresh h rest with
      | (texts, prompts) => (text :: texts, g.asks fresh :: prompts)
    | (.stop, _) => ([], [g.asks fresh])

theorem Gatherer.flush_of_flush {g h : Gatherer} {text : String} (w : g.flush = (some text, h)) :
    h.flush = (none, h) := by
  unfold Gatherer.flush at w
  split at w
  · cases w
    simp [Gatherer.flush, Gatherer.reset, Gatherer.isPending]
  · cases w

/-- Reading all statements is reading one after another until none comes. -/
theorem readAll_eq_readStatement (fresh : String) (g : Gatherer) (script : List Input) :
    readAll fresh g script =
      match readStatement fresh g script with
      | ⟨none, _, _, prompts⟩ => ([], prompts)
      | ⟨some text, h, rest, prompts⟩ =>
        (text :: (readAll fresh h rest).1, prompts ++ (readAll fresh h rest).2) := by
  induction script generalizing g with
  | nil =>
    rcases w : g.flush with ⟨_ | text, h⟩
    · simp [readAll, readStatement, Gatherer.accept, Reply.statement?, w]
    · simp [readAll, readStatement, Gatherer.accept, Reply.statement?, w, Gatherer.flush_of_flush w]
  | cons i rest ih =>
    rcases w : g.accept i with ⟨_ | text | _, h⟩
    · simp only [readAll, readStatement, w, ih]
      rcases readStatement fresh h rest with ⟨_ | text, k, rest, prompts⟩ <;> simp
    · simp [readAll, readStatement, Reply.statement?, w]
    · simp [readAll, readStatement, Reply.statement?, w]

end FormLang
