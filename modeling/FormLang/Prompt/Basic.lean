import FormLang.Help
import FormLang.Program
import FormLang.Prompt.Reading
import FormLang.Text.Pieces

/-!
# The prompt

A session at a prompt reads a statement, evaluates it, shows the outcome and asks again. Whoever owns the terminal asks
with `Prompt.asks`, passes what arrives to `Prompt.step`, and prints the turn, until a turn comes with an exit status.
`Prompt.run` does so for a script of inputs.
-/

namespace FormLang

/-! ## Commands -/

inductive PromptCommand where
  | leave
  | showChanges
  | help (topic : Option String)
  | unknown
  deriving DecidableEq, Repr

/-- The command of a line, by its first word in any case. Words beyond the topic of a help command are ignored. -/
def PromptCommand.ofText (text : String) : PromptCommand :=
  match Text.words text with
  | [] => .unknown
  | word :: rest =>
    let word := Text.lower word
    if word = ":quit" || word = ":q" || word = ":exit" then .leave
    else if word = ":env" then .showChanges
    else if word = ":help" then .help rest.head?
    else .unknown

/-- What has changed in the global scope, a line for each name. -/
def Session.changes (s : Session) : String :=
  String.join (s.changed.map fun (name, v) => printLine (name ++ " = " ++ v.listed))

/-- What a help command shows. -/
def Help.answer : Option String → String
  | none => quickReference
  | some asked =>
    match find asked with
    | .ok topic => topic.text
    | .error e => printLine e.message

/-! ## Turns -/

/-- One request for input, and what was printed and recorded before the next. -/
structure Turn where
  prompt : String
  out : String
  err : String
  /-- What goes into the history. -/
  recorded : Option String
  deriving DecidableEq, Repr

/-- A turn that prints nothing. -/
def Turn.silent (prompt : String) : Turn :=
  ⟨prompt, "", "", none⟩

namespace Dialogue

/-- The prompts that were shown. -/
def prompts (turns : List Turn) : List String :=
  turns.map (·.prompt)

/-- What was printed, the prompts aside. -/
def out (turns : List Turn) : String :=
  String.join (turns.map (·.out))

/-- What was printed, each prompt before what follows it. -/
def shown (turns : List Turn) : String :=
  String.join (turns.map fun t => t.prompt ++ t.out)

def err (turns : List Turn) : String :=
  String.join (turns.map (·.err))

def history (turns : List Turn) : List String :=
  turns.filterMap (·.recorded)

end Dialogue

/-! ## The prompt -/

structure Prompt where
  session : Session
  gatherer : Gatherer
  /-- The text shown when nothing is pending. -/
  fresh : String
  /-- Whether values and failures are shown as text. -/
  pretty : Bool

namespace Prompt

def start (session : Session) (fresh : String) (pretty : Bool) : Prompt :=
  ⟨session, .empty, fresh, pretty⟩

def asks (p : Prompt) : String :=
  p.gatherer.asks p.fresh

/-- Carries out a command. If this ends the prompt, there is an exit status. -/
def obey (p : Prompt) (shown : String) : PromptCommand → Turn × Option ExitStatus
  | .leave => (.silent shown, some .ok)
  | .showChanges => (⟨shown, p.session.changes, "", none⟩, none)
  | .help topic => (⟨shown, Help.answer topic, "", none⟩, none)
  | .unknown => (⟨shown, printLine "unknown command. Type :help for help or :quit to exit.", "", none⟩, none)

/-- Evaluates a statement. It is recorded on one line. -/
def evaluate (p : Prompt) (shown text : String) : Prompt × Turn :=
  let recorded := some (Text.substitute '\n' ' ' text)
  match p.session.evaluate text with
  | (s, .ok v) => ({ p with session := s }, ⟨shown, printLine (v.render p.pretty), "", recorded⟩)
  | (s, .error e) =>
    ({ p with session := s }, ⟨shown, "", printLine (e.diagnostic.render p.pretty), recorded⟩)

/-- Takes one input. If this ends the prompt, there is an exit status. -/
def step (p : Prompt) (i : Input) : Prompt × Turn × Option ExitStatus :=
  match p.gatherer.accept i with
  | (.again, g) => ({ p with gatherer := g }, .silent p.asks, none)
  | (.stop, g) => ({ p with gatherer := g }, ⟨p.asks, "\n", "", none⟩, some .ok)
  | (.statement text, g) =>
    let q := { p with gatherer := g }
    if Text.startsWith ":" text then (q, q.obey p.asks (.ofText text))
    else
      match q.evaluate p.asks text with
      | (q, turn) => (q, turn, none)

/-- Takes the inputs of a script and then its end, until the prompt ends. What was pending at the end of the script is taken
first, so the end is told twice at most. -/
def run (p : Prompt) : List Input → Prompt × List Turn × Option ExitStatus
  | [] =>
    match p.step .ended with
    | (q, turn, some status) => (q, [turn], some status)
    | (q, turn, none) =>
      match q.step .ended with
      | (q, last, status) => (q, [turn, last], status)
  | i :: rest =>
    match p.step i with
    | (q, turn, some status) => (q, [turn], some status)
    | (q, turn, none) =>
      match q.run rest with
      | (q, turns, status) => (q, turn :: turns, status)

/-! ### The end -/

theorem step_of_again {p : Prompt} {i : Input} {g : Gatherer} (h : p.gatherer.accept i = (.again, g)) :
    p.step i = ({ p with gatherer := g }, .silent p.asks, none) := by
  rw [step, h]

theorem step_of_stop {p : Prompt} {i : Input} {g : Gatherer} (h : p.gatherer.accept i = (.stop, g)) :
    p.step i = ({ p with gatherer := g }, ⟨p.asks, "\n", "", none⟩, some .ok) := by
  rw [step, h]

theorem step_of_statement {p : Prompt} {i : Input} {g : Gatherer} {text : String}
    (h : p.gatherer.accept i = (.statement text, g)) (htext : Text.startsWith ":" text = false) :
    p.step i =
      (({ p with gatherer := g }.evaluate p.asks text).1, ({ p with gatherer := g }.evaluate p.asks text).2, none) := by
  rw [step, h]
  simp only [htext, Bool.false_eq_true, if_false]

theorem step_of_command {p : Prompt} {i : Input} {g : Gatherer} {text : String}
    (h : p.gatherer.accept i = (.statement text, g)) (htext : Text.startsWith ":" text = true) :
    p.step i = ({ p with gatherer := g }, { p with gatherer := g }.obey p.asks (.ofText text)) := by
  rw [step, h]
  simp only [htext, if_true]

theorem evaluate_fst (p : Prompt) (shown text : String) :
    (p.evaluate shown text).1 = { p with session := (p.session.evaluate text).1 } := by
  rw [evaluate]
  rcases p.session.evaluate text with ⟨s, err | v⟩ <;> rfl

/-- The lines that an input leaves pending do not depend on what it does. -/
theorem gatherer_step (p : Prompt) (i : Input) : (p.step i).1.gatherer = (p.gatherer.accept i).2 := by
  rcases h : p.gatherer.accept i with ⟨_ | text | _, g⟩
  · rw [step_of_again h]
  · cases htext : Text.startsWith ":" text with
    | true => rw [step_of_command h htext]
    | false => rw [step_of_statement h htext, evaluate_fst]
  · rw [step_of_stop h]

/-- The prompt ends well if it ends. -/
theorem status_step (p : Prompt) (i : Input) : (p.step i).2.2 = none ∨ (p.step i).2.2 = some .ok := by
  rcases h : p.gatherer.accept i with ⟨_ | text | _, g⟩
  · rw [step_of_again h]
    exact .inl rfl
  · cases htext : Text.startsWith ":" text with
    | true =>
      rw [step_of_command h htext]
      cases PromptCommand.ofText text with
      | leave => exact .inr rfl
      | _ => exact .inl rfl
    | false =>
      rw [step_of_statement h htext]
      exact .inl rfl
  · rw [step_of_stop h]
    exact .inr rfl

/-- If the prompt goes on at the end, because lines were pending, then nothing is pending any more and the end ends it. -/
theorem status_step_ended {p : Prompt} (hon : (p.step .ended).2.2 = none) :
    ((p.step .ended).1.step .ended).2.2 = some .ok := by
  rcases hflush : p.gatherer.flush with ⟨_ | text, g⟩
  · have hstop : p.gatherer.accept .ended = (.stop, g) := by rw [Gatherer.accept, hflush]
    rw [step_of_stop hstop] at hon
    cases hon
  · have hgatherer : (p.step .ended).1.gatherer = g := by rw [gatherer_step, Gatherer.accept, hflush]
    have hstop : (p.step .ended).1.gatherer.accept .ended = (.stop, g) := by
      rw [hgatherer, Gatherer.accept, Gatherer.flush_of_flush hflush]
    rw [step_of_stop hstop]

theorem run_nil (p : Prompt) :
    p.run [] =
      if (p.step .ended).2.2 = none then
        (((p.step .ended).1.step .ended).1, [(p.step .ended).2.1, ((p.step .ended).1.step .ended).2.1],
          ((p.step .ended).1.step .ended).2.2)
      else ((p.step .ended).1, [(p.step .ended).2.1], (p.step .ended).2.2) := by
  rw [run]
  rcases p.step .ended with ⟨q, turn, _ | status⟩ <;> rfl

theorem run_cons (p : Prompt) (i : Input) (rest : List Input) :
    p.run (i :: rest) =
      if (p.step i).2.2 = none then
        (((p.step i).1.run rest).1, (p.step i).2.1 :: ((p.step i).1.run rest).2.1, ((p.step i).1.run rest).2.2)
      else ((p.step i).1, [(p.step i).2.1], (p.step i).2.2) := by
  rw [run]
  rcases p.step i with ⟨q, turn, _ | status⟩ <;> rfl

/-- Every script ends the prompt, and it ends well. -/
theorem status_run (p : Prompt) (script : List Input) : (p.run script).2.2 = some .ok := by
  induction script generalizing p with
  | nil =>
    rw [run_nil]
    by_cases hon : (p.step .ended).2.2 = none
    · rw [if_pos hon]
      exact status_step_ended hon
    · rw [if_neg hon]
      exact (p.status_step .ended).resolve_left hon
  | cons i rest ih =>
    rw [run_cons]
    by_cases hon : (p.step i).2.2 = none
    · rw [if_pos hon]
      exact ih (p.step i).1
    · rw [if_neg hon]
      exact (p.status_step i).resolve_left hon

/-- The turns of a script, and the status with which it ends the prompt. -/
def dialogue (p : Prompt) (script : List Input) : List Turn × ExitStatus :=
  let r := p.run script
  (r.2.1, r.2.2.get (by simp [r, p.status_run script]))

end Prompt

end FormLang
