import FormLang.Prompt.Basic
import FormLang.Proofs.Program.Append
import FormLang.Proofs.Program.Print
import FormLang.Proofs.Session.Failure

/-!
# A script at the prompt and in a file

The prompt and a run of a source take lines in different ways: the prompt reads one line at a time, looks for commands, and
hands over at the end what is still pending; the run cuts the source into statements first. On a script without commands
the two agree (`Prompt.run_eq_run_source`).

What the prompt evaluates is said for all scripts first (`Prompt.evaluated`): the session is the one after these texts
(`session_run`), and these texts are recorded (`history_run`). Then a script is followed line by line beside
`Statement.ofLines`, with the lines that the gatherer keeps (`Gatherer.Keeps`) as the invariant.
-/

namespace FormLang

/-! ## What the prompt evaluates -/

namespace Prompt

/-- The text that is evaluated when this input arrives. -/
def evaluates (p : Prompt) (i : Input) : Option String :=
  match p.gatherer.accept i with
  | (.statement text, _) => if Text.startsWith ":" text then none else some text
  | _ => none

/-- The texts that are evaluated in a script, in order. -/
def evaluated (p : Prompt) : List Input → List String
  | [] =>
    (p.evaluates .ended).toList ++
      if (p.step .ended).2.2 = none then ((p.step .ended).1.evaluates .ended).toList else []
  | i :: rest => (p.evaluates i).toList ++ if (p.step i).2.2 = none then (p.step i).1.evaluated rest else []

/-! ### Steps -/

theorem recorded_evaluate (p : Prompt) (shown text : String) :
    (p.evaluate shown text).2.recorded = some (Text.substitute '\n' ' ' text) := by
  rw [evaluate]
  rcases p.session.evaluate text with ⟨s, err | v⟩ <;> rfl

theorem recorded_obey (p : Prompt) (shown : String) (c : PromptCommand) : (p.obey shown c).1.recorded = none := by
  cases c <;> rfl

/-- An input has no other effect on the session than that its text is evaluated. -/
theorem session_step (p : Prompt) (i : Input) : (p.step i).1.session = p.session.after (p.evaluates i).toList := by
  rw [evaluates]
  rcases h : p.gatherer.accept i with ⟨_ | text | _, g⟩
  · rw [step_of_again h]
    rfl
  · by_cases htext : Text.startsWith ":" text = true
    · simp only [step_of_command h htext, htext, if_true]
      rfl
    · rw [Bool.not_eq_true] at htext
      simp only [step_of_statement h htext, htext, Bool.false_eq_true, if_false, evaluate_fst]
      rfl
  · rw [step_of_stop h]
    rfl

/-- What is evaluated is recorded, on one line, and nothing else. -/
theorem recorded_step (p : Prompt) (i : Input) :
    (p.step i).2.1.recorded = (p.evaluates i).map (Text.substitute '\n' ' ') := by
  rw [evaluates]
  rcases h : p.gatherer.accept i with ⟨_ | text | _, g⟩
  · rw [step_of_again h]
    rfl
  · by_cases htext : Text.startsWith ":" text = true
    · simp only [step_of_command h htext, htext, if_true, recorded_obey]
      rfl
    · rw [Bool.not_eq_true] at htext
      simp only [step_of_statement h htext, htext, Bool.false_eq_true, if_false, recorded_evaluate]
      rfl
  · rw [step_of_stop h]
    rfl

end Prompt

/-! ### Runs -/

theorem Session.after_append (s : Session) (texts more : List String) :
    s.after (texts ++ more) = (s.after texts).after more :=
  List.foldl_append

theorem Session.runAll_fst (s : Session) (sts : List Statement) : (s.runAll sts).1 = s.after (sts.map (·.text)) := by
  induction sts generalizing s with
  | nil => rfl
  | cons st rest ih => exact ih (s.evaluate st.text).1

theorem Dialogue.out_cons (turn : Turn) (turns : List Turn) : out (turn :: turns) = turn.out ++ out turns :=
  String.join_cons

theorem Dialogue.err_cons (turn : Turn) (turns : List Turn) : err (turn :: turns) = turn.err ++ err turns :=
  String.join_cons

theorem Dialogue.history_cons (turn : Turn) (turns : List Turn) :
    history (turn :: turns) = turn.recorded.toList ++ history turns := by
  rw [history, List.filterMap_cons]
  cases turn.recorded <;> rfl

namespace Prompt

theorem session_run (p : Prompt) (script : List Input) : (p.run script).1.session = p.session.after (p.evaluated script) := by
  induction script generalizing p with
  | nil =>
    rw [run_nil, evaluated]
    by_cases hon : (p.step .ended).2.2 = none
    · rw [if_pos hon, if_pos hon, Session.after_append, session_step, session_step]
    · rw [if_neg hon, if_neg hon, List.append_nil, session_step]
  | cons i rest ih =>
    rw [run_cons, evaluated]
    by_cases hon : (p.step i).2.2 = none
    · rw [if_pos hon, if_pos hon, Session.after_append, ← session_step, ← ih]
    · rw [if_neg hon, if_neg hon, List.append_nil, session_step]

theorem history_run (p : Prompt) (script : List Input) :
    Dialogue.history (p.run script).2.1 = (p.evaluated script).map (Text.substitute '\n' ' ') := by
  induction script generalizing p with
  | nil =>
    rw [run_nil, evaluated]
    by_cases hon : (p.step .ended).2.2 = none
    · rw [if_pos hon, if_pos hon, Dialogue.history_cons, Dialogue.history_cons, recorded_step, recorded_step,
        List.map_append, Option.toList_map, Option.toList_map]
      exact congrArg _ (List.append_nil _)
    · rw [if_neg hon, if_neg hon, Dialogue.history_cons, recorded_step, List.map_append, Option.toList_map]
      rfl
  | cons i rest ih =>
    rw [run_cons, evaluated]
    by_cases hon : (p.step i).2.2 = none
    · rw [if_pos hon, if_pos hon, Dialogue.history_cons, recorded_step, ih, List.map_append, Option.toList_map]
    · rw [if_neg hon, if_neg hon, Dialogue.history_cons, recorded_step, List.map_append, Option.toList_map]
      rfl

end Prompt

/-! ## What is reported -/

namespace Result

/-- The failures, each on a line and without a location. -/
def report (pretty : Bool) (results : List Result) : String :=
  String.join ((failures results).map fun failure => printLine (failure.2.diagnostic.render pretty))

theorem report_cons (pretty : Bool) (r : Result) (rest : List Result) :
    report pretty (r :: rest) = report pretty [r] ++ report pretty rest := by
  rcases r with ⟨st, err | v⟩
  · simp only [report, failures, List.map_cons, List.map_nil, String.join_cons, String.join_nil, String.append_empty]
  · simp only [report, failures, List.map_nil, String.join_nil, String.empty_append]

end Result

/-! ## Scripts without commands -/

namespace Text

theorem startsWith_colon_iff (s : String) : startsWith ":" s = true ↔ s.toList.head? = some ':' := by
  have hword : ":".toList = [':'] := rfl
  rw [startsWith, hword]
  cases s.toList with
  | nil => simp [stripStart?]
  | cons c cs => simpa [stripStart?] using (eq_comm : ':' = c ↔ c = ':')

/-- Only the first line decides what a text begins with. -/
theorem startsWith_colon_unlines (l : String) (ls : List String) :
    startsWith ":" (unlines (l :: ls)) = startsWith ":" l := by
  cases ls with
  | nil => rw [unlines, String.intercalate_singleton]
  | cons l' ls =>
    rw [Bool.eq_iff_iff, startsWith_colon_iff, startsWith_colon_iff, unlines, String.intercalate_cons_cons,
      String.toList_append, String.toList_append]
    cases l.toList with
    | nil => simp
    | cons c cs => simp

theorem startsWith_colon_trim {s : String} (h : startsWith ":" s = true) : startsWith ":" (trim s) = true := by
  rw [startsWith_colon_iff] at h ⊢
  obtain ⟨cs, hcs⟩ : ∃ cs, s.toList = ':' :: cs := by
    cases hchars : s.toList with
    | nil => simp [hchars] at h
    | cons c cs => exact ⟨cs, by simpa [hchars] using h⟩
  have hcolon : isBlank ':' = false := by decide
  have hstart : trimStart (':' :: cs) = ':' :: cs := List.dropWhile_cons_of_neg (by simp [hcolon])
  have hend : trimStart (':' :: cs).reverse = trimStart cs.reverse ++ [':'] := by
    rw [List.reverse_cons, trimStart, List.dropWhile_append, trimStart]
    split
    · rename_i hempty
      rw [List.isEmpty_iff.mp hempty]
      exact List.dropWhile_cons_of_neg (by simp [hcolon])
    · rfl
  rw [trim, String.toList_ofList, hcs, trimChars, hstart, hend, List.reverse_append]
  rfl

end Text

theorem startsWith_colon_of_not_isCommand {line : String} (h : isCommand line = false) :
    Text.startsWith ":" line = false := by
  rw [← Bool.not_eq_true] at h ⊢
  exact fun hcolon => h (Text.startsWith_colon_trim hcolon)

/-- No line that arrives while nothing is pending is a command. -/
def Gatherer.commandFree (g : Gatherer) : List String → Bool
  | [] => true
  | line :: rest => (g.isPending || !isCommand line) && (g.feed line).2.commandFree rest

/-- What is pending does not begin like a command. -/
def Quiet (ls : List String) : Prop :=
  ∀ l ∈ ls.head?, Text.startsWith ":" l = false

theorem Quiet.concat {ls : List String} {line : String} (h : Quiet ls) (hline : ls = [] → isCommand line = false) :
    Quiet (ls ++ [line]) := by
  intro l hl
  cases ls with
  | nil =>
    obtain rfl : line = l := Option.some.inj hl
    exact startsWith_colon_of_not_isCommand (hline rfl)
  | cons l' ls => exact h l hl

theorem Quiet.unlines {ls : List String} (h : Quiet ls) (hne : ls ≠ []) :
    Text.startsWith ":" (Text.unlines ls) = false := by
  obtain ⟨l, rest, rfl⟩ := List.exists_cons_of_ne_nil hne
  rw [Text.startsWith_colon_unlines]
  exact h l rfl

namespace Prompt

/-- Over this script the prompt does what a run of these statements does. -/
structure Agrees (p : Prompt) (script : List Input) (sts : List Statement) : Prop where
  evaluated : p.evaluated script = sts.map (·.text)
  out : Dialogue.out (p.run script).2.1 = String.join ((p.session.runAll sts).2.map (Result.outLine p.pretty)) ++ "\n"
  err : Dialogue.err (p.run script).2.1 = Result.report p.pretty (p.session.runAll sts).2

namespace Agrees

variable {p : Prompt} {i : Input} {g : Gatherer} {rest : List Input} {sts : List Statement}

theorem again (h : p.gatherer.accept i = (.again, g)) (hrest : Agrees { p with gatherer := g } rest sts) :
    Agrees p (i :: rest) sts := by
  have hstep := step_of_again h
  refine ⟨?_, ?_, ?_⟩
  · rw [Prompt.evaluated, evaluates, h, hstep]
    exact hrest.evaluated
  · rw [run_cons, hstep, if_pos rfl, Dialogue.out_cons, hrest.out]
    exact String.empty_append
  · rw [run_cons, hstep, if_pos rfl, Dialogue.err_cons, hrest.err]
    exact String.empty_append

theorem statement {text : String} (h : p.gatherer.accept i = (.statement text, g))
    (htext : Text.startsWith ":" text = false) (n : Nat)
    (hrest : Agrees { p with session := (p.session.evaluate text).1, gatherer := g } rest sts) :
    Agrees p (i :: rest) (⟨n, text⟩ :: sts) := by
  have hstep := step_of_statement h htext
  rw [evaluate_fst] at hstep
  refine ⟨?_, ?_, ?_⟩
  · rw [Prompt.evaluated, evaluates, h, hstep]
    simp only [htext, Bool.false_eq_true, if_false, if_true, hrest.evaluated]
    rfl
  · rw [run_cons, hstep, if_pos rfl, Dialogue.out_cons, hrest.out, Session.runAll_cons, List.map_cons, String.join_cons,
      String.append_assoc]
    refine congrArg (· ++ _) ?_
    rw [evaluate, Result.outLine]
    rcases p.session.evaluate text with ⟨s, err | v⟩ <;> rfl
  · rw [run_cons, hstep, if_pos rfl, Dialogue.err_cons, hrest.err, Session.runAll_cons, Result.report_cons]
    refine congrArg (· ++ _) ?_
    rw [evaluate]
    rcases p.session.evaluate text with ⟨s, err | v⟩
    · rw [Result.report, Result.failures, Result.failures, List.map_singleton, String.join_cons, String.join_nil,
        String.append_empty]
    · rfl

/-- The end of the script stops the prompt when nothing is pending. -/
theorem stop (h : p.gatherer.accept .ended = (.stop, g)) : Agrees p [] [] := by
  have hstep := step_of_stop h
  refine ⟨?_, ?_, ?_⟩
  · rw [Prompt.evaluated, evaluates, h, hstep]
    rfl
  · rw [run_nil, hstep]
    rfl
  · rw [run_nil, hstep]
    rfl

/-- A prompt that goes on after the end of its script is told the end twice. -/
theorem of_ended (hon : (p.step .ended).2.2 = none) (h : Agrees p [.ended] sts) : Agrees p [] sts := by
  have hoff : ((p.step .ended).1.step .ended).2.2 ≠ none := by
    rw [status_step_ended hon]
    exact Option.some_ne_none _
  have hrun : p.run [] = p.run [.ended] := by
    rw [run_nil, if_pos hon, run_cons, if_pos hon, run_nil, if_neg hoff]
  refine ⟨?_, ?_, ?_⟩
  · rw [← h.evaluated, Prompt.evaluated, Prompt.evaluated, Prompt.evaluated, if_pos hon, if_pos hon, if_neg hoff,
      List.append_nil]
  · rw [hrun, h.out]
  · rw [hrun, h.err]

end Agrees

/-- **The lines of a script are followed as the statements of the lines are gathered.** -/
theorem agrees_lines {p : Prompt} {first : Nat} {kept : List String} (hkeeps : p.gatherer.Keeps first kept)
    (hquiet : Quiet kept) {lines : List String} (hfree : p.gatherer.commandFree lines = true) :
    Agrees p (lines.map .line) (Statement.ofLines p.gatherer lines) := by
  induction lines generalizing p first kept with
  | nil =>
    rw [Statement.ofLines, List.map_nil]
    rcases hkeeps.flush_cases with ⟨-, hflush⟩ | ⟨hne, g, hflush, -, hkeeps'⟩
    · have haccept : p.gatherer.accept .ended = (.stop, p.gatherer) := by rw [Gatherer.accept, hflush]
      rw [hflush]
      exact .stop haccept
    · have haccept : p.gatherer.accept .ended = (.statement (Text.unlines kept), g) := by rw [Gatherer.accept, hflush]
      have htext := hquiet.unlines hne
      -- What was pending is evaluated at the end, and the end comes once more.
      have hstop : g.accept .ended = (.stop, g) := by
        rw [Gatherer.accept, Gatherer.flush_of_flush hflush]
      have hstep := step_of_statement haccept htext
      rw [evaluate_fst] at hstep
      have hended : Agrees p [.ended] [⟨g.start, Text.unlines kept⟩] := .statement haccept htext g.start (.stop hstop)
      rw [hflush]
      refine .of_ended ?_ hended
      rw [hstep]
  | cons line rest ih =>
    rw [Gatherer.commandFree, Bool.and_eq_true] at hfree
    have hline : kept = [] → isCommand line = false := by
      intro hnil
      simpa [hkeeps.isPending_eq_false_iff.mpr hnil] using hfree.1
    have hplain : ¬ (!p.gatherer.isPending && isCommand line) = true := by
      rw [Bool.and_eq_true, Bool.not_eq_true', hkeeps.isPending_eq_false_iff]
      rintro ⟨hnil, hcommand⟩
      rw [hline hnil] at hcommand
      cases hcommand
    have hagain : ∀ g, p.gatherer.feed line = (none, g) → p.gatherer.accept (.line line) = (.again, g) := by
      intro g hg
      rw [Gatherer.accept, if_neg hplain, hg]
    have hrest := hfree.2
    rw [List.map_cons, Statement.ofLines]
    rcases hkeeps.feed_cases line with ⟨rfl, -, g, hg, hkeeps'⟩ | ⟨g, hg, hkeeps'⟩ | ⟨-, g, hg, -, hkeeps'⟩
    · have haccept := hagain g hg
      rw [hg] at hrest ⊢
      exact .again haccept (ih (p := { p with gatherer := g }) hkeeps' hquiet hrest)
    · have haccept := hagain g hg
      rw [hg] at hrest ⊢
      exact .again haccept (ih (p := { p with gatherer := g }) hkeeps' (hquiet.concat hline) hrest)
    · have haccept : p.gatherer.accept (.line line) = (.statement (Text.unlines (kept ++ [line])), g) := by
        rw [Gatherer.accept, if_neg hplain, hg]
      rw [hg] at hrest ⊢
      have htext := (hquiet.concat hline).unlines (by simp)
      have hquiet' : Quiet [] := fun l hl => by cases hl
      let next : Prompt := { p with session := (p.session.evaluate (Text.unlines (kept ++ [line]))).1, gatherer := g }
      have hnext : Agrees next (rest.map .line) (Statement.ofLines g rest) := ih (p := next) hkeeps' hquiet' hrest
      exact .statement haccept htext g.start hnext

end Prompt

/-! ## Sources -/

namespace Statement

theorem join_map_printLine {lines : List String} (hne : lines ≠ []) :
    String.join (lines.map printLine) = Text.unlines lines ++ "\n" := by
  induction lines with
  | nil => exact absurd rfl hne
  | cons l rest ih =>
    rw [List.map_cons, String.join_cons, printLine]
    cases rest with
    | nil => rw [List.map_nil, String.join_nil, String.append_empty, Text.unlines, String.intercalate_singleton]
    | cons l' rest =>
      rw [ih (List.cons_ne_nil _ _), Text.unlines, Text.unlines, String.intercalate_cons_cons, ← String.append_assoc]

/-- Lines that were each ended by a line feed are found again. -/
theorem sourceLines_join {lines : List String} (hne : lines ≠ [])
    (hlines : ∀ l ∈ lines, '\n' ∉ l.toList ∧ l.toList.getLast? ≠ some '\r') :
    sourceLines (String.join (lines.map printLine)) = lines := by
  have hreturn : ∀ l ∈ lines, Text.dropFinal '\r' l = l := by
    intro l hl
    rcases Text.dropFinal_cases '\r' l with heq | heq
    · exact heq
    · refine absurd ?_ (hlines l hl).2
      rw [heq, String.toList_append, String.toList_singleton]
      exact List.getLast?_concat
  have hfinal : Text.dropFinal '\n' (Text.unlines lines ++ "\n") = Text.unlines lines := Text.dropFinal_append '\n' _
  rw [sourceLines, join_map_printLine hne, hfinal, Text.lines_unlines hne fun l hl => (hlines l hl).1]
  exact (List.map_congr_left hreturn).trans (List.map_id lines)

theorem ofSource_join {lines : List String} (hlines : ∀ l ∈ lines, '\n' ∉ l.toList ∧ l.toList.getLast? ≠ some '\r') :
    ofSource (String.join (lines.map printLine)) = ofLines .empty lines := by
  by_cases hne : lines = []
  · rw [hne]
    exact ofSource_empty
  · rw [ofSource, sourceLines_join hne hlines]

end Statement

/-- **A script at the prompt does what it does as a file.** The lines hold no line feeds and end in no carriage return, and
none of them is a command where a statement may begin. Then the prompt ends well, evaluates the statements of the source
with these lines, shows their values and an empty line, reports their failures without places, records their texts, and
leaves the session that a run of the source leaves. -/
theorem Prompt.run_eq_run_source {lines : List String}
    (hlines : ∀ l ∈ lines, '\n' ∉ l.toList ∧ l.toList.getLast? ≠ some '\r')
    (hfree : Gatherer.empty.commandFree lines = true) (s : Session) (fresh file : String) (pretty : Bool) :
    let source := String.join (lines.map printLine)
    let p := Prompt.start s fresh pretty
    let script := lines.map Input.line
    let results := (s.run source).2
    (p.run script).2.2 = some .ok ∧
    p.evaluated script = (Statement.ofSource source).map (·.text) ∧
    Dialogue.out (p.run script).2.1 = (Result.print results file pretty).out ++ "\n" ∧
    Dialogue.err (p.run script).2.1 =
      String.join ((Result.failures results).map fun failure => printLine (failure.2.diagnostic.render pretty)) ∧
    (Result.print results file pretty).err =
      String.join ((Result.failures results).map fun failure =>
        printLine ((failure.2.diagnostic.locate file failure.1.line).render pretty)) ∧
    Dialogue.history (p.run script).2.1 =
      (Statement.ofSource source).map (fun st => Text.substitute '\n' ' ' st.text) ∧
    (p.run script).1.session = (s.run source).1 := by
  intro source p script results
  have hsource : Statement.ofSource source = Statement.ofLines .empty lines := Statement.ofSource_join hlines
  have hquiet : Quiet [] := fun l hl => by cases hl
  have hagrees : p.Agrees script (Statement.ofSource source) := by
    rw [hsource]
    exact Prompt.agrees_lines (p := p) Gatherer.keeps_empty hquiet hfree
  have hout : Dialogue.out (p.run script).2.1 = (Result.print results file pretty).out ++ "\n" := by
    have hresults : (p.session.runAll (Statement.ofSource source)).2 = results := rfl
    have hpretty : p.pretty = pretty := rfl
    rw [hagrees.out, hresults, hpretty, Result.print]
  refine ⟨p.status_run script, hagrees.evaluated, hout, hagrees.err, Result.err_print results file pretty, ?_, ?_⟩
  · rw [Prompt.history_run, hagrees.evaluated, List.map_map]
    rfl
  · rw [Prompt.session_run, hagrees.evaluated, Session.run, Session.runAll_fst]
    rfl

/-- A line with a colon inside a form, a stray parenthesis, and a form that is never closed. -/
theorem Prompt.run_eq_run_source_colon :
    Gatherer.empty.commandFree ["(f", ":a)", ")", "(g"] = true ∧
    ((Prompt.start (.fresh 0) "> " true).run [.line "(f", .line ":a)", .line ")", .line "(g"]).2.2 = some .ok ∧
    (Prompt.start (.fresh 0) "> " true).evaluated [.line "(f", .line ":a)", .line ")", .line "(g"] =
      (Statement.ofSource "(f\n:a)\n)\n(g\n").map (·.text) := by
  have hfree : Gatherer.empty.commandFree ["(f", ":a)", ")", "(g"] = true := by rfl
  have hlines : ∀ l ∈ ["(f", ":a)", ")", "(g"], '\n' ∉ l.toList ∧ l.toList.getLast? ≠ some '\r' := by decide
  obtain ⟨hexit, hevaluated, -⟩ := Prompt.run_eq_run_source hlines hfree (.fresh 0) "> " "a" true
  exact ⟨hfree, hexit, hevaluated⟩

end FormLang
