import FormLang.Prompt.Reading
import FormLang.Proofs.Statement.Account

/-!
# Interrupts at the prompt

An interrupt discards what is pending and nothing else. A script of lines and interrupts falls into segments, each of which
an interrupt or the end of the input ends (`Input.ofSegments`). What feeding a line does depends only on the lines that are
kept (`Gatherer.Keeps.feed_eq`), and after an interrupt there are none, so each segment is read as by a fresh gatherer. The
statements that are read one after another are those that the segments complete, and what the last segment leaves unfinished
(`interrupts_discard_pending`).
-/

namespace FormLang

/-! ## Reading until no statement comes -/

section Replies

variable {fresh : String} {g h : Gatherer} {i : Input} {rest : List Input}

theorem readStatement_of_again {statement : Option String} {k : Gatherer} {left : List Input} {prompts : List String}
    (haccept : g.accept i = (.again, h)) (hread : readStatement fresh h rest = ⟨statement, k, left, prompts⟩) :
    readStatement fresh g (i :: rest) = ⟨statement, k, left, g.asks fresh :: prompts⟩ := by
  simp only [readStatement, haccept, hread]

theorem readStatement_of_statement {text : String} (haccept : g.accept i = (.statement text, h)) :
    readStatement fresh g (i :: rest) = ⟨some text, h, rest, [g.asks fresh]⟩ := by
  simp only [readStatement, haccept, Reply.statement?]

theorem readStatement_of_stop (haccept : g.accept i = (.stop, h)) :
    readStatement fresh g (i :: rest) = ⟨none, h, rest, [g.asks fresh]⟩ := by
  simp only [readStatement, haccept, Reply.statement?]

theorem readStatement_nil {reply : Reply} (haccept : g.accept .ended = (reply, h)) :
    readStatement fresh g [] = ⟨reply.statement?, h, [], [g.asks fresh]⟩ := by
  simp only [readStatement, haccept]

theorem readAll_of_again (haccept : g.accept i = (.again, h)) :
    readAll fresh g (i :: rest) = ((readAll fresh h rest).1, g.asks fresh :: (readAll fresh h rest).2) := by
  simp only [readAll, haccept]

theorem readAll_of_statement {text : String} (haccept : g.accept i = (.statement text, h)) :
    readAll fresh g (i :: rest) = (text :: (readAll fresh h rest).1, g.asks fresh :: (readAll fresh h rest).2) := by
  simp only [readAll, haccept]

theorem readAll_of_stop (haccept : g.accept i = (.stop, h)) : readAll fresh g (i :: rest) = ([], [g.asks fresh]) := by
  simp only [readAll, haccept]

theorem readAll_nil_of_none (hflush : g.flush = (none, h)) : readAll fresh g [] = ([], [g.asks fresh]) := by
  simp only [readAll, Gatherer.accept, hflush]

theorem readAll_nil_of_some {text : String} (hflush : g.flush = (some text, h)) :
    readAll fresh g [] = ([text], [g.asks fresh, h.asks fresh]) := by
  simp only [readAll, Gatherer.accept, hflush]

end Replies

/-- Statements are read one after another until none comes: these are the statements, and these prompts were shown. -/
inductive Reads (fresh : String) : Gatherer → List Input → List String → List String → Prop
  | stop {g h : Gatherer} {script rest : List Input} {prompts : List String}
    (hread : readStatement fresh g script = ⟨none, h, rest, prompts⟩) : Reads fresh g script [] prompts
  | next {g h : Gatherer} {script rest : List Input} {text : String} {shown texts prompts : List String}
    (hread : readStatement fresh g script = ⟨some text, h, rest, shown⟩) (hrest : Reads fresh h rest texts prompts) :
    Reads fresh g script (text :: texts) (shown ++ prompts)

namespace Reads

variable {fresh : String} {g h : Gatherer} {script rest : List Input} {texts prompts : List String}

/-- An input that completes no statement shows its prompt, and the same call goes on. -/
theorem again {i : Input} (haccept : g.accept i = (.again, h)) (hreads : Reads fresh h rest texts prompts) :
    Reads fresh g (i :: rest) texts (g.asks fresh :: prompts) := by
  cases hreads with
  | stop hread => exact .stop (readStatement_of_again haccept hread)
  | next hread hrest => exact .next (readStatement_of_again haccept hread) hrest

theorem of_readAll (fresh : String) (g : Gatherer) (script : List Input) :
    Reads fresh g script (readAll fresh g script).1 (readAll fresh g script).2 := by
  induction script generalizing g with
  | nil =>
    rcases hflush : g.flush with ⟨_ | text, h⟩
    · have haccept : g.accept .ended = (.stop, h) := by rw [Gatherer.accept, hflush]
      rw [readAll_nil_of_none hflush]
      exact .stop (readStatement_nil haccept)
    · have haccept : g.accept .ended = (.statement text, h) := by rw [Gatherer.accept, hflush]
      have hended : h.accept .ended = (.stop, h) := by rw [Gatherer.accept, Gatherer.flush_of_flush hflush]
      rw [readAll_nil_of_some hflush]
      exact .next (readStatement_nil haccept) (.stop (readStatement_nil hended))
  | cons i rest ih =>
    rcases haccept : g.accept i with ⟨_ | text | _, h⟩
    · rw [readAll_of_again haccept]
      exact again haccept (ih h)
    · rw [readAll_of_statement haccept]
      exact .next (readStatement_of_statement haccept) (ih h)
    · rw [readAll_of_stop haccept]
      exact .stop (readStatement_of_stop haccept)

theorem readAll_eq (hreads : Reads fresh g script texts prompts) : readAll fresh g script = (texts, prompts) := by
  induction hreads with
  | stop hread => rw [readAll_eq_readStatement, hread]
  | next hread _ ih =>
    rw [readAll_eq_readStatement, hread]
    simp only [ih]

end Reads

/-- Reading one after another is reading all. -/
theorem reads_iff {fresh : String} {g : Gatherer} {script : List Input} {texts prompts : List String} :
    Reads fresh g script texts prompts ↔ readAll fresh g script = (texts, prompts) := by
  refine ⟨Reads.readAll_eq, fun hall => ?_⟩
  have hreads := Reads.of_readAll fresh g script
  rwa [hall] at hreads

/-! ## Lines that are kept -/

instance (ls : List String) : Decidable (Unfinished ls) :=
  inferInstanceAs (Decidable (_ ∧ _))

/-- The lines that are kept after one more. -/
def keptWith (kept : List String) (line : String) : List String :=
  if Unfinished (kept ++ [line]) then kept ++ [line] else []

/-- The lines since the last statement that was completed, if they leave a statement pending. -/
def unfinishedLines (ls : List String) : List String :=
  ls.foldl keptWith []

/-- The statement that a line completes. -/
def completedBy (kept : List String) (line : String) : Option String :=
  if Unfinished (kept ++ [line]) ∨ (kept = [] ∧ Text.isBlankText line = true) then none
  else some (Text.unlines (kept ++ [line]))

namespace Gatherer

/-- The texts of the statements that the lines complete. -/
def completed (g : Gatherer) (ls : List String) : List String :=
  (g.returned (ls.map .feed)).map (·.2.text)

theorem completed_cons (g : Gatherer) (line : String) (ls : List String) :
    g.completed (line :: ls) = (g.feed line).1.toList ++ (g.feed line).2.completed ls := by
  rw [completed, completed, List.map_cons, returned, answer]
  rcases g.feed line with ⟨_ | text, h⟩ <;> rfl

namespace Keeps

variable {g : Gatherer} {first : Nat} {kept : List String} (hkeeps : g.Keeps first kept)

include hkeeps

/-- What feeding a line does depends only on the lines that are kept. -/
theorem feed_eq (line : String) :
    (g.feed line).1 = completedBy kept line ∧ ∃ first', (g.feed line).2.Keeps first' (keptWith kept line) := by
  rcases hkeeps.feed_cases line with ⟨rfl, hblank, g', hfeed, hkeeps'⟩ | ⟨g', hfeed, hkeeps'⟩ |
    ⟨⟨htokens, hclosed, -⟩, g', hfeed, -, hkeeps'⟩
  · have hclosed : ¬ Unfinished ([] ++ [line]) := fun hopen =>
      hopen.ofText_ne_nil (by rw [Token.ofText_unlines_concat, Token.ofText_of_isBlankText hblank]; rfl)
    rw [hfeed, completedBy, if_pos (.inr ⟨rfl, hblank⟩), keptWith, if_neg hclosed]
    exact ⟨rfl, _, hkeeps'⟩
  · have hopen : Unfinished (kept ++ [line]) := hkeeps'.awaiting.unfinished (by simp)
    rw [hfeed, completedBy, if_pos (.inl hopen), keptWith, if_pos hopen]
    exact ⟨rfl, _, hkeeps'⟩
  · have hnot : ¬ (Unfinished (kept ++ [line]) ∨ kept = [] ∧ Text.isBlankText line = true) := by
      rintro (hopen | ⟨rfl, hblank⟩)
      · exact hclosed hopen
      · exact htokens (by rw [Token.ofText_unlines_concat, Token.ofText_of_isBlankText hblank]; rfl)
    rw [hfeed, completedBy, if_neg hnot, keptWith, if_neg hclosed]
    exact ⟨rfl, _, hkeeps'⟩

/-- Gatherers that keep the same lines complete the same statements. -/
theorem completed_eq {g' : Gatherer} {first' : Nat} (hkeeps' : g'.Keeps first' kept) (ls : List String) :
    g.completed ls = g'.completed ls := by
  induction ls generalizing g g' first first' kept with
  | nil => rfl
  | cons line ls ih =>
    obtain ⟨htext, _, hnext⟩ := hkeeps.feed_eq line
    obtain ⟨htext', _, hnext'⟩ := hkeeps'.feed_eq line
    rw [completed_cons, completed_cons, htext, htext', ih hnext hnext']

end Keeps

/-- No line that arrives while nothing is pending is a command. -/
def takesNoCommand (g : Gatherer) : List Input → Bool
  | [] => true
  | .line line :: rest => (g.isPending || !isCommand line) && (g.accept (.line line)).2.takesNoCommand rest
  | i :: rest => (g.accept i).2.takesNoCommand rest

/-- A line that is no command is fed. -/
theorem accept_line {g : Gatherer} {line : String} (hline : (g.isPending || !isCommand line) = true) :
    g.accept (.line line) = ((g.feed line).1.elim .again .statement, (g.feed line).2) := by
  have hfed : ¬ (!g.isPending && isCommand line) = true := by
    rw [← Bool.not_not (b := isCommand line), ← Bool.not_or, hline]
    exact Bool.false_ne_true
  rw [accept, if_neg hfed]
  rcases g.feed line with ⟨_ | text, h⟩ <;> rfl

end Gatherer

theorem readAll_line {fresh : String} {g : Gatherer} {line : String} {rest : List Input}
    (hline : (g.isPending || !isCommand line) = true) :
    readAll fresh g (.line line :: rest) =
      ((g.feed line).1.toList ++ (readAll fresh (g.feed line).2 rest).1,
        g.asks fresh :: (readAll fresh (g.feed line).2 rest).2) := by
  have haccept := Gatherer.accept_line hline
  rcases hfeed : g.feed line with ⟨_ | text, h⟩
  · rw [hfeed] at haccept
    exact readAll_of_again haccept
  · rw [hfeed] at haccept
    exact readAll_of_statement haccept

/-! ## Segments -/

/-- The prompt that is shown while these lines are kept. -/
def promptAfter (fresh : String) (kept : List String) : String :=
  if kept = [] then fresh else continuationPrompt

theorem Gatherer.Keeps.asks {g : Gatherer} {first : Nat} {kept : List String} (hkeeps : g.Keeps first kept)
    (fresh : String) : g.asks fresh = promptAfter fresh kept := by
  rw [Gatherer.asks, promptAfter]
  by_cases hkept : kept = []
  · rw [if_pos hkept, hkeeps.isPending_eq_false_iff.mpr hkept]
    rfl
  · rw [if_neg hkept, if_pos (hkeeps.isPending_iff.mpr hkept)]

/-- The prompts before each of the lines, given those that are kept from before. -/
def promptsFrom (fresh : String) (kept : List String) (ls : List String) : List String :=
  (List.range ls.length).map fun k => promptAfter fresh ((ls.take k).foldl keptWith kept)

theorem promptsFrom_cons (fresh : String) (kept : List String) (line : String) (ls : List String) :
    promptsFrom fresh kept (line :: ls) = promptAfter fresh kept :: promptsFrom fresh (keptWith kept line) ls := by
  rw [promptsFrom, List.length_cons, List.range_succ_eq_map, List.map_cons, List.map_map]
  rfl

/-- Reading lines, and then what follows them. -/
theorem readAll_lines {g : Gatherer} {first : Nat} {kept : List String} (hkeeps : g.Keeps first kept) {ls : List String}
    {more : List Input} (hfree : g.takesNoCommand (ls.map .line ++ more) = true) (fresh : String) :
    ∃ g' first', g'.Keeps first' (ls.foldl keptWith kept) ∧ g'.takesNoCommand more = true ∧
      readAll fresh g (ls.map .line ++ more) =
        (g.completed ls ++ (readAll fresh g' more).1, promptsFrom fresh kept ls ++ (readAll fresh g' more).2) := by
  induction ls generalizing g first kept with
  | nil => exact ⟨g, first, hkeeps, hfree, rfl⟩
  | cons line ls ih =>
    rw [List.map_cons, List.cons_append, Gatherer.takesNoCommand, Bool.and_eq_true] at hfree
    obtain ⟨hline, hrest⟩ := hfree
    rw [Gatherer.accept_line hline] at hrest
    obtain ⟨-, first', hnext⟩ := hkeeps.feed_eq line
    obtain ⟨g', first'', hkeeps', hmore, hread⟩ := ih hnext hrest
    refine ⟨g', first'', hkeeps', hmore, ?_⟩
    rw [List.map_cons, List.cons_append, readAll_line hline, hread, hkeeps.asks fresh, Gatherer.completed_cons,
      promptsFrom_cons, List.append_assoc, List.cons_append]

/-- Lines in segments: an interrupt follows each but the last. -/
def Input.ofSegments (aborted : List (List String)) (last : List String) : List Input :=
  aborted.flatMap (fun ls => ls.map .line ++ [.interrupt]) ++ last.map .line

/-- A script of lines and interrupts falls into segments. -/
theorem Input.exists_segments {script : List Input} (h : ∀ i ∈ script, i = .interrupt ∨ ∃ line, i = .line line) :
    ∃ aborted last, script = ofSegments aborted last := by
  induction script with
  | nil => exact ⟨[], [], rfl⟩
  | cons i rest ih =>
    obtain ⟨hi, hrest⟩ := List.forall_mem_cons.mp h
    obtain ⟨aborted, last, rfl⟩ := ih hrest
    rcases hi with rfl | ⟨line, rfl⟩
    · exact ⟨[] :: aborted, last, rfl⟩
    · cases aborted with
      | nil => exact ⟨[], line :: last, rfl⟩
      | cons ls aborted => exact ⟨(line :: ls) :: aborted, last, rfl⟩

/-- The prompts of a segment: one before each line, and one that the interrupt or the end answers. -/
def segmentPrompts (fresh : String) (ls : List String) : List String :=
  (List.range (ls.length + 1)).map fun k => promptAfter fresh (unfinishedLines (ls.take k))

theorem segmentPrompts_eq (fresh : String) (ls : List String) :
    segmentPrompts fresh ls = promptsFrom fresh [] ls ++ [promptAfter fresh (unfinishedLines ls)] := by
  rw [segmentPrompts, List.range_succ, List.map_append, List.map_singleton, List.take_length]
  rfl

/-- The statement that the end of the input makes of the unfinished lines. -/
def finalStatement (ls : List String) : List String :=
  if unfinishedLines ls = [] then [] else [Text.unlines (unfinishedLines ls)]

/-- The prompts after the end of the input: one more if it made a statement. -/
def finalPrompts (fresh : String) (ls : List String) : List String :=
  if unfinishedLines ls = [] then [] else [fresh]

section Run

variable {g : Gatherer} {first : Nat} (hkeeps : g.Keeps first [])

include hkeeps

/-- A segment that an interrupt ends is read as by a fresh gatherer, and leaves nothing. -/
theorem readAll_aborted {ls : List String} {more : List Input}
    (hfree : g.takesNoCommand (ls.map .line ++ .interrupt :: more) = true) (fresh : String) :
    ∃ g' first', g'.Keeps first' [] ∧ g'.takesNoCommand more = true ∧
      readAll fresh g (ls.map .line ++ .interrupt :: more) =
        (Gatherer.empty.completed ls ++ (readAll fresh g' more).1,
          segmentPrompts fresh ls ++ (readAll fresh g' more).2) := by
  obtain ⟨g', first', hkeeps', hmore, hread⟩ := readAll_lines hkeeps hfree fresh
  refine ⟨g'.reset, _, hkeeps'.reset, hmore, ?_⟩
  have hreset : readAll fresh g' (.interrupt :: more) =
      ((readAll fresh g'.reset more).1, g'.asks fresh :: (readAll fresh g'.reset more).2) := readAll_of_again rfl
  rw [hread, hreset, hkeeps.completed_eq Gatherer.keeps_empty, hkeeps'.asks, segmentPrompts_eq, List.append_assoc]
  rfl

/-- What the last segment leaves unfinished is a statement. -/
theorem readAll_last {ls : List String} (hfree : g.takesNoCommand (ls.map .line) = true) (fresh : String) :
    readAll fresh g (ls.map .line) =
      (Gatherer.empty.completed ls ++ finalStatement ls, segmentPrompts fresh ls ++ finalPrompts fresh ls) := by
  rw [← List.append_nil (ls.map Input.line)] at hfree ⊢
  obtain ⟨g', first', hkeeps', -, hread⟩ := readAll_lines hkeeps hfree fresh
  rw [hread, hkeeps.completed_eq Gatherer.keeps_empty, segmentPrompts_eq, List.append_assoc, finalStatement, finalPrompts]
  rcases hkeeps'.flush_cases with ⟨hnil, hflush⟩ | ⟨hne, g'', hflush, -, hkeeps''⟩
  · have hnone : unfinishedLines ls = [] := hnil
    rw [readAll_nil_of_none hflush, hkeeps'.asks, if_pos hnone, if_pos hnone]
    rfl
  · have hsome : ¬ unfinishedLines ls = [] := hne
    rw [readAll_nil_of_some hflush, hkeeps'.asks, hkeeps''.asks, if_neg hsome, if_neg hsome]
    rfl

theorem readAll_ofSegments {aborted : List (List String)} {last : List String}
    (hfree : g.takesNoCommand (Input.ofSegments aborted last) = true) (fresh : String) :
    readAll fresh g (Input.ofSegments aborted last) =
      (aborted.flatMap Gatherer.empty.completed ++ Gatherer.empty.completed last ++ finalStatement last,
        (aborted ++ [last]).flatMap (segmentPrompts fresh) ++ finalPrompts fresh last) := by
  induction aborted generalizing g first with
  | nil => simpa [Input.ofSegments] using readAll_last hkeeps hfree fresh
  | cons ls aborted ih =>
    have hsplit : Input.ofSegments (ls :: aborted) last = ls.map .line ++ .interrupt :: Input.ofSegments aborted last := by
      simp [Input.ofSegments]
    rw [hsplit] at hfree ⊢
    obtain ⟨g', first', hkeeps', hmore, hread⟩ := readAll_aborted hkeeps hfree fresh
    rw [hread, ih hkeeps' hmore]
    simp

end Run

/-- **An interrupt discards exactly what is pending.** A script of lines and interrupts, in which no line that arrives while
nothing is pending is a command, falls into segments. Reading one statement after another until none comes gives the statements
that the segments complete when they are fed to fresh gatherers, and at the end what the last segment leaves unfinished. Each
prompt is the one for a statement that goes on exactly if the lines of the segment so far leave a statement pending. -/
theorem interrupts_discard_pending (fresh : String) (script : List Input)
    (hinputs : ∀ i ∈ script, i = .interrupt ∨ ∃ line, i = .line line)
    (hfree : Gatherer.empty.takesNoCommand script = true) :
    (∃ aborted last, script = Input.ofSegments aborted last) ∧
    ∀ aborted last, script = Input.ofSegments aborted last → ∀ texts prompts,
      Reads fresh .empty script texts prompts ↔
        texts = aborted.flatMap Gatherer.empty.completed ++ Gatherer.empty.completed last ++ finalStatement last ∧
        prompts = (aborted ++ [last]).flatMap (segmentPrompts fresh) ++ finalPrompts fresh last := by
  refine ⟨Input.exists_segments hinputs, ?_⟩
  rintro aborted last rfl texts prompts
  rw [reads_iff, readAll_ofSegments Gatherer.keeps_empty hfree, Prod.mk.injEq, eq_comm, @eq_comm _ _ prompts]

/-- A form that is interrupted, and then a line that would have closed it. -/
def interrupted : List Input :=
  [.line "(+ 1", .interrupt, .line "2)", .line "(f", .line "x)", .line "(g"]

/-- The line stands by itself, and the form that is open at the end is handed over as it is. -/
theorem interrupts_discard_pending_open :
    (∀ i ∈ interrupted, i = .interrupt ∨ ∃ line, i = .line line) ∧
    Gatherer.empty.takesNoCommand interrupted = true ∧
    Reads "> " .empty interrupted ["2)", "(f\nx)", "(g"] ["> ", "...> ", "> ", "> ", "...> ", "> ", "...> ", "> "] := by
  have hinputs : ∀ i ∈ interrupted, i = .interrupt ∨ ∃ line, i = .line line := by simp [interrupted]
  have hfree : Gatherer.empty.takesNoCommand interrupted = true := by decide +kernel
  have hiff := (interrupts_discard_pending "> " interrupted hinputs hfree).2 [["(+ 1"]] ["2)", "(f", "x)", "(g"] rfl
  exact ⟨hinputs, hfree, (hiff _ _).mpr (by decide +kernel)⟩

end FormLang
