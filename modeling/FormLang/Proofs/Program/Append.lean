import FormLang.Program
import FormLang.Proofs.Statement.Account

/-!
# A program after another

Where the lines of a source leave no statement pending, the lines that follow are gathered as if they stood alone, except
that their numbers are higher (`ofLines_append`, `Gatherer.Later.ofLines`). So a source that ends with a line feed can be put
before another one: the statements, the results and the session are those of running the two in turn.
-/

namespace FormLang

/-! ## Gathering further -/

namespace Gatherer

theorem next_feed (g : Gatherer) (line : String) : (g.feed line).2.next = g.next + 1 := by
  unfold feed
  split
  · rfl
  · simp only
    split <;> rfl

theorem next_after_feed (g : Gatherer) (ls : List String) : (g.after (ls.map .feed)).next = g.next + ls.length := by
  induction ls generalizing g with
  | nil => rfl
  | cons line rest ih =>
    rw [List.map_cons, after, answer, ih, next_feed, List.length_cons]
    omega

/-- The first gatherer after it was fed `n` lines more: what it keeps is the same and all numbers are higher. -/
structure Later (n : Nat) (g g' : Gatherer) : Prop where
  pending : g'.pending = g.pending
  depth : g'.depth = g.depth
  next : g'.next = g.next + n
  start : g.isPending = true → g'.start = g.start + n

namespace Later

variable {n : Nat} {g g' : Gatherer} (h : Later n g g')

include h

theorem isPending : g'.isPending = g.isPending := by
  rw [Gatherer.isPending, Gatherer.isPending, h.pending]

theorem text : g'.text = g.text := by
  rw [Gatherer.text, Gatherer.text, h.pending]

theorem reset : Later n g.reset g'.reset :=
  ⟨rfl, rfl, h.next, fun hpending => absurd hpending Bool.false_ne_true⟩

theorem start_push (line : String) : (g'.push line).start = (g.push line).start + n := by
  rw [Gatherer.push, Gatherer.push, h.isPending]
  by_cases hpending : g.isPending = true
  · simp only [hpending, if_true]
    exact h.start hpending
  · simp only [hpending, Bool.false_eq_true, if_false]
    exact h.next

theorem push (line : String) : Later n (g.push line) (g'.push line) where
  pending := congrArg (line :: ·) h.pending
  depth := congrArg ((Token.ofText line).foldl Token.Depth.next) h.depth
  next := by
    have hnext := h.next
    simp only [Gatherer.push]
    omega
  start _ := h.start_push line

theorem feed (line : String) :
    (g'.feed line).1 = (g.feed line).1 ∧ Later n (g.feed line).2 (g'.feed line).2 ∧
      ((g.feed line).1.isSome → (g'.feed line).2.start = (g.feed line).2.start + n) := by
  have hpush := h.push line
  have hopen : (g'.push line).isOpen = (g.push line).isOpen := by rw [isOpen, isOpen, hpush.depth]
  rw [Gatherer.feed, Gatherer.feed, h.isPending]
  by_cases hblank : (!g.isPending && Text.isBlankText line) = true
  · rw [if_pos hblank, if_pos hblank]
    refine ⟨rfl, ⟨h.pending, h.depth, ?_, h.start⟩, fun hsome => absurd hsome Bool.false_ne_true⟩
    simp only [h.next]
    omega
  · rw [if_neg hblank, if_neg hblank]
    simp only [hopen]
    by_cases hmore : (g.push line).isOpen = true
    · rw [if_pos hmore, if_pos hmore]
      exact ⟨rfl, hpush, fun hsome => absurd hsome Bool.false_ne_true⟩
    · rw [if_neg hmore, if_neg hmore, hpush.text]
      exact ⟨rfl, hpush.reset, fun _ => h.start_push line⟩

end Later

end Gatherer

namespace Statement

/-- The statement `n` lines further down. -/
def shift (n : Nat) (st : Statement) : Statement :=
  { st with line := st.line + n }

theorem ofLines_of_not_pending {g : Gatherer} (h : g.isPending = false) : ofLines g [] = [] := by
  rw [ofLines, Gatherer.flush, h]
  rfl

/-- Lines that leave nothing pending have their statements whatever follows. -/
theorem ofLines_append {g : Gatherer} {ls : List String} (h : (g.after (ls.map .feed)).isPending = false)
    (more : List String) : ofLines g (ls ++ more) = ofLines g ls ++ ofLines (g.after (ls.map .feed)) more := by
  induction ls generalizing g with
  | nil =>
    rw [List.map_nil, Gatherer.after] at h ⊢
    rw [ofLines_of_not_pending h, List.nil_append, List.nil_append]
  | cons line rest ih =>
    rw [List.map_cons, Gatherer.after, Gatherer.answer] at h ⊢
    rw [List.cons_append, ofLines, ofLines]
    rcases hfeed : g.feed line with ⟨_ | text, g'⟩
    · rw [hfeed] at h
      exact ih h
    · rw [hfeed] at h
      simp only [ih h, List.cons_append]

end Statement

/-- A gatherer that was fed lines before finds the same statements further down. -/
theorem Gatherer.Later.ofLines {n : Nat} {g g' : Gatherer} (h : Later n g g') (ls : List String) :
    Statement.ofLines g' ls = (Statement.ofLines g ls).map (Statement.shift n) := by
  induction ls generalizing g g' with
  | nil =>
    rw [Statement.ofLines, Statement.ofLines, flush, flush, h.isPending, h.text]
    by_cases hpending : g.isPending = true
    · rw [if_pos hpending, if_pos hpending]
      simp only [Gatherer.reset, h.start hpending]
      rfl
    · rw [if_neg hpending, if_neg hpending]
      rfl
  | cons line rest ih =>
    obtain ⟨htext, hlater, hstart⟩ := h.feed line
    rw [Statement.ofLines, Statement.ofLines]
    rcases hfeed : g.feed line with ⟨found, next⟩
    rcases hfeed' : g'.feed line with ⟨found', next'⟩
    rw [hfeed, hfeed'] at htext hlater hstart
    obtain rfl : found' = found := htext
    cases found' with
    | none => exact ih hlater
    | some text =>
      have hline : next'.start = next.start + n := hstart rfl
      simp only [ih hlater, List.map_cons, Statement.shift, hline]

/-! ## Sources -/

namespace Statement

theorem ofSource_empty : ofSource "" = [] := by decide

/-- The lines of a source that ends with a line feed come before those of what follows. -/
theorem sourceLines_append (init : String) {s : String} (hs : s ≠ "") :
    sourceLines (init ++ "\n" ++ s) = sourceLines (init ++ "\n") ++ sourceLines s := by
  have hinit : Text.dropFinal '\n' (init ++ "\n") = init := Text.dropFinal_append '\n' init
  rw [sourceLines, sourceLines, sourceLines, hinit, Text.dropFinal_append_of_ne _ _ hs, Text.lines_append_lineFeed,
    List.map_append]

theorem length_sourceLines_append (init : String) :
    (sourceLines (init ++ "\n")).length = (init ++ "\n").toList.count '\n' := by
  have hinit : Text.dropFinal '\n' (init ++ "\n") = init := Text.dropFinal_append '\n' init
  rw [sourceLines, List.length_map, hinit, Text.length_lines, String.toList_append, List.count_append]
  rfl

/-- **The statements of a source after another are its own, further down.** -/
theorem ofSource_append {s₁ : String} (hend : s₁ = "" ∨ ∃ init, s₁ = init ++ "\n")
    (hdone : (Gatherer.empty.after ((sourceLines s₁).map .feed)).isPending = false) (s₂ : String) :
    ofSource (s₁ ++ s₂) = ofSource s₁ ++ (ofSource s₂).map (shift (s₁.toList.count '\n')) := by
  rcases hend with rfl | ⟨init, rfl⟩
  · have hshift : (shift 0 : Statement → Statement) = id := rfl
    rw [String.empty_append, ofSource_empty, List.nil_append]
    exact (hshift ▸ List.map_id _).symm
  by_cases hs : s₂ = ""
  · rw [hs, String.append_empty, ofSource_empty, List.map_nil, List.append_nil]
  rw [← length_sourceLines_append, ofSource, sourceLines_append init hs, ofLines_append hdone]
  -- Nothing is kept at the seam, so only the number of the next line tells the gatherer from a new one.
  obtain ⟨_, kept, -, -, -, hkeeps⟩ := Gatherer.keeps_empty.tiled ((sourceLines (init ++ "\n")).map .feed)
  obtain rfl : kept = [] := hkeeps.isPending_eq_false_iff.mp hdone
  have hnext := Gatherer.next_after_feed .empty (sourceLines (init ++ "\n"))
  have hlater : Gatherer.Later (sourceLines (init ++ "\n")).length .empty _ :=
    ⟨hkeeps.pending, hkeeps.depth, hnext, fun hpending => absurd hpending (by decide)⟩
  rw [hlater.ofLines]
  rfl

end Statement

/-! ## Runs -/

/-- The result of the statement `n` lines further down. -/
def Result.shift (n : Nat) (r : Result) : Result :=
  { r with statement := r.statement.shift n }

namespace Session

theorem runAll_cons (s : Session) (st : Statement) (rest : List Statement) :
    s.runAll (st :: rest) =
      (((s.evaluate st.text).1.runAll rest).1, ⟨st, (s.evaluate st.text).2⟩ :: ((s.evaluate st.text).1.runAll rest).2) :=
  rfl

theorem runAll_append (s : Session) (sts more : List Statement) :
    s.runAll (sts ++ more) = (((s.runAll sts).1.runAll more).1, (s.runAll sts).2 ++ ((s.runAll sts).1.runAll more).2) := by
  induction sts generalizing s with
  | nil => rfl
  | cons st rest ih => rw [List.cons_append, runAll_cons, ih, runAll_cons, List.cons_append]

/-- Evaluation does not look at line numbers. -/
theorem runAll_shift (n : Nat) (s : Session) (sts : List Statement) :
    s.runAll (sts.map (Statement.shift n)) = ((s.runAll sts).1, (s.runAll sts).2.map (Result.shift n)) := by
  induction sts generalizing s with
  | nil => rfl
  | cons st rest ih =>
    have htext : (st.shift n).text = st.text := rfl
    rw [List.map_cons, runAll_cons, htext, ih, runAll_cons, List.map_cons, Result.shift]

/-- **Running a source after another is running the two in turn.** The first one is empty or ends with a line feed, and
leaves no statement pending. -/
theorem run_append {s₁ : String} (hend : s₁ = "" ∨ ∃ init, s₁ = init ++ "\n")
    (hdone : (Gatherer.empty.after ((Statement.sourceLines s₁).map .feed)).isPending = false) (s₂ : String) :
    Statement.ofSource (s₁ ++ s₂) =
      Statement.ofSource s₁ ++ (Statement.ofSource s₂).map (Statement.shift (s₁.toList.count '\n')) ∧
    ∀ s : Session, s.run (s₁ ++ s₂) =
      (((s.run s₁).1.run s₂).1,
        (s.run s₁).2 ++ ((s.run s₁).1.run s₂).2.map (Result.shift (s₁.toList.count '\n'))) := by
  have hstatements := Statement.ofSource_append hend hdone s₂
  refine ⟨hstatements, fun s => ?_⟩
  rw [run, hstatements, runAll_append, runAll_shift]
  rfl

/-- A form over two lines that end in carriage returns and a blank line, then a form that is never closed. -/
theorem run_append_unclosed :
    (Gatherer.empty.after ((Statement.sourceLines "(f\r\n1)\r\n\n").map .feed)).isPending = false ∧
    Statement.ofSource ("(f\r\n1)\r\n\n" ++ "x\n(g") =
      Statement.ofSource "(f\r\n1)\r\n\n" ++
        (Statement.ofSource "x\n(g").map (Statement.shift ("(f\r\n1)\r\n\n".toList.count '\n')) ∧
    (fresh 0).run ("(f\r\n1)\r\n\n" ++ "x\n(g") =
      ((((fresh 0).run "(f\r\n1)\r\n\n").1.run "x\n(g").1,
        ((fresh 0).run "(f\r\n1)\r\n\n").2 ++
          (((fresh 0).run "(f\r\n1)\r\n\n").1.run "x\n(g").2.map
            (Result.shift ("(f\r\n1)\r\n\n".toList.count '\n'))) := by
  have hdone : (Gatherer.empty.after ((Statement.sourceLines "(f\r\n1)\r\n\n").map .feed)).isPending = false := by
    decide +kernel
  obtain ⟨hstatements, hrun⟩ := run_append (.inr ⟨"(f\r\n1)\r\n", by decide⟩) hdone "x\n(g"
  exact ⟨hdone, hstatements, hrun (fresh 0)⟩

end Session

end FormLang
