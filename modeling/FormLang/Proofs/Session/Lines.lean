import FormLang.Proofs.Program.Append
import FormLang.Proofs.Program.Print
import FormLang.Proofs.Registry
import FormLang.Proofs.Session.Functions
import FormLang.Proofs.Session.Texts

/-!
# Values on one line

No value of a session prints with a line feed in it. A text is made from names and from words (`Plan.makes_cases`). These come
from what was read, where line feeds are gaps, and what is filled in is the text of another value. So it is a law that evaluation
keeps (`lineLaw_kept`). Hence a program prints one line for each statement, also as text (`one_line_per_statement`).
-/

namespace FormLang

/-! ## Words of a format -/

namespace FormatText

theorem flat_of_gather {isFirst : Bool} {done : List String} {ops : List Expr} {words : List String} {rest : List Expr}
    (h : gather isFirst done ops = .ok (words, rest)) : ∀ w ∈ words, w ∈ done ∨ ∃ op ∈ ops, w = op.flat := by
  induction ops generalizing isFirst done with
  | nil => cases h
  | cons op ops ih =>
    rw [gather] at h
    split at h
    · cases h
      intro w hw
      rcases List.mem_cons.mp (List.mem_reverse.mp hw) with rfl | hw
      · exact .inr ⟨op, List.mem_cons_self, rfl⟩
      · exact .inl hw
    · intro w hw
      rcases ih h w hw with hdone | ⟨x, hx, rfl⟩
      · rcases List.mem_cons.mp hdone with rfl | hdone
        · exact .inr ⟨op, List.mem_cons_self, rfl⟩
        · exact .inl hdone
      · exact .inr ⟨x, List.mem_cons_of_mem _ hx, rfl⟩

/-- The words of a format text are printed operands. -/
theorem flat_of_split {ops : List Expr} {words : List String} {rest : List Expr} (h : split ops = .ok (words, rest)) :
    ∀ w ∈ words, ∃ op ∈ ops, w = op.flat := by
  cases ops with
  | nil =>
    cases h
    simp
  | cons op ops =>
    rw [split] at h
    split at h
    · intro w hw
      exact (flat_of_gather h w hw).resolve_left List.not_mem_nil
    · split at h
      · cases h
      · cases h
        exact List.forall_mem_singleton.mpr ⟨op, List.mem_cons_self, rfl⟩

theorem oneLine_fill {words : List String} (hwords : ∀ w ∈ words, Text.OneLine w) {value : String} (hvalue : Text.OneLine value) :
    Text.OneLine (fill words value) := by
  have htext : Text.OneLine (Text.erase '"' (" ".intercalate words)) :=
    Text.oneLine_erase (Text.oneLine_intercalate (by decide) hwords) _
  unfold fill
  simp only
  split
  · exact Text.oneLine_replaceFirst hvalue htext _
  · exact Text.oneLine_replaceFirst hvalue htext _

end FormatText

/-! ## Printed expressions and values -/

namespace Expr

/-- What was made from words prints as words. -/
theorem FromWords.worded {e : Expr} (h : e.FromWords) : e.Worded := by
  intro a ha
  obtain ⟨w, hword, rfl⟩ := h a ha
  rcases ofToken_cases w with ⟨n, hn⟩ | ⟨f, hf⟩ | hname
  · rw [hn]
    exact Decimal.isWord_ofInt n.toInt
  · rw [hf]
    exact isWord_floatText f
  · rw [hname]
    exact hword

theorem IsName.oneLine {name : String} (h : IsName name) : Text.OneLine name :=
  (Token.isWord_of_not_blank h.ne_empty h.chars).isPlain.lineFeed_notMem

end Expr

/-- Texts have no line feed, on top of what holds of functions and expressions. -/
def lineLaw (limit : Nat) : Law where
  value v := (functionLaw limit).value v ∧ ∀ text, v = .str text → Text.OneLine text
  expr := (functionLaw limit).expr
  error _ := True

/-- A value that keeps the law prints on one line. -/
theorem oneLine_text_of_lineLaw {limit : Nat} {v : Value} (h : (lineLaw limit).value v) : Text.OneLine v.text := by
  obtain ⟨⟨hstandard, hfunction⟩, htext⟩ := h
  cases v with
  | int n => exact (Decimal.isWord_ofInt n.toInt).isPlain.lineFeed_notMem
  | float f => exact (isWord_floatText f).isPlain.lineFeed_notMem
  | negativeNaN => exact (isWord_floatText Binary64.notANumber).isPlain.lineFeed_notMem
  | str s => exact htext s rfl
  | bool b => cases b <;> decide
  | function f =>
    obtain ⟨hname, hparams⟩ := List.forall_mem_cons.mp (hfunction f rfl).names
    have hparams : Text.OneLine (" ".intercalate f.params) :=
      Text.oneLine_intercalate (by decide) fun p hp => (hparams p hp).oneLine
    exact (((Text.OneLine.append (by decide) hname.oneLine).append (by decide)).append hparams).append (by decide)
  | builtin b =>
    obtain ⟨registry, name, hmem⟩ := hstandard
    have hname : Text.OneLine b.name := Registry.name_of_mem_defaults hmem ▸ Registry.oneLine_of_mem_defaults hmem
    exact (Text.OneLine.append (by decide) hname).append (by decide)
  | void => decide

theorem oneLine_of_makes {limit : Nat} {e : Expr} {text : String} (he : (lineLaw limit).expr e)
    (h : (Eval.Plan.of e).Makes (lineLaw limit).value text) : Text.OneLine text := by
  rcases Eval.Plan.makes_cases h with ⟨d, rfl, rfl⟩ | ⟨head, dest, ops, words, rest, value, rfl, hsplit, hvalue, rfl⟩
  · have hname : (Expr.symbol d.name).FromWords := he.1.item (by simp)
    exact Text.OneLine.append (by decide) (Text.oneLine_upper hname.isName.oneLine)
  · refine FormatText.oneLine_fill (fun w hw => ?_) ?_
    · obtain ⟨op, hop, rfl⟩ := FormatText.flat_of_split hsplit w hw
      have hword : op.FromWords := he.1.item (List.mem_cons_of_mem _ (List.mem_cons_of_mem _ hop))
      exact (Expr.isPlain_flat hword.worded).lineFeed_notMem
    · rcases hvalue with rfl | ⟨v, hv, rfl⟩
      · decide
      · exact oneLine_text_of_lineLaw hv

theorem lineLaw_kept (limit : Nat) : (lineLaw limit).Kept limit where
  item := (functionLaw_kept limit).item
  number h := ⟨(functionLaw_kept limit).number h, fun text htext => by subst htext; cases h⟩
  str he h := by
    refine ⟨⟨trivial, fun f hf => by cases hf⟩, fun text htext => ?_⟩
    cases htext
    exact oneLine_of_makes he h
  define he h m := ⟨(functionLaw_kept limit).define he h m, fun text htext => by cases htext⟩
  body h := (functionLaw_kept limit).body h.1
  builtin h := (functionLaw_kept limit).builtin h.1
  ordinary _ := trivial
  hole _ := trivial
  tooDeep := trivial

theorem Heap.lineLaw_global (limit : Nat) : Heap.global.Holds (lineLaw limit).value :=
  fun t sc hsc p hp => ⟨functionLaw_global limit t sc hsc p hp,
    fun text htext => absurd htext (textless_global t sc hsc p hp text)⟩

/-! ## Sessions -/

namespace Session

/-- All values of the session keep the law of lines. -/
def Lined (s : Session) : Prop :=
  s.heap.Holds (lineLaw (effectiveLimit s.limit)).value

theorem lined_global (limit : Int) (runId : String) (tracing : Bool) : (start .global limit runId tracing).Lined :=
  Heap.lineLaw_global (effectiveLimit limit)

namespace Lined

variable {s : Session} (h : s.Lined)

include h

theorem sound_evaluate (text : String) : (s.evaluate text).1.Lined ∧
    ∀ v, (s.evaluate text).2 = .ok v → Text.OneLine v.text := by
  have hread : ∀ e, Expr.parse s.limit (Token.ofText text) = .ok e → e.FromWords ∧ e.nest ≤ effectiveLimit s.limit :=
    fun _ hparse => Expr.fromWords_of_parse hparse
  obtain ⟨hheap, hvalue, -⟩ := Session.sound_evaluate (lineLaw_kept _) hread h
  rw [Lined, limit_evaluate]
  exact ⟨hheap, fun v hv => oneLine_text_of_lineLaw (hvalue v hv)⟩

theorem oneLine_get? {name : String} {v : Value} (hget : s.get? name = some v) : Text.OneLine v.text :=
  oneLine_text_of_lineLaw (h.of_lookupFrom hget)

end Lined

end Session

/-! ## Programs -/

namespace Session

theorem map_statement_runAll (s : Session) (sts : List Statement) : (s.runAll sts).2.map (·.statement) = sts := by
  induction sts generalizing s with
  | nil => rfl
  | cons st rest ih => rw [runAll_cons, List.map_cons, ih]

/-- All values of a run are on one line, and so are those that it leaves in the session. -/
theorem Lined.runAll {s : Session} (h : s.Lined) (sts : List Statement) :
    (s.runAll sts).1.Lined ∧ ∀ v ∈ Result.values (s.runAll sts).2, Text.OneLine v.text := by
  induction sts generalizing s with
  | nil => exact ⟨h, List.forall_mem_nil _⟩
  | cons st rest ih =>
    obtain ⟨hnext, hvalue⟩ := h.sound_evaluate st.text
    obtain ⟨hlined, hvalues⟩ := ih hnext
    rw [runAll_cons]
    refine ⟨hlined, fun v hv => ?_⟩
    cases hout : (s.evaluate st.text).2 with
    | error p =>
      rw [hout] at hv
      exact hvalues v hv
    | ok w =>
      rw [hout] at hv
      rcases List.mem_cons.mp hv with rfl | hv
      · exact hvalue v hout
      · exact hvalues v hv

end Session

/-- **A program prints one line for each statement.** A source is run in a session over a fresh global scope. Its results are
those of its statements, in order. As JSON the lines of the output are the values of the statements that succeeded, and the
lines of the error output the diagnostics of those that failed; a line feed ends each of them. As text the lines of the output
still are the values, for no value that the run returns or leaves bound holds a line feed. -/
theorem one_line_per_statement (limit : Int) (runId : String) (tracing : Bool) (source file : String) :
    let results := ((Session.start .global limit runId tracing).run source).2
    results.map (·.statement) = Statement.ofSource source ∧
    Text.lines (Result.print results file false).out = (Result.values results).map (·.render false) ++ [""] ∧
    Text.lines (Result.print results file false).err =
      (Result.diagnostics file results).map (·.render false) ++ [""] ∧
    Text.lines (Result.print results file true).out = (Result.values results).map (·.render true) ++ [""] ∧
    (∀ v ∈ Result.values results, Text.OneLine v.text) ∧
    ∀ name v, ((Session.start .global limit runId tracing).run source).1.get? name = some v → Text.OneLine v.text := by
  intro results
  obtain ⟨hlined, hvalues⟩ := (Session.lined_global limit runId tracing).runAll (Statement.ofSource source)
  obtain ⟨hout, herr⟩ := Result.lines_print_json results file
  exact ⟨Session.map_statement_runAll _ _, hout, herr, Result.lines_print_text hvalues file, hvalues,
    fun _ _ => hlined.oneLine_get?⟩

end FormLang
