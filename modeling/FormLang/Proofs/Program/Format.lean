import FormLang.Program
import FormLang.Proofs.Expr.RoundTrip
import FormLang.Proofs.Session.Basic
import FormLang.Proofs.Statement.Gathering

/-!
# Formatting keeps the program

Formatting writes each statement in its canonical form. The lines of a canonical form are gathered as one statement again
(`closes_prettyLines`), which reads like the statement it came from. So a formatted program has the statements of the source,
in order: it is formatted to itself, and it runs as the source does.
-/

namespace FormLang

/-! ## The lines of one statement -/

namespace Expr

theorem leafCases_depth :
    LeafCases PrintsWord (fun e => ∀ k : Nat, e.tokens.foldl Token.Depth.next ⟨k, 0⟩ = ⟨k, 0⟩)
      (fun es => ∀ k : Nat, (tokensAll es).foldl Token.Depth.next ⟨k, 0⟩ = ⟨k, 0⟩) where
  leaf a ha htokens k := by
    rw [htokens, List.foldl_cons, List.foldl_nil, Token.Depth.next_word _ ha]
  list items ih k := by
    rw [tokens, List.foldl_cons, Token.Depth.next_opening, List.foldl_append, ih, List.foldl_cons, List.foldl_nil,
      Token.Depth.next_closing]
  noItems _ := rfl
  items e rest ih ih' k := by
    rw [tokensAll, List.foldl_append, ih, ih']

/-- The tokens of an expression close what they open. -/
theorem foldl_next_tokens {e : Expr} (h : e.Worded) (k : Nat) :
    e.tokens.foldl Token.Depth.next ⟨k, 0⟩ = ⟨k, 0⟩ :=
  leaves_induction leafCases_depth h k

theorem tokens_ne_nil (e : Expr) : e.tokens ≠ [] := by
  cases e <;> simp [tokens]

theorem moves_oneLine {e : Expr} (h : e.Worded) (d k : Nat) : Moves k (indent d ++ e.flat) k := by
  rw [Moves, ofText_oneLine h]
  exact ⟨tokens_ne_nil e, foldl_next_tokens h k⟩

theorem moves_firstLine {head first : Expr} (hhead : head.Worded) (hfirst : first.Worded) (d k : Nat) :
    Moves k (indent d ++ "(" ++ head.flat ++ " " ++ first.flat) (k + 1) := by
  rw [Moves, ofText_firstLine hhead hfirst]
  refine ⟨List.cons_ne_nil _ _, ?_⟩
  rw [List.foldl_cons, Token.Depth.next_opening, List.foldl_append, foldl_next_tokens hhead, foldl_next_tokens hfirst]

/-- Closing the form on the last line of its items takes that line one level down. -/
theorem closes_extendLast {k a : Nat} {ls : List String} (h : Above (k + 1) a ls (k + 1)) (hne : ls ≠ []) :
    Closes k a (extendLast ")" ls) := by
  obtain ⟨init, last, rfl⟩ : ∃ init last, ls = init ++ [last] := ⟨_, _, (List.dropLast_concat_getLast hne).symm⟩
  obtain ⟨b, hinit, hlast⟩ := h.of_append
  cases hlast with
  | cons hmoves _ hnil =>
    cases hnil
    refine ⟨init, last ++ ")", b, extendLast_concat _ _ _, hinit, ?_⟩
    rw [Moves, Token.ofText_append_closing, List.foldl_append, hmoves.2, List.foldl_cons, List.foldl_nil,
      Token.Depth.next_closing]
    exact ⟨List.append_ne_nil_of_right_ne_nil _ (List.cons_ne_nil _ _), rfl⟩

theorem lineCases_closes : LineCases (fun _ e ls => e.Worded → ∀ k, Closes k k ls)
    (fun _ es ls => WordedAll es → ∀ k, Above k k ls k) where
  oneLine d e h k := ⟨[], _, k, rfl, .nil k, moves_oneLine h d k⟩
  broken d head first rest ls ih h k := by
    -- the items stand one level deeper than the form, so no line before the last comes back to its depth
    obtain ⟨hhead, hfirst, hrest⟩ := worded_parts h
    refine closes_extendLast (.cons (moves_firstLine hhead hfirst d k) (Nat.le_refl _) ?_) (List.cons_ne_nil _ _)
    exact ih hrest (k + 1)
  noItems _ _ k := .nil k
  items d e rest ls ls' ih ih' h k := by
    rw [wordedAll_cons] at h
    exact (ih h.1 k).above.append (ih' h.2 k)

theorem closes_prettyLines {e : Expr} (h : e.Worded) : Closes 0 0 (prettyLines 0 e) :=
  pretty_induction lineCases_closes 0 e h 0

theorem prettyLines_ne_nil {e : Expr} (h : e.Worded) : prettyLines 0 e ≠ [] := by
  obtain ⟨init, last, b, hls, -⟩ := closes_prettyLines h
  rw [hls]
  exact List.append_ne_nil_of_right_ne_nil _ (List.cons_ne_nil _ _)

end Expr

/-! ## The statements of a formatted program -/

namespace Program

/-- The expressions in canonical form, each on lines of its own. -/
def printed (es : List Expr) : String :=
  String.join (es.map fun e => printLine e.pretty)

theorem flatten_prettyLines_ne_nil {es : List Expr} (hne : es ≠ []) (hes : ∀ e ∈ es, e.Legible) :
    (es.map (Expr.prettyLines 0)).flatten ≠ [] := by
  obtain ⟨e, rest, rfl⟩ := List.exists_cons_of_ne_nil hne
  rw [List.map_cons, List.flatten_cons]
  exact List.append_ne_nil_of_left_ne_nil (Expr.prettyLines_ne_nil (hes e List.mem_cons_self).worded) _

theorem printed_eq_unlines {es : List Expr} (hne : es ≠ []) (hes : ∀ e ∈ es, e.Legible) :
    printed es = Text.unlines (es.map (Expr.prettyLines 0)).flatten ++ "\n" := by
  induction es with
  | nil => exact absurd rfl hne
  | cons e rest ih =>
    rw [List.forall_mem_cons] at hes
    rw [printed, List.map_cons, String.join_cons, printLine, List.map_cons, List.flatten_cons]
    cases rest with
    | nil =>
      rw [List.map_nil, String.join_nil, String.append_empty, List.map_nil, List.flatten_nil, List.append_nil]
      rfl
    | cons e' rest =>
      have hrest := ih (List.cons_ne_nil _ _) hes.2
      have hne' := flatten_prettyLines_ne_nil (List.cons_ne_nil e' rest) hes.2
      rw [printed] at hrest
      rw [hrest, Text.unlines, Text.unlines,
        String.intercalate_append_of_ne_nil (Expr.prettyLines_ne_nil hes.1.worded) hne', ← String.append_assoc]
      rfl

theorem sourceLines_printed {es : List Expr} (hne : es ≠ []) (hes : ∀ e ∈ es, e.Legible) :
    Statement.sourceLines (printed es) = (es.map (Expr.prettyLines 0)).flatten := by
  have hplain : ∀ l ∈ (es.map (Expr.prettyLines 0)).flatten, Token.IsPlain l := by
    intro l hl
    obtain ⟨ls, hls, hl⟩ := List.mem_flatten.mp hl
    obtain ⟨e, he, rfl⟩ := List.mem_map.mp hls
    exact Expr.isPlain_prettyLines 0 (hes e he).worded l hl
  have hdrop := Text.dropFinal_append '\n' (Text.unlines (es.map (Expr.prettyLines 0)).flatten)
  rw [show String.singleton '\n' = "\n" from rfl, ← printed_eq_unlines hne hes] at hdrop
  rw [Statement.sourceLines, hdrop, Text.lines_unlines (flatten_prettyLines_ne_nil hne hes)
    fun l hl => (hplain l hl).lineFeed_notMem]
  exact (List.map_congr_left fun l hl => Text.dropFinal_of_notMem (hplain l hl).return_notMem).trans (List.map_id _)

/-- The statements of what was printed are the canonical forms. -/
theorem text_ofSource_printed {es : List Expr} (hes : ∀ e ∈ es, e.Legible) :
    (Statement.ofSource (printed es)).map (·.text) = es.map Expr.pretty := by
  rcases List.eq_nil_or_concat es with rfl | ⟨init, last, rfl⟩
  · rfl
  · rw [Statement.ofSource, sourceLines_printed (by simp) hes, Statement.text_ofLines_blocks _ rfl rfl, List.map_map]
    · rfl
    · intro ls hls
      obtain ⟨e, he, rfl⟩ := List.mem_map.mp hls
      exact Expr.closes_prettyLines (hes e he).worded

/-! ## Formatting -/

/-- Formatting succeeds exactly if every statement parses, and then prints what they parse to. -/
theorem formatAll_eq_ok_iff {file done out : String} {sts : List Statement} :
    formatAll file done sts = .ok out ↔
      ∃ es, sts.map (fun st => Expr.ofText st.text) = es.map .ok ∧ out = done ++ printed es := by
  induction sts generalizing done with
  | nil =>
    rw [formatAll, Except.ok.injEq]
    constructor
    · rintro rfl
      exact ⟨[], rfl, by simp [printed]⟩
    · rintro ⟨es, hes, rfl⟩
      obtain rfl : es = [] := by simpa using hes.symm
      simp [printed]
  | cons st rest ih =>
    rw [formatAll]
    cases hparse : Expr.ofText st.text with
    | error err =>
      constructor
      · intro h
        cases h
      · rintro ⟨es, hes, -⟩
        cases es with
        | nil => cases hes
        | cons e es =>
          rw [List.map_cons, hparse, List.map_cons] at hes
          cases (List.cons.inj hes).1
    | ok e =>
      simp only
      rw [ih]
      constructor
      · rintro ⟨es, hes, rfl⟩
        refine ⟨e :: es, ?_, ?_⟩
        · rw [List.map_cons, hparse, hes, List.map_cons]
        · simp [printed, String.append_assoc]
      · rintro ⟨es, hes, rfl⟩
        cases es with
        | nil => cases hes
        | cons e' es =>
          rw [List.map_cons, hparse, List.map_cons, List.cons.injEq, Except.ok.injEq] at hes
          obtain ⟨rfl, hes⟩ := hes
          refine ⟨es, hes, ?_⟩
          simp [printed, String.append_assoc]

end Program

/-! ## Running -/

namespace Session

theorem evaluate_eq_of_readings {text text' : String} (h : Expr.readings text = Expr.readings text') (s : Session) :
    s.evaluate text = s.evaluate text' := by
  have hparse : Expr.parse s.limit (Token.ofText text) = Expr.parse s.limit (Token.ofText text') := congrFun h s.limit
  rw [evaluate, evaluate, hparse]

/-- Statements that read alike one by one have the same outcomes and leave the same session. -/
theorem runAll_eq_of_readings {sts sts' : List Statement}
    (h : sts.map (fun st => Expr.readings st.text) = sts'.map (fun st => Expr.readings st.text)) (s : Session) :
    (s.runAll sts).1 = (s.runAll sts').1 ∧
      (s.runAll sts).2.map (·.outcome) = (s.runAll sts').2.map (·.outcome) := by
  induction sts generalizing sts' s with
  | nil =>
    obtain rfl : sts' = [] := by simpa using h.symm
    exact ⟨rfl, rfl⟩
  | cons st rest ih =>
    cases sts' with
    | nil => cases h
    | cons st' rest' =>
      rw [List.map_cons, List.map_cons, List.cons.injEq] at h
      have hrest := ih h.2 (s.evaluate st'.text).1
      simp only [runAll, evaluate_eq_of_readings h.1 s, List.map_cons]
      exact ⟨hrest.1, congrArg _ hrest.2⟩

end Session

namespace Program

/-- The canonical forms of the statements read like the statements. -/
theorem readings_eq_pretty {sts : List Statement} {es : List Expr}
    (hparse : sts.map (fun st => Expr.ofText st.text) = es.map .ok) (hfloats : ∀ e ∈ es, e.FloatsReadBack) :
    sts.map (fun st => Expr.readings st.text) = es.map fun e => Expr.readings e.pretty := by
  induction sts generalizing es with
  | nil =>
    obtain rfl : es = [] := by simpa using hparse.symm
    rfl
  | cons st rest ih =>
    cases es with
    | nil => cases hparse
    | cons e es =>
      rw [List.map_cons, List.map_cons, List.cons.injEq] at hparse
      rw [List.forall_mem_cons] at hfloats
      rw [List.map_cons, List.map_cons, Expr.readings_pretty hparse.1 hfloats.1, ih hparse.2 hfloats.2]

/-- What the statements parse to came from one of them. -/
theorem exists_statement {sts : List Statement} {es : List Expr}
    (hparse : sts.map (fun st => Expr.ofText st.text) = es.map .ok) {e : Expr} (he : e ∈ es) :
    ∃ st ∈ sts, Expr.ofText st.text = .ok e := by
  have hmem : Except.ok e ∈ sts.map (fun st => Expr.ofText st.text) := hparse ▸ List.mem_map_of_mem he
  exact List.mem_map.mp hmem

/-- **Formatting keeps the program and is idempotent.** Let every float that occurs in the source be read back from its text.
If the source can be formatted, the formatted program has the same statements: as many, which parse to the same expressions in
order. It is formatted to itself, and in every session it has the outcomes of the source and leaves the session as the source
does. -/
theorem format_keeps_program (source file out : String) (hformat : format source file = .ok out)
    (hfloats : ∀ st ∈ Statement.ofSource source, ∀ e, Expr.ofText st.text = .ok e → e.FloatsReadBack) :
    (∃ es : List Expr, (Statement.ofSource source).map (fun st => Expr.ofText st.text) = es.map .ok ∧
      (Statement.ofSource out).map (fun st => Expr.ofText st.text) = es.map .ok) ∧
    (∀ file', format out file' = .ok out) ∧
    ∀ s : Session, (s.run out).2.map (·.outcome) = (s.run source).2.map (·.outcome) ∧
      (s.run out).1 = (s.run source).1 := by
  obtain ⟨es, hparse, hout⟩ := formatAll_eq_ok_iff.mp hformat
  rw [String.empty_append] at hout
  subst hout
  have hback : ∀ e ∈ es, e.FloatsReadBack := by
    intro e he
    obtain ⟨st, hst, hok⟩ := exists_statement hparse he
    exact hfloats st hst e hok
  have hlegible : ∀ e ∈ es, e.Legible := by
    intro e he
    obtain ⟨st, -, hok⟩ := exists_statement hparse he
    exact Expr.legible_of_ofText hok (hback e he)
  -- parsing and running see a statement through its readings only, so the two sources are compared there
  have hreadings : (Statement.ofSource (printed es)).map (fun st => Expr.readings st.text) =
      (Statement.ofSource source).map (fun st => Expr.readings st.text) := by
    have htexts := congrArg (List.map Expr.readings) (text_ofSource_printed hlegible)
    rw [List.map_map, List.map_map] at htexts
    exact htexts.trans (readings_eq_pretty hparse hback).symm
  have hparse' : (Statement.ofSource (printed es)).map (fun st => Expr.ofText st.text) = es.map .ok := by
    have hdefault := congrArg (List.map fun read : Int → Except ParseError Expr => read 0) hreadings
    rw [List.map_map, List.map_map] at hdefault
    exact hdefault.trans hparse
  refine ⟨⟨es, hparse, hparse'⟩, fun file' => ?_, fun s => ?_⟩
  · exact formatAll_eq_ok_iff.mpr ⟨es, hparse', (String.empty_append).symm⟩
  · exact (Session.runAll_eq_of_readings hreadings s).symm

/-- Two statements in free layout. The first is too wide for one line. -/
def spread : String :=
  "(+ +07\r\n 1.50 1234567890123456 1234567890123457 1234567890123458\n1234567890123459)\n\n(- nan  2)"

def spreadFormatted : String :=
  "(+ 7\n  1.5\n  1234567890123456\n  1234567890123457\n  1234567890123458\n  1234567890123459)\n(- nan 2)\n"

def spreadExprs : List Expr :=
  [.list [.symbol "+", .int 7, .float 1.5, .int 1234567890123456, .int 1234567890123457, .int 1234567890123458,
      .int 1234567890123459],
    .list [.symbol "-", .float Binary64.notANumber, .int 2]]

theorem ofText_spread : (Statement.ofSource spread).map (fun st => Expr.ofText st.text) = spreadExprs.map .ok := by
  have hlines : Statement.sourceLines spread =
      ["(+ +07", " 1.50 1234567890123456 1234567890123457 1234567890123458", "1234567890123459)", "", "(- nan  2)"] := by
    decide +kernel
  have htokens : (Statement.ofSource spread).map (fun st => Token.ofText st.text) =
      [["(", "+", "+07", "1.50", "1234567890123456", "1234567890123457", "1234567890123458", "1234567890123459", ")"],
        ["(", "-", "nan", "2", ")"]] := by
    rw [Statement.ofSource, hlines]
    decide +kernel
  have hparse := congrArg (List.map (Expr.parse 0)) htokens
  rw [List.map_map] at hparse
  exact hparse

theorem floatsReadBack_spread : ∀ e ∈ spreadExprs, e.FloatsReadBack := by
  have hleaves : ∀ f, .float f ∈ spreadExprs.flatMap Expr.leaves → f = 1.5 ∨ f = Binary64.notANumber := by
    simp [spreadExprs, Expr.leaves, Expr.leavesAll]
  intro e he f hf
  rcases hleaves f (List.mem_flatMap.mpr ⟨e, he, hf⟩) with rfl | rfl <;> rfl

/-- The first form is broken over lines and its numbers are rewritten; the two statements run as before. -/
theorem format_keeps_program_spread : format spread "" = .ok spreadFormatted ∧
    (∀ file, format spreadFormatted file = .ok spreadFormatted) ∧
    ((Session.fresh 0).run spreadFormatted).2.map (·.outcome) = ((Session.fresh 0).run spread).2.map (·.outcome) := by
  have hprinted : printed spreadExprs = spreadFormatted := by decide +kernel
  have hformat : format spread "" = .ok spreadFormatted :=
    formatAll_eq_ok_iff.mpr ⟨spreadExprs, ofText_spread, by rw [hprinted, String.empty_append]⟩
  have hfloats : ∀ st ∈ Statement.ofSource spread, ∀ e, Expr.ofText st.text = .ok e → e.FloatsReadBack := by
    intro st hst e he
    have hmem := List.mem_map_of_mem (f := fun st : Statement => Expr.ofText st.text) hst
    rw [ofText_spread, he] at hmem
    obtain ⟨e', he', hok⟩ := List.mem_map.mp hmem
    exact floatsReadBack_spread e (Except.ok.inj hok ▸ he')
  have hkeeps := format_keeps_program spread "" spreadFormatted hformat hfloats
  exact ⟨hformat, hkeeps.2.1, (hkeeps.2.2 (Session.fresh 0)).1⟩

end Program

end FormLang
