import FormLang.Proofs.Json.OneLine

/-!
# Printed results

A run prints the values of the statements that succeeded to the output (`out_print`) and the failures of the others to the
error output (`err_print`), each in the order of the statements. As JSON each of them is on one line whatever texts it holds,
because these are quoted (`Value.oneLine_toJson`, `Diagnostic.oneLine_toJson`). So the lines of the two outputs are the values
and the diagnostics (`lines_print_json`).
-/

namespace FormLang

/-! ## JSON on one line -/

theorem Value.oneLine_toJson (v : Value) : Text.OneLine v.toJson.compact := by
  refine Json.oneLine_compact _ ?_
  have hfloat : ∀ f, ∀ l ∈ (floatJson f).numbers, Text.OneLine l := by
    intro f l hl
    rw [floatJson] at hl
    split at hl
    · rw [List.mem_singleton.mp hl]
      have hnan : Token.IsWord jsonLayout.nan := Token.isWord_of_all (by decide) (by decide)
      have hinf : Token.IsWord jsonLayout.infinity := Token.isWord_of_all (by decide) (by decide)
      exact (Decimal.Layout.isWord_write hnan hinf f).isPlain.lineFeed_notMem
    · cases hl
  cases v with
  | int n => exact List.forall_mem_singleton.mpr (Decimal.isWord_ofInt n.toInt).isPlain.lineFeed_notMem
  | float f => exact hfloat f
  | negativeNaN => exact hfloat Binary64.notANumber
  | _ => simp [toJson, Json.numbers, Json.fieldNumbers, Json.itemNumbers_map_str]

theorem Diagnostic.oneLine_toJson (d : Diagnostic) : Text.OneLine d.toJson.compact := by
  obtain ⟨code, message, location, hint⟩ := d
  refine Json.oneLine_compact _ fun l hl => ?_
  -- the line of the location is the only number
  cases location with
  | none =>
    by_cases hhint : hint = "" <;> simp [toJson, hhint, Json.numbers, Json.fieldNumbers] at hl
  | some location =>
    have hline : l = Decimal.ofInt location.line := by
      by_cases hhint : hint = "" <;> simpa [toJson, hhint, Json.numbers, Json.fieldNumbers] using hl
    rw [hline]
    exact (Decimal.isWord_ofInt location.line).isPlain.lineFeed_notMem

/-! ## Values and failures of a run -/

namespace Result

/-- The values of the statements that succeeded. -/
def values : List Result → List Value
  | [] => []
  | ⟨_, .error _⟩ :: rest => values rest
  | ⟨_, .ok v⟩ :: rest => v :: values rest

/-- The statements that failed, and how. -/
def failures : List Result → List (Statement × Problem)
  | [] => []
  | ⟨st, .error p⟩ :: rest => (st, p) :: failures rest
  | ⟨_, .ok _⟩ :: rest => failures rest

/-- What is reported of the statements that failed. -/
def diagnostics (file : String) (results : List Result) : List Diagnostic :=
  (failures results).map fun failure => failure.2.diagnostic.locate file failure.1.line

theorem out_print (results : List Result) (file : String) (pretty : Bool) :
    (print results file pretty).out = String.join (((values results).map (·.render pretty)).map printLine) := by
  induction results with
  | nil => rfl
  | cons r rest ih =>
    have hprint : (print (r :: rest) file pretty).out = outLine pretty r ++ (print rest file pretty).out :=
      String.join_cons
    rcases r with ⟨st, err | v⟩
    · rw [hprint, ih, values]
      exact String.empty_append
    · rw [hprint, ih, values, List.map_cons, List.map_cons, String.join_cons]
      rfl

/-- A run reports the same failures with their places. -/
theorem err_print (results : List Result) (file : String) (pretty : Bool) :
    (print results file pretty).err =
      String.join ((failures results).map fun failure =>
        printLine ((failure.2.diagnostic.locate file failure.1.line).render pretty)) := by
  induction results with
  | nil => rfl
  | cons r rest ih =>
    have hprint : (print (r :: rest) file pretty).err = errLine file pretty r ++ (print rest file pretty).err :=
      String.join_cons
    rcases r with ⟨st, err | v⟩
    · rw [hprint, ih, failures, List.map_cons, String.join_cons]
      rfl
    · rw [hprint, ih, failures]
      exact String.empty_append

/-- As JSON each value and each diagnostic is a line. -/
theorem lines_print_json (results : List Result) (file : String) :
    Text.lines (print results file false).out = (values results).map (·.render false) ++ [""] ∧
    Text.lines (print results file false).err = (diagnostics file results).map (·.render false) ++ [""] := by
  have herr : (print results file false).err =
      String.join (((diagnostics file results).map (·.render false)).map printLine) := by
    rw [err_print, diagnostics, List.map_map, List.map_map]
    rfl
  rw [out_print, herr]
  refine ⟨Text.lines_join_printLine ?_, Text.lines_join_printLine ?_⟩
  · exact List.forall_mem_map.mpr fun v _ => v.oneLine_toJson
  · exact List.forall_mem_map.mpr fun d _ => d.oneLine_toJson

/-- As text each value is a line, where none holds a line feed. -/
theorem lines_print_text {results : List Result} (h : ∀ v ∈ values results, Text.OneLine v.text) (file : String) :
    Text.lines (print results file true).out = (values results).map (·.render true) ++ [""] := by
  rw [out_print]
  exact Text.lines_join_printLine (List.forall_mem_map.mpr h)

end Result

end FormLang
