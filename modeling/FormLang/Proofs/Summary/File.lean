import Mathlib.Data.List.Basic
import FormLang.Command
import FormLang.Proofs.Json.OneLine
import FormLang.Proofs.Summary.Counting

/-!
# Trace files

A trace file has a line for each record. The text of a record holds no line feed (`oneLine_record`), whatever texts it
carries, because these are quoted. So the lines of the file are the texts of the records (`lines_file`), and where each of
them is read back as its record, the summary of the file is that of the records (`ofText?_file`).
-/

namespace FormLang

/-! ## Trimmed texts -/

namespace Text

/-- What begins and ends with no blank is not trimmed. -/
theorem trimChars_of_ends {first last : Char} (hfirst : isBlank first = false) (hlast : isBlank last = false)
    (cs : List Char) : trimChars (first :: (cs ++ [last])) = first :: (cs ++ [last]) := by
  have hstart : trimStart (first :: (cs ++ [last])) = first :: (cs ++ [last]) :=
    List.dropWhile_cons_of_neg (by simp [hfirst])
  have hend : (first :: (cs ++ [last])).reverse = last :: (cs.reverse ++ [first]) := by simp
  have hstart' : trimStart (last :: (cs.reverse ++ [first])) = last :: (cs.reverse ++ [first]) :=
    List.dropWhile_cons_of_neg (by simp [hlast])
  rw [trimChars, hstart, hend, hstart', ← hend, List.reverse_reverse]

end Text

/-! ## Documents -/

namespace Json

/-- A document in braces is not trimmed. -/
theorem trim_compact_obj (fields : List (String × Json)) :
    Text.trim (compact (.obj fields)) = compact (.obj fields) := by
  have hchars : (compact (.obj fields)).toList =
      '\x7b' :: ((",".intercalate (compactFields fields)).toList ++ ['\x7d']) := by
    rw [compact]
    simp
  rw [Text.trim, hchars, Text.trimChars_of_ends (by decide) (by decide), ← hchars, String.ofList_toList]

end Json

/-! ## Files -/

namespace Record

theorem oneLine_toJson (r : Record) (time : String) : Text.OneLine (r.toJson time).compact := by
  refine Json.oneLine_compact _ ?_
  have hdata : ∀ l ∈ Json.fieldNumbers r.event.data, Text.OneLine l := by
    cases r.event with
    | callStart f depth => simpa [Event.data, Json.fieldNumbers, Json.numbers] using Json.oneLine_ofNat depth
    | callEnd f depth => simpa [Event.data, Json.fieldNumbers, Json.numbers] using Json.oneLine_ofNat depth
    | _ => simp [Event.data, Json.fieldNumbers, Json.numbers, Json.itemNumbers_map_str]
  simpa [toJson, Json.fieldNumbers, Json.numbers] using hdata

/-- The lines of a trace file, one for each record with its time. -/
def file (stamped : List (Record × String)) : String :=
  String.join (stamped.map fun x => printLine (x.1.toJson x.2).compact)

theorem lines_file (stamped : List (Record × String)) :
    Text.lines (file stamped) = (stamped.map fun x => (x.1.toJson x.2).compact) ++ [""] := by
  have hone : ∀ l ∈ stamped.map fun x => (x.1.toJson x.2).compact, Text.OneLine l := by
    intro l hl
    obtain ⟨x, -, rfl⟩ := List.mem_map.mp hl
    exact oneLine_toJson x.1 x.2
  have hlines := Text.lines_join_printLine hone
  rw [List.map_map] at hlines
  exact hlines

end Record

theorem Command.traceText_eq_file (s : Session) (time : String) :
    traceText s time = Record.file (s.machine.trace.records.toList.map fun r => (r, time)) := by
  rw [traceText, Record.file, List.map_map]
  rfl

namespace Summary

/-- The summary of a trace file is that of its records, where each line is short enough and is read back as its record. -/
theorem ofText?_file {stamped : List (Record × String)}
    (hread : ∀ x ∈ stamped, Entry.ofLine? (x.1.toJson x.2).compact = some (x.1.entry x.2))
    (hsize : ∀ x ∈ stamped, Text.size (x.1.toJson x.2).compact < maxLine) :
    ofText? (Record.file stamped) = some (ofEntries (stamped.map fun x => x.1.entry x.2)) := by
  have hshort : ¬ (Text.lines (Record.file stamped)).any (fun line => maxLine ≤ Text.size line) = true := by
    rw [Record.lines_file, List.any_append, Bool.or_eq_true, not_or, List.any_map]
    refine ⟨?_, by decide⟩
    simpa using hsize
  have hentries : entries (Text.lines (Record.file stamped)) = stamped.map fun x => x.1.entry x.2 := by
    -- the empty line after the last record is no record
    have hlast : [""].filterMap (fun line => Entry.ofLine? (Text.trim line)) = [] :=
      List.filterMap_cons_none (by decide +kernel)
    rw [Record.lines_file, entries, List.filterMap_append, List.filterMap_map, hlast, List.append_nil,
      List.filterMap_eq_map_iff_forall_eq_some]
    intro x hx
    have htrim : Text.trim (x.1.toJson x.2).compact = (x.1.toJson x.2).compact := Json.trim_compact_obj _
    rw [Function.comp_apply, htrim, hread x hx]
  simp only [ofText?, if_neg hshort, hentries]

end Summary

end FormLang
