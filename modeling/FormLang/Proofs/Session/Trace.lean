import Mathlib.Data.List.Forall2
import FormLang.Proofs.Eval.Brackets
import FormLang.Proofs.Session.Basic

/-!
# The trace of a run

What a traced run records, statement by statement. A statement that does not parse records nothing. Any other records its
start, the bracketed events of its evaluation, and one event that closes it: the value, or the error with its code.
`StatementEvents` states this of one statement and its result, and `run_trace` of a whole run.
-/

namespace FormLang

/-! ## Statements that parse -/

/-- The event that closes a statement. -/
def closingEvent : Outcome → Event
  | .ok v => .evalEnd v.text
  | .error err => .failed err.code err.message

/-- What a traced statement records stands between its start and one closing event. -/
theorem trace_evalTop_of_eval {limit : Nat} {m : Machine} (htraced : m.trace.enabled = true)
    (hidle : m.counters.depth = 0) {e : Expr} {s : ScopeId} {body : List Event}
    (hbody : (eval limit (m.emit (.evalStart e.flat)) e s).1.trace = (m.emit (.evalStart e.flat)).trace.noteAll body) :
    (evalTop limit m e s).1.trace =
      m.trace.noteAll (.evalStart e.flat :: (body ++ [closingEvent (evalTop limit m e s).2])) := by
  rw [Machine.trace_emit] at hbody
  rw [Trace.noteAll_cons, Trace.noteAll_append, ← hbody, evalTop, if_pos (by simp [htraced, hidle])]
  rcases eval limit (m.emit (.evalStart e.flat)) e s with ⟨m', err | v⟩ <;> exact Machine.trace_emit m' _

/-- The events of a traced statement are bracketed. -/
theorem trace_evalTop (limit : Nat) {m : Machine} (htraced : m.trace.enabled = true) (hidle : m.counters.depth = 0)
    (e : Expr) (s : ScopeId) :
    ∃ body, Bracketed limit 0 body ∧ (evalTop limit m e s).1.trace =
      m.trace.noteAll (.evalStart e.flat :: (body ++ [closingEvent (evalTop limit m e s).2])) := by
  obtain ⟨-, body, hbody, htrace⟩ := Eval.brackets_eval limit (m.emit (.evalStart e.flat)) e s
  rw [Machine.counters_emit, hidle] at hbody
  exact ⟨body, hbody, trace_evalTop_of_eval htraced hidle htrace⟩

/-! ## Statements of a session -/

/-- The events of a statement with its result, under a depth limit. -/
inductive StatementEvents (limit : Int) : Result → List Event → Prop
  | unread {st : Statement} {err : ParseError} : Expr.parse limit (Token.ofText st.text) = .error err →
      StatementEvents limit ⟨st, .error (.parse err)⟩ []
  | succeeded {st : Statement} {e : Expr} {v : Value} {body : List Event} :
      Expr.parse limit (Token.ofText st.text) = .ok e → Bracketed (effectiveLimit limit) 0 body →
      StatementEvents limit ⟨st, .ok v⟩ (.evalStart e.flat :: (body ++ [.evalEnd v.text]))
  | failed {st : Statement} {e : Expr} {err : EvalError} {body : List Event} :
      Expr.parse limit (Token.ofText st.text) = .ok e → Bracketed (effectiveLimit limit) 0 body →
      StatementEvents limit ⟨st, .error (.eval err)⟩ (.evalStart e.flat :: (body ++ [.failed err.code err.message]))

namespace Session

theorem trace_evaluate {s : Session} (htraced : s.machine.trace.enabled = true) (hidle : s.counters.depth = 0)
    (st : Statement) :
    ∃ es, StatementEvents s.limit ⟨st, (s.evaluate st.text).2⟩ es ∧
      (s.evaluate st.text).1.machine.trace = s.machine.trace.noteAll es := by
  cases hparse : Expr.parse s.limit (Token.ofText st.text) with
  | error err =>
    rw [evaluate_of_error hparse]
    exact ⟨[], .unread hparse, rfl⟩
  | ok e =>
    obtain ⟨body, hbody, htrace⟩ := trace_evalTop (effectiveLimit s.limit) htraced hidle e globalScope
    rw [evaluate_of_ok hparse]
    refine ⟨_, ?_, htrace⟩
    rcases (evalTop (effectiveLimit s.limit) s.machine e globalScope).2 with err | v
    · exact .failed hparse hbody
    · exact .succeeded hparse hbody

theorem trace_runAll {s : Session} (htraced : s.machine.trace.enabled = true) (hidle : s.counters.depth = 0)
    (sts : List Statement) :
    ∃ segments, List.Forall₂ (StatementEvents s.limit) (s.runAll sts).2 segments ∧
      (s.runAll sts).1.machine.trace = s.machine.trace.noteAll segments.flatten := by
  induction sts generalizing s with
  | nil => exact ⟨[], .nil, rfl⟩
  | cons st rest ih =>
    obtain ⟨es, hes, htrace⟩ := trace_evaluate htraced hidle st
    have htraced' : (s.evaluate st.text).1.machine.trace.enabled = true := by
      rw [htrace, Trace.enabled_noteAll, htraced]
    obtain ⟨segments, hsegments, htrace'⟩ := ih htraced' ((counters_depth_evaluate s st.text).trans hidle)
    rw [limit_evaluate] at hsegments
    refine ⟨es :: segments, .cons hes hsegments, ?_⟩
    rw [List.flatten_cons, Trace.noteAll_append, ← htrace]
    exact htrace'

/-- **The trace of every run is well bracketed.** The records that a run adds are those of its statements one after another:
none for a statement that does not parse, else its start, bracketed calls and definitions, and the one event that closes
it. All of them carry the identifier of the session. The built-ins in scope are those of `Operation`, which record nothing. -/
theorem run_trace (s : Session) (hlive : s.Live) (htraced : s.machine.trace.enabled = true) (source : String) :
    ∃ segments : List (List Event), List.Forall₂ (StatementEvents s.limit) (s.run source).2 segments ∧
      (s.run source).1.machine.trace.records.toList =
        s.machine.trace.records.toList ++ segments.flatten.map (Record.mk s.machine.trace.runId) := by
  obtain ⟨segments, hsegments, htrace⟩ := trace_runAll htraced hlive.counters_depth (Statement.ofSource source)
  refine ⟨segments, hsegments, ?_⟩
  rw [run, htrace, Trace.records_noteAll htraced]

/-- A recursion that fails in its second call: both calls are closed before the statement is, and the unfinished form after
it records nothing. -/
theorem run_trace_failing_recursion :
    ∃ segments : List (List Event),
      List.Forall₂ (StatementEvents 20)
        (run (start (Heap.empty.push none) 20 "run" true) "(defun f (x) (if x (f 0) y))\n(f 1)\n(f").2 segments ∧
      segments.flatten.map Event.kind =
        [.evalStart, .defined, .evalEnd, .evalStart, .callStart, .callStart, .callEnd, .callEnd, .failed] := by
  obtain ⟨segments, hsegments, hrecords⟩ := run_trace (start (Heap.empty.push none) 20 "run" true)
    (.start _ _ _ _) rfl "(defun f (x) (if x (f 0) y))\n(f 1)\n(f"
  have hkinds := congrArg (List.map fun r => r.event.kind) hrecords
  rw [List.map_append, List.map_map] at hkinds
  exact ⟨segments, hsegments, hkinds.symm.trans (by decide +kernel)⟩

end Session

end FormLang
