import FormLang.Proofs.Eval.Activity
import FormLang.Proofs.Session.Errors
import FormLang.Proofs.Session.Limit
import FormLang.Proofs.Session.Trace
import FormLang.Proofs.Summary.File

/-!
# The summary of a run

A summary is made from the file of a trace and knows nothing else of the run. It reports what the run did all the same:
the statements that were evaluated and those that failed, the functions that were defined, the calls that were entered, and
how many of them were in progress at once.

`Tells` relates events to the statements and to the activity that they come from. It holds of the events of one statement
(`tells_evaluate`) and of events one after another (`Tells.append`), hence of a whole run (`tells_runAll`).
-/

namespace FormLang

/-! ## The events of an activity -/

namespace Activity

/-- What is read off the events of a call, where its end says nothing. -/
theorem filterMap_events_call {g : Event → Option String} (hend : ∀ f depth, g (.callEnd f depth) = none) (f : Function)
    (depth : Nat) (inside rest : Activity) :
    (call f depth inside rest).events.filterMap g =
      (g (.callStart f.name depth)).toList ++ (inside.events.filterMap g ++ rest.events.filterMap g) := by
  rw [events, List.filterMap_cons, List.filterMap_append, List.filterMap_cons_none (hend f.name depth)]
  cases g (.callStart f.name depth) <;> rfl

variable (a : Activity)

theorem started?_events : a.events.filterMap Event.started? = [] := by
  induction a with
  | nothing => rfl
  | defined d rest ih => exact ih
  | call f depth inside rest ih ih' =>
    rw [filterMap_events_call (fun _ _ => rfl), ih, ih']
    rfl

theorem failed?_events : a.events.filterMap Event.failed? = [] := by
  induction a with
  | nothing => rfl
  | defined d rest ih => exact ih
  | call f depth inside rest ih ih' =>
    rw [filterMap_events_call (fun _ _ => rfl), ih, ih']
    rfl

theorem called?_events : a.events.filterMap Event.called? = a.called := by
  induction a with
  | nothing => rfl
  | defined d rest ih => exact ih
  | call f depth inside rest ih ih' =>
    rw [filterMap_events_call (fun _ _ => rfl), ih, ih']
    rfl

theorem defined?_events : a.events.filterMap Event.defined? = a.definedNames := by
  induction a with
  | nothing => rfl
  | defined d rest ih => exact congrArg (d.name :: ·) ih
  | call f depth inside rest ih ih' =>
    rw [filterMap_events_call (fun _ _ => rfl), ih, ih']
    rfl

/-- After the events of an activity as many calls are in progress as before, and meanwhile its height more. -/
theorem foldl_next_events {n : Nesting} (hn : n.active ≤ n.most) :
    a.events.foldl Nesting.next n = ⟨n.active, max n.most (n.active + a.height)⟩ := by
  induction a generalizing n with
  | nothing =>
    rw [height, Nat.add_zero, Nat.max_eq_left hn]
    rfl
  | defined d rest ih => exact ih hn
  | call f depth inside rest ih ih' =>
    rw [events, List.foldl_cons, List.foldl_append, ih (Nat.le_max_right _ _), List.foldl_cons, ih']
    · simp only [Nesting.next, height, Nesting.mk.injEq]
      omega
    · simp only [Nesting.next]
      omega

/-- A call ends only after it began. -/
theorem guarded_events (n : Nesting) (hn : n.active ≤ n.most) : Guarded n a.events := by
  induction a generalizing n with
  | nothing => trivial
  | defined d rest ih => exact ⟨fun hkind => (by cases hkind), ih n hn⟩
  | call f depth inside rest ih ih' =>
    have hstart : (n.next (.callStart f.name depth)).active ≤ (n.next (.callStart f.name depth)).most :=
      Nat.le_max_right _ _
    refine ⟨fun hkind => (by cases hkind), guarded_append.mpr ⟨ih _ hstart, ?_⟩⟩
    rw [inside.foldl_next_events hstart]
    refine ⟨fun _ => Nat.succ_pos n.active, ih' _ ?_⟩
    simp only [Nesting.next]
    omega

end Activity

/-! ## What a session does -/

/-- Whether the statement parses under a depth limit. -/
def Statement.reads (limit : Int) (st : Statement) : Bool :=
  match Expr.parse limit (Token.ofText st.text) with
  | .ok _ => true
  | .error _ => false

namespace Session

/-- What a statement does in the session. One that does not parse does nothing. -/
def activity (s : Session) (text : String) : Activity :=
  match Expr.parse s.limit (Token.ofText text) with
  | .ok e => FormLang.activity (effectiveLimit s.limit) s.machine e globalScope
  | .error _ => .nothing

/-- What statements do one after another. -/
def activityAll (s : Session) : List Statement → Activity
  | [] => .nothing
  | st :: rest => (s.activity st.text).append ((s.evaluate st.text).1.activityAll rest)

end Session

/-- The results of the statements that parsed. -/
def Result.parsed (limit : Int) (rs : List Result) : List Result :=
  rs.filter fun r => r.statement.reads limit

/-- The codes of the statements that parsed and then failed. -/
def Result.failedCodes (limit : Int) (rs : List Result) : List String :=
  ((parsed limit rs).filterMap code?).map Code.text

theorem Result.length_failedCodes (limit : Int) (rs : List Result) :
    (failedCodes limit rs).length = ((parsed limit rs).filter failed).length := by
  have hcode : ∀ r : Result, r.code?.isSome = r.failed := by
    rintro ⟨st, p | v⟩ <;> rfl
  rw [failedCodes, List.length_map, List.length_filterMap_eq_countP, List.countP_eq_length_filter]
  simp only [hcode]

/-! ## What the events of statements tell -/

/-- The events tell which statements parsed and how they failed, and what was done meanwhile. -/
structure Tells (limit : Int) (rs : List Result) (a : Activity) (es : List Event) : Prop where
  started : (es.filterMap Event.started?).length = (Result.parsed limit rs).length
  failed : es.filterMap Event.failed? = Result.failedCodes limit rs
  called : es.filterMap Event.called? = a.called
  defined : es.filterMap Event.defined? = a.definedNames
  nesting : ∀ n : Nesting, n.active ≤ n.most → es.foldl Nesting.next n = ⟨n.active, max n.most (n.active + a.height)⟩
  guarded : ∀ n : Nesting, n.active ≤ n.most → Guarded n es

namespace Tells

variable {limit : Int}

theorem nil : Tells limit [] .nothing [] where
  started := rfl
  failed := rfl
  called := rfl
  defined := rfl
  nesting _ hn := Activity.nothing.foldl_next_events hn
  guarded _ _ := trivial

theorem append {rs rs' : List Result} {a a' : Activity} {es es' : List Event} (h : Tells limit rs a es)
    (h' : Tells limit rs' a' es') : Tells limit (rs ++ rs') (a.append a') (es ++ es') where
  started := by
    rw [List.filterMap_append, List.length_append, h.started, h'.started, Result.parsed, Result.parsed, Result.parsed,
      List.filter_append, List.length_append]
  failed := by
    rw [List.filterMap_append, h.failed, h'.failed]
    simp [Result.failedCodes, Result.parsed]
  called := by rw [List.filterMap_append, h.called, h'.called, Activity.called_append]
  defined := by rw [List.filterMap_append, h.defined, h'.defined, Activity.definedNames_append]
  nesting n hn := by
    have hmost : n.active ≤ max n.most (n.active + a.height) := Nat.le_trans hn (Nat.le_max_left _ _)
    rw [List.foldl_append, h.nesting n hn, h'.nesting ⟨n.active, _⟩ hmost, Activity.height_append]
    simp only [Nesting.mk.injEq, true_and]
    omega
  guarded n hn := by
    rw [guarded_append, h.nesting n hn]
    exact ⟨h.guarded n hn, h'.guarded _ (Nat.le_trans hn (Nat.le_max_left _ _))⟩

/-- A statement that does not parse tells nothing. -/
theorem unread {st : Statement} {err : ParseError} (hparse : Expr.parse limit (Token.ofText st.text) = .error err)
    (outcome : Except Problem Value) : Tells limit [⟨st, outcome⟩] .nothing [] := by
  have hparsed : Result.parsed limit [⟨st, outcome⟩] = [] := by simp [Result.parsed, Statement.reads, hparse]
  have hcodes : Result.failedCodes limit [⟨st, outcome⟩] = [] := by rw [Result.failedCodes, hparsed]; rfl
  obtain ⟨-, -, hcalled, hdefined, hnesting, hguarded⟩ := (nil : Tells limit [] .nothing [])
  exact ⟨by rw [hparsed]; rfl, hcodes.symm, hcalled, hdefined, hnesting, hguarded⟩

/-- A statement that parses tells its activity between its start and the event that closes it. -/
theorem read {st : Statement} {e : Expr} (hparse : Expr.parse limit (Token.ofText st.text) = .ok e) (out : Outcome)
    (a : Activity) :
    Tells limit [⟨st, out.mapError .eval⟩] a (.evalStart e.flat :: (a.events ++ [closingEvent out])) := by
  have hparsed : Result.parsed limit [⟨st, out.mapError .eval⟩] = [⟨st, out.mapError .eval⟩] := by
    simp [Result.parsed, Statement.reads, hparse]
  have hevents : ∀ g : Event → Option String,
      (Event.evalStart e.flat :: (a.events ++ [closingEvent out])).filterMap g =
        (g (.evalStart e.flat)).toList ++ (a.events.filterMap g ++ (g (closingEvent out)).toList) := by
    intro g
    rw [List.filterMap_cons, List.filterMap_append, List.filterMap_cons, List.filterMap_nil]
    cases g (.evalStart e.flat) <;> cases g (closingEvent out) <;> rfl
  constructor
  · rw [hparsed, hevents, a.started?_events]
    cases out <;> rfl
  · rw [Result.failedCodes, hparsed, hevents, a.failed?_events]
    cases out <;> rfl
  · rw [hevents, a.called?_events]
    cases out <;> exact List.append_nil _
  · rw [hevents, a.defined?_events]
    cases out <;> exact List.append_nil _
  · intro n hn
    have hstart : n.next (.evalStart e.flat) = n := rfl
    rw [List.foldl_cons, hstart, List.foldl_append, a.foldl_next_events hn]
    cases out <;> rfl
  · intro n hn
    have hstart : n.next (.evalStart e.flat) = n := rfl
    refine ⟨fun hkind => (by cases hkind), ?_⟩
    rw [hstart, guarded_append]
    refine ⟨a.guarded_events n hn, ?_⟩
    cases out <;> exact ⟨fun hkind => (by cases hkind), trivial⟩

end Tells

/-! ## The events of a run -/

/-- An event that was recorded before changes nothing in what is done. -/
theorem activity_emit (limit : Nat) (m : Machine) (ev : Event) (e : Expr) (s : ScopeId) :
    activity limit (m.emit ev) e s = activity limit m e s := by
  rw [← activity_silent, Machine.silent_emit, activity_silent]

theorem trace_evalTop_eq (limit : Nat) {m : Machine} (htraced : m.trace.enabled = true) (hidle : m.counters.depth = 0)
    (e : Expr) (s : ScopeId) :
    (evalTop limit m e s).1.trace = m.trace.noteAll
      (.evalStart e.flat :: ((activity limit m e s).events ++ [closingEvent (evalTop limit m e s).2])) := by
  have htrace := trace_eval limit (m.emit (.evalStart e.flat)) e s
  rw [activity_emit] at htrace
  exact trace_evalTop_of_eval htraced hidle htrace

namespace Session

theorem tells_evaluate {s : Session} (htraced : s.machine.trace.enabled = true) (hidle : s.counters.depth = 0)
    (st : Statement) :
    ∃ es, Tells s.limit [⟨st, (s.evaluate st.text).2⟩] (s.activity st.text) es ∧
      (s.evaluate st.text).1.machine.trace = s.machine.trace.noteAll es := by
  cases hparse : Expr.parse s.limit (Token.ofText st.text) with
  | error err =>
    rw [activity, hparse, evaluate_of_error hparse]
    exact ⟨[], .unread hparse _, rfl⟩
  | ok e =>
    have htrace := trace_evalTop_eq (effectiveLimit s.limit) htraced hidle e globalScope
    rw [activity, hparse, evaluate_of_ok hparse]
    exact ⟨_, .read hparse _ _, htrace⟩

theorem tells_runAll {s : Session} (htraced : s.machine.trace.enabled = true) (hidle : s.counters.depth = 0)
    (sts : List Statement) :
    ∃ es, Tells s.limit (s.runAll sts).2 (s.activityAll sts) es ∧
      (s.runAll sts).1.machine.trace = s.machine.trace.noteAll es := by
  induction sts generalizing s with
  | nil => exact ⟨[], .nil, rfl⟩
  | cons st rest ih =>
    obtain ⟨es, hes, htrace⟩ := tells_evaluate htraced hidle st
    have htraced' : (s.evaluate st.text).1.machine.trace.enabled = true := by
      rw [htrace, Trace.enabled_noteAll, htraced]
    obtain ⟨es', hes', htrace'⟩ := ih htraced' ((counters_depth_evaluate s st.text).trans hidle)
    rw [limit_evaluate] at hes'
    rw [runAll_cons]
    refine ⟨es ++ es', hes.append hes', ?_⟩
    rw [Trace.noteAll_append, ← htrace]
    exact htrace'

end Session

/-! ## The summary of a file -/

section file

/- The records of a run, each with its time. -/
variable {limit : Int} {rs : List Result} {a : Activity} {es : List Event} (htells : Tells limit rs a es)
  {runId : String} {stamped : List (Record × String)} (hstamped : stamped.map Prod.fst = es.map (Record.mk runId))

include hstamped

theorem events_of_stamped : stamped.map (·.1.event) = es := by
  have hevents := congrArg (List.map Record.event) hstamped
  rw [List.map_map, List.map_map] at hevents
  exact hevents.trans (List.map_id es)

theorem runId_of_stamped : ∀ x ∈ stamped, x.1.runId = runId := by
  intro x hx
  have hmem : x.1 ∈ es.map (Record.mk runId) := hstamped ▸ List.mem_map_of_mem hx
  obtain ⟨e, -, he⟩ := List.mem_map.mp hmem
  rw [← he]

include htells

/-- When a record closes a call, some call is in progress. -/
theorem active_pos_of_callEnd {before after : List (Record × String)} {x : Record × String}
    (hsplit : stamped = before ++ x :: after) (hkind : x.1.event.kind = .callEnd) :
    0 < (Summary.ofEntries (before.map fun x => x.1.entry x.2)).active := by
  have hbefore : ∀ y ∈ before, y.1.runId = runId := by
    intro y hy
    exact runId_of_stamped hstamped y (by simp [hsplit, hy])
  have hguarded := htells.guarded .none (Nat.le_refl 0)
  rw [← events_of_stamped hstamped, hsplit, List.map_append, guarded_append] at hguarded
  rw [← (Summary.reports_ofEntries hbefore).nesting] at hguarded
  exact hguarded.2.1 hkind

end file

namespace Session

/-- **The summary of a trace reports what the run did.** Let the records of a traced run be written to a file, each with some
time, where each line is short enough and is read back as its record. The summary of the file then gives: the number of
records; how many statements parsed, and how many of these failed with which codes; the functions that were called, how
often each, and the most calls that were in progress at once; the names that were defined, in order; and the identifier of
the run. A call never ends while none is in progress. -/
theorem summary_reports_run (heap : Heap) (limit : Int) (runId source : String) (stamped : List (Record × String))
    (hstamped : stamped.map Prod.fst = ((start heap limit runId true).run source).1.machine.trace.records.toList)
    (hread : ∀ x ∈ stamped, Entry.ofLine? (x.1.toJson x.2).compact = some (x.1.entry x.2))
    (hsize : ∀ x ∈ stamped, Text.size (x.1.toJson x.2).compact < Summary.maxLine) :
    let results := ((start heap limit runId true).run source).2
    let did := (start heap limit runId true).activityAll (Statement.ofSource source)
    ∃ sum, Summary.ofText? (Record.file stamped) = some sum ∧
      sum.totalEvents = stamped.length ∧
      sum.evaluations = (Result.parsed limit results).length ∧
      sum.failures = ((Result.parsed limit results).filter Result.failed).length ∧
      sum.failuresByCode.Counts (Result.failedCodes limit results) ∧
      sum.calls = did.called.length ∧ sum.callsByName.total = sum.calls ∧ sum.callsByName.Counts did.called ∧
      sum.definitions = did.definedNames ∧
      sum.maxActive = did.height ∧
      (stamped ≠ [] → sum.runId = runId) ∧
      ∀ before x after, stamped = before ++ x :: after → x.1.event.kind = .callEnd →
        0 < (Summary.ofEntries (before.map fun x => x.1.entry x.2)).active := by
  obtain ⟨es, htells, htrace⟩ := tells_runAll (s := start heap limit runId true) rfl rfl (Statement.ofSource source)
  have hrecords : stamped.map Prod.fst = es.map (Record.mk runId) := by
    rw [hstamped, run, htrace, Trace.records_noteAll rfl]
    rfl
  have hevents := events_of_stamped hrecords
  have hreports := Summary.reports_ofEntries (runId_of_stamped hrecords)
  have hnesting := hreports.nesting
  rw [hevents] at hreports hnesting
  rw [htells.nesting .none (Nat.le_refl 0)] at hnesting
  intro results did
  refine ⟨_, Summary.ofText?_file hread hsize, ?_, hreports.evaluations.trans htells.started, ?_, ?_, ?_,
    hreports.callsByName.sum.trans hreports.calls.symm, ?_, hreports.definitions.trans htells.defined, ?_, fun hne => ?_,
    fun before x after => active_pos_of_callEnd htells hrecords⟩
  · rw [hreports.totalEvents, ← hevents, List.length_map]
  · rw [hreports.failures, htells.failed]
    exact Result.length_failedCodes _ _
  · have hcounts := hreports.failuresByCode
    rw [htells.failed] at hcounts
    exact hcounts
  · rw [hreports.calls, htells.called]
  · rw [← htells.called]
    exact hreports.callsByName
  · have hmost := congrArg Nesting.most hnesting
    simpa [Nesting.none] using hmost
  · have hes : es ≠ [] := by
      rintro rfl
      exact hne (List.map_eq_nil_iff.mp hrecords)
    rw [hreports.run, if_neg hes]

/-- Two calls, the second inside the first, and a failure inside both; then a form that is not closed. -/
def failingRecursion : String :=
  "(defun f (x) (if x (f 0) y))\n(f 1)\n(f"

def failingRecords : List Record :=
  [.evalStart "(defun f (x) (if x (f 0) y))", .defined "f" ["x"], .evalEnd "Defined F", .evalStart "(f 1)",
    .callStart "f" 1, .callStart "f" 3, .callEnd "f" 3, .callEnd "f" 1, .failed .name "name 'y' is not defined"].map
    (Record.mk "r")

theorem summary_reports_run_failing_recursion :
    ∃ sum, Summary.ofText?
        (Command.traceText ((start (Heap.empty.push none) 20 "r" true).run failingRecursion).1 "t") = some sum ∧
      sum.totalEvents = 9 ∧ sum.evaluations = 2 ∧ sum.failures = 1 ∧ sum.calls = 2 ∧ sum.callsByName.total = 2 ∧
      sum.definitions = ["f"] ∧ sum.maxActive = 2 ∧ sum.runId = "r" := by
  have hrecords : ((start (Heap.empty.push none) 20 "r" true).run failingRecursion).1.machine.trace.records.toList =
      failingRecords := by decide +kernel
  have hlines : ∀ x ∈ failingRecords.map fun r => (r, "t"),
      Entry.ofLine? (x.1.toJson x.2).compact = some (x.1.entry x.2) ∧
      Text.size (x.1.toJson x.2).compact < Summary.maxLine := by decide +kernel
  have hresults : (Result.parsed 20 ((start (Heap.empty.push none) 20 "r" true).run failingRecursion).2).map
      Result.failed = [false, true] := by decide +kernel
  have hdid : let did := (start (Heap.empty.push none) 20 "r" true).activityAll (Statement.ofSource failingRecursion)
      (did.called, did.definedNames, did.height) = (["f", "f"], ["f"], 2) := by decide +kernel
  rw [Prod.mk.injEq, Prod.mk.injEq] at hdid
  obtain ⟨sum, hsum, htotal, hevaluations, hfailures, -, hcalls, hbyName, -, hdefinitions, hmost, hrun, -⟩ :=
    summary_reports_run (Heap.empty.push none) 20 "r" failingRecursion (failingRecords.map fun r => (r, "t"))
      (by rw [hrecords]; rfl) (fun x hx => (hlines x hx).1) fun x hx => (hlines x hx).2
  rw [Command.traceText_eq_file, hrecords]
  rw [hdid.1] at hcalls
  refine ⟨sum, hsum, htotal, ?_, ?_, hcalls, hbyName.trans hcalls, hdefinitions.trans hdid.2.1, hmost.trans hdid.2.2,
    hrun (List.cons_ne_nil _ _)⟩
  · have hlength := congrArg List.length hresults
    rw [List.length_map] at hlength
    exact hevaluations.trans hlength
  · have hcount := congrArg (List.countP id) hresults
    rw [List.countP_map] at hcount
    rw [hfailures, ← List.countP_eq_length_filter]
    exact hcount

end Session

end FormLang
