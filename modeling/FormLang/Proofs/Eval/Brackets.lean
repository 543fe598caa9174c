import FormLang.Proofs.Eval.Simulation

/-!
# Calls open and close

The events that an evaluation records are well bracketed: the start of a call is followed by its end, with the same name
and the same depth, whatever fails in between. `Bracketed` is the grammar, with the depth of the call around as a
parameter; `brackets_within` shows by induction over the levels that every evaluation follows it.

A call is recorded with the depth at which it is evaluated, and its body is evaluated one level below. So the calls inside
are deeper, and none is deeper than the limit.
-/

namespace FormLang

/-! ## The grammar -/

/-- Events that close every call they open, inside a call of depth `outer`. A call is deeper than the one around it and no
deeper than the limit. -/
inductive Bracketed (limit : Nat) : (outer : Nat) → List Event → Prop
  | nil {outer : Nat} : Bracketed limit outer []
  | defined {outer : Nat} {es : List Event} (f : String) (params : List String) :
      Bracketed limit outer es → Bracketed limit outer (.defined f params :: es)
  | call {outer d : Nat} {body rest : List Event} (f : String) : outer < d → d ≤ limit →
      Bracketed limit d body → Bracketed limit outer rest →
      Bracketed limit outer (.callStart f d :: (body ++ .callEnd f d :: rest))

namespace Bracketed

variable {limit outer : Nat} {es es' : List Event}

theorem append (h : Bracketed limit outer es) (h' : Bracketed limit outer es') : Bracketed limit outer (es ++ es') := by
  induction h with
  | nil => exact h'
  | defined f params _ ih => exact .defined f params (ih h')
  | call f hlt hle hbody _ _ ih =>
    rw [List.cons_append, List.append_assoc, List.cons_append]
    exact .call f hlt hle hbody (ih h')

/-- What is deep enough inside a call is deep enough inside a shallower one. -/
theorem mono {outer' : Nat} (hle : outer' ≤ outer) (h : Bracketed limit outer es) : Bracketed limit outer' es := by
  induction h with
  | nil => exact .nil
  | defined f params _ ih => exact .defined f params (ih hle)
  | call f hlt hlimit hbody _ _ ih => exact .call f (Nat.lt_of_le_of_lt hle hlt) hlimit hbody (ih hle)

end Bracketed

/-! ## Traces that grow -/

/-- The trace after some events are recorded. -/
def Trace.noteAll (t : Trace) (es : List Event) : Trace :=
  es.foldl Trace.note t

namespace Trace

@[simp] theorem noteAll_nil (t : Trace) : t.noteAll [] = t := rfl

theorem noteAll_cons (t : Trace) (e : Event) (es : List Event) : t.noteAll (e :: es) = (t.note e).noteAll es := rfl

theorem noteAll_append (t : Trace) (es es' : List Event) : t.noteAll (es ++ es') = (t.noteAll es).noteAll es' :=
  List.foldl_append

@[simp] theorem enabled_note (t : Trace) (e : Event) : (t.note e).enabled = t.enabled := by
  unfold note
  split <;> rfl

@[simp] theorem runId_note (t : Trace) (e : Event) : (t.note e).runId = t.runId := by
  unfold note
  split <;> rfl

@[simp] theorem enabled_noteAll (t : Trace) (es : List Event) : (t.noteAll es).enabled = t.enabled := by
  induction es generalizing t with
  | nil => rfl
  | cons e es ih => rw [noteAll_cons, ih, enabled_note]

/-- In a traced run the events are appended in order, each with the identifier of the run. -/
theorem records_noteAll {t : Trace} (htraced : t.enabled = true) (es : List Event) :
    (t.noteAll es).records.toList = t.records.toList ++ es.map (Record.mk t.runId) := by
  induction es generalizing t with
  | nil => simp
  | cons e es ih =>
    have hnote : (t.note e).records.toList = t.records.toList ++ [⟨t.runId, e⟩] := by simp [note, htraced]
    rw [noteAll_cons, ih (by simpa using htraced), hnote, runId_note]
    simp

end Trace

namespace Eval

/-! ## Machines between which all calls close -/

/-- On the way from one machine to the other the depth has come back, and bracketed events were recorded. -/
def Brackets (limit outer : Nat) (m m' : Machine) : Prop :=
  m'.counters.depth = m.counters.depth ∧ ∃ es, Bracketed limit outer es ∧ m'.trace = m.trace.noteAll es

namespace Brackets

variable {limit outer : Nat} {m m₁ m₂ m₃ : Machine}

/-- Nothing is recorded. -/
theorem of_eq (hdepth : m₂.counters.depth = m₁.counters.depth) (htrace : m₂.trace = m₁.trace) :
    Brackets limit outer m₁ m₂ :=
  ⟨hdepth, [], .nil, htrace⟩

theorem refl (m : Machine) : Brackets limit outer m m :=
  of_eq rfl rfl

theorem trans (h₁ : Brackets limit outer m₁ m₂) (h₂ : Brackets limit outer m₂ m₃) : Brackets limit outer m₁ m₃ := by
  obtain ⟨hdepth₁, es₁, hes₁, htrace₁⟩ := h₁
  obtain ⟨hdepth₂, es₂, hes₂, htrace₂⟩ := h₂
  refine ⟨hdepth₂.trans hdepth₁, es₁ ++ es₂, hes₁.append hes₂, ?_⟩
  rw [htrace₂, htrace₁, Trace.noteAll_append]

theorem mono {outer' : Nat} (hle : outer' ≤ outer) (h : Brackets limit outer m₁ m₂) : Brackets limit outer' m₁ m₂ := by
  obtain ⟨hdepth, es, hes, htrace⟩ := h
  exact ⟨hdepth, es, hes.mono hle, htrace⟩

theorem andThen {α β : Type} {x : Machine × Except EvalError α} {next : Machine → α → Machine × Except EvalError β}
    (hx : Brackets limit outer m x.1)
    (hnext : ∀ m' v, m'.counters.depth = m.counters.depth → Brackets limit outer m' (next m' v).1) :
    Brackets limit outer m (andThen x next).1 := by
  obtain ⟨m', err | v⟩ := x
  · exact hx
  · exact hx.trans (hnext m' v hx.1)

/-- A definition is recorded on its own. -/
theorem defined (m : Machine) (f : String) (params : List String) :
    Brackets limit outer m (m.emit (.defined f params)) :=
  ⟨by simp, [.defined f params], .defined f params .nil, by simp [Trace.noteAll]⟩

section level

/- One level: its machines are at the depth `outer + 1`, and the level below keeps its brackets inside that depth. -/
variable {rec : Evaluator} (hlimit : outer + 1 ≤ limit)
  (hrec : ∀ m e s, m.counters.depth = outer + 1 → Brackets limit (outer + 1) m (rec m e s).1)

include hrec

theorem inChild (hm : m.counters.depth = outer + 1) (e : Expr) (s : ScopeId) :
    Brackets limit (outer + 1) m (inChild rec m e s).1 := by
  have hopen : Brackets limit (outer + 1) m (m.openScope s) := of_eq rfl rfl
  have hbody := hrec (m.openScope s) e m.heap.size hm
  exact (hopen.trans hbody).trans (of_eq rfl rfl)

theorem operands (hm : m.counters.depth = outer + 1) (s : ScopeId) (done : List Value) (ops : List Expr) :
    Brackets limit (outer + 1) m (operands rec s m done ops).1 := by
  induction ops generalizing m done with
  | nil => exact refl m
  | cons e rest ih =>
    rw [operands_cons]
    exact (inChild hrec hm e s).andThen fun m' v hm' => ih (hm'.trans hm) (v :: done)

theorem parts (hm : m.counters.depth = outer + 1) (s : ScopeId) (head : Expr) (ops : List Expr) :
    Brackets limit (outer + 1) m (parts rec m s head ops).1 :=
  (inChild hrec hm head s).andThen fun _ _ hm' =>
    (operands hrec (hm'.trans hm) s [] ops).andThen fun m'' _ _ => refl m''

include hlimit

/-- The body of a call runs between its start and its end. -/
theorem enterBody (hm : m.counters.depth = outer + 1) (f : Function) (args : List Value) (s : ScopeId) :
    Brackets limit outer m (enterBody rec m f args s).1 := by
  have hbegin : (beginCall m f args s).counters.depth = outer + 1 := by simpa [beginCall] using hm
  obtain ⟨hdepth, es, hes, htrace⟩ := inChild hrec hbegin f.body s
  have hend : (Eval.inChild rec (beginCall m f args s) f.body s).1.counters.depth = outer + 1 := hdepth.trans hbegin
  have hstart : (beginCall m f args s).trace = m.trace.note (.callStart f.name (outer + 1)) := by
    simp [beginCall, hm]
  rw [enterBody_eq, endCall]
  refine ⟨?_, .callStart f.name (outer + 1) :: (es ++ [.callEnd f.name (outer + 1)]), ?_, ?_⟩
  · rw [Machine.counters_emit, hend, hm]
  · exact .call f.name (Nat.lt_succ_self outer) hlimit hes .nil
  · rw [Machine.trace_emit, hend, htrace, hstart, Trace.noteAll_cons, Trace.noteAll_append]
    rfl

theorem call (b : Binding) (hm : m.counters.depth = outer + 1) (head : Expr) (v : Value) (args : List Value)
    (s : ScopeId) : Brackets limit outer m (call b rec m head v args s).1 := by
  rcases call_cases head v args with ⟨f, rfl, hlen⟩ | ⟨r, hcall, -⟩ | ⟨c, r, -, hcall, -⟩
  · cases b with
    | caller =>
      rw [call_caller rec m head hlen]
      exact enterBody hlimit hrec hm f args s
    | fresh =>
      rw [call_fresh rec m head hlen]
      have hopen : Brackets limit outer m (m.openScope s) := of_eq rfl rfl
      have hm' : (m.openScope s).counters.depth = outer + 1 := hm
      exact (hopen.trans (enterBody hlimit hrec hm' f args m.heap.size)).trans (of_eq rfl rfl)
  · rw [hcall]
    exact refl m
  · rw [hcall]
    exact of_eq rfl rfl

theorem step (b : Binding) (hm : m.counters.depth = outer + 1) (e : Expr) (s : ScopeId) :
    Brackets limit outer m (step b rec m e s).1 := by
  have hshallow : outer ≤ outer + 1 := Nat.le_succ outer
  rw [step_eq_run]
  cases Plan.of e with
  | answer r => exact refl m
  | look name => exact refl m
  | branch cond yes no =>
    refine ((inChild hrec hm cond s).andThen fun m' v hm' => ?_).mono hshallow
    exact inChild hrec (hm'.trans hm) _ s
  | define d =>
    have hbind : Brackets limit outer m (m.defineIn d s) := of_eq rfl rfl
    exact hbind.trans (defined _ d.name d.params)
  | fill words arg =>
    exact ((inChild hrec hm arg s).andThen fun m' _ _ => refl m').mono hshallow
  | apply head ops =>
    rw [Plan.run, application_eq]
    refine ((parts hrec hm s head ops).mono hshallow).andThen fun m' p hm' => ?_
    exact call hlimit hrec b (hm'.trans hm) head p.1 p.2 s

end level

end Brackets

/-- **Every evaluation closes the calls that it opens**, those that fail included. -/
theorem brackets_within (b : Binding) {limit room : Nat} (m : Machine) (hroom : room ≤ limit - m.counters.depth)
    (e : Expr) (s : ScopeId) : Brackets limit m.counters.depth m (within b limit room m e s).1 := by
  induction room generalizing m e s with
  | zero => exact .of_eq (by simp [within]) rfl
  | succ room ih =>
    have hlimit : m.counters.depth + 1 ≤ limit := by omega
    have hrec : ∀ m' e s, m'.counters.depth = m.counters.depth + 1 →
        Brackets limit (m.counters.depth + 1) m' (within b limit room m' e s).1 := by
      intro m' e s hm'
      have hstep := ih m' (by omega) e s
      rwa [hm'] at hstep
    obtain ⟨hdepth, es, hes, htrace⟩ := Brackets.step hlimit hrec b (rfl : m.enter.counters.depth = _) e s
    refine ⟨?_, es, hes, htrace⟩
    simp only [within, Machine.counters_leave, Counters.depth_leave, hdepth]
    simp

theorem brackets_eval (limit : Nat) (m : Machine) (e : Expr) (s : ScopeId) :
    Brackets limit m.counters.depth m (eval limit m e s).1 :=
  brackets_within .caller m (Nat.le_refl _) e s

end Eval

end FormLang
