import FormLang.Proofs.Eval.Brackets
import FormLang.Proofs.Eval.Silent

/-!
# What an evaluation does

The functions that an evaluation defines and the calls that it enters, as a tree: each call holds what is done before it
ends (`Activity`). The tree is read off the evaluation itself (`activity`), through what it evaluates and in which machine, and
not off its trace. An evaluation of which a part fails has done what was done up to there.

* `trace_eval`: the trace grows by the events of the activity.
* `activity_silent`: the activity does not depend on the trace, so what a traced run reports is what an untraced run does.
-/

namespace FormLang

/-! ## Definitions and calls in order -/

/-- Definitions and calls one after another, with the number of evaluations in progress at each call. -/
inductive Activity where
  | nothing
  | defined (d : Definition) (rest : Activity)
  | call (f : Function) (depth : Nat) (inside rest : Activity)

namespace Activity

def append : Activity → Activity → Activity
  | .nothing, b => b
  | .defined d rest, b => .defined d (rest.append b)
  | .call f depth inside rest, b => .call f depth inside (rest.append b)

/-- The names of the functions that are called, in the order in which the calls are entered. -/
def called : Activity → List String
  | .nothing => []
  | .defined _ rest => rest.called
  | .call f _ inside rest => f.name :: (inside.called ++ rest.called)

/-- The names that are defined, in order. -/
def definedNames : Activity → List String
  | .nothing => []
  | .defined d rest => d.name :: rest.definedNames
  | .call _ _ inside rest => inside.definedNames ++ rest.definedNames

/-- The largest number of calls that are in progress at once. -/
def height : Activity → Nat
  | .nothing => 0
  | .defined _ rest => rest.height
  | .call _ _ inside rest => max (inside.height + 1) rest.height

/-- The events that report the activity. -/
def events : Activity → List Event
  | .nothing => []
  | .defined d rest => .defined d.name d.params :: rest.events
  | .call f depth inside rest => .callStart f.name depth :: (inside.events ++ .callEnd f.name depth :: rest.events)

section append

variable (a b : Activity)

theorem called_append : (a.append b).called = a.called ++ b.called := by
  induction a with
  | nothing => rfl
  | defined d rest ih => exact ih
  | call f depth inside rest _ ih => rw [append, called, ih, called, List.cons_append, List.append_assoc]

theorem definedNames_append : (a.append b).definedNames = a.definedNames ++ b.definedNames := by
  induction a with
  | nothing => rfl
  | defined d rest ih => rw [append, definedNames, ih, definedNames, List.cons_append]
  | call f depth inside rest _ ih => rw [append, definedNames, ih, definedNames, List.append_assoc]

theorem height_append : (a.append b).height = max a.height b.height := by
  induction a with
  | nothing => exact (Nat.zero_max _).symm
  | defined d rest ih => exact ih
  | call f depth inside rest _ ih => rw [append, height, ih, height, Nat.max_assoc]

theorem events_append : (a.append b).events = a.events ++ b.events := by
  induction a with
  | nothing => rfl
  | defined d rest ih => rw [append, events, ih, events, List.cons_append]
  | call f depth inside rest _ ih =>
    rw [append, events, ih, events, List.cons_append, List.append_assoc, List.cons_append]

end append

end Activity

/-! ## The activity of an evaluation -/

/-- What evaluating an expression in a scope does. -/
abbrev Observer := Machine → Expr → ScopeId → Activity

namespace Eval

/-- The activity of a first part, and of what follows if that has a value. -/
def thenDo {α : Type} (a : Activity) (x : Machine × Except EvalError α) (next : Machine → α → Activity) : Activity :=
  match x with
  | (m, .ok v) => a.append (next m v)
  | (_, .error _) => a

section parts

-- what the level below evaluates to, and what it does
variable (rec : Evaluator) (act : Observer)

def childActivity (m : Machine) (e : Expr) (s : ScopeId) : Activity :=
  act (m.openScope s) e m.heap.size

def operandsActivity (s : ScopeId) (m : Machine) : List Expr → Activity
  | [] => .nothing
  | e :: rest => thenDo (childActivity act m e s) (inChild rec m e s) fun m _ => operandsActivity s m rest

def partsActivity (m : Machine) (s : ScopeId) (head : Expr) (ops : List Expr) : Activity :=
  thenDo (childActivity act m head s) (inChild rec m head s) fun m _ => operandsActivity rec act s m ops

/-- Only a function that is given as many arguments as it has parameters is entered. -/
def callActivity (m : Machine) (v : Value) (args : List Value) (s : ScopeId) : Activity :=
  match v with
  | .function f =>
    if args.length = f.params.length then
      .call f m.counters.depth (childActivity act (beginCall m f args s) f.body s) .nothing
    else .nothing
  | _ => .nothing

def Plan.activity (m : Machine) (s : ScopeId) : Plan → Activity
  | .answer _ | .look _ => .nothing
  | .branch cond yes no =>
    thenDo (childActivity act m cond s) (inChild rec m cond s) fun m v =>
      childActivity act m (if v.truthy then yes else no) s
  | .define d => .defined d .nothing
  | .fill _ arg => childActivity act m arg s
  | .apply head ops =>
    thenDo (partsActivity rec act m s head ops) (parts rec m s head ops) fun m p => callActivity act m p.1 p.2 s

end parts

/-- The activity of an evaluation with so many further levels left of the limit. Without any it does nothing. -/
def activityWithin (limit : Nat) : (room : Nat) → Observer
  | 0, _, _, _ => .nothing
  | room + 1, m, e, s => (Plan.of e).activity (within .caller limit room) (activityWithin limit room) m.enter s

end Eval

/-- What evaluating an expression in a scope under a depth limit does. -/
def activity (limit : Nat) (m : Machine) (e : Expr) (s : ScopeId) : Activity :=
  Eval.activityWithin limit (limit - m.counters.depth) m e s

namespace Eval

theorem callActivity_function (act : Observer) (m : Machine) {f : Function} {args : List Value}
    (hlen : args.length = f.params.length) (s : ScopeId) :
    callActivity act m (.function f) args s =
      .call f m.counters.depth (childActivity act (beginCall m f args s) f.body s) .nothing :=
  if_pos hlen

theorem callActivity_of_not (act : Observer) (m : Machine) {v : Value} {args : List Value}
    (h : ¬ ∃ f, v = .function f ∧ args.length = f.params.length) (s : ScopeId) :
    callActivity act m v args s = .nothing := by
  cases v with
  | function f => exact if_neg fun hlen => h ⟨f, rfl, hlen⟩
  | _ => rfl

/-! ## The activity is what the trace reports -/

/-- On the way from one machine to the other the activity was reported. -/
def Reported (a : Activity) (m m' : Machine) : Prop :=
  m'.trace = m.trace.noteAll a.events

theorem Reported.andThen {α β : Type} {m : Machine} {a : Activity} {x : Machine × Except EvalError α}
    {next : Machine → α → Machine × Except EvalError β} {then' : Machine → α → Activity} (hx : Reported a m x.1)
    (hnext : ∀ m v, Reported (then' m v) m (next m v).1) : Reported (thenDo a x then') m (andThen x next).1 := by
  obtain ⟨m', err | v⟩ := x
  · exact hx
  · have hrest := hnext m' v
    rw [Reported] at hx hrest ⊢
    rw [thenDo, Activity.events_append, Trace.noteAll_append, ← hx]
    exact hrest

/-- Computing with the value of a part does nothing more. -/
theorem Reported.mapValue {α β : Type} {m : Machine} {a : Activity} {x : Machine × Except EvalError α}
    (hx : Reported a m x.1) (f : α → β) : Reported a m (Eval.andThen x fun m v => (m, .ok (f v))).1 := by
  obtain ⟨m', err | v⟩ := x <;> exact hx

namespace Reported

variable {rec : Evaluator} {act : Observer} (hrec : ∀ m e s, Reported (act m e s) m (rec m e s).1)

include hrec

theorem inChild (m : Machine) (e : Expr) (s : ScopeId) : Reported (childActivity act m e s) m (inChild rec m e s).1 :=
  hrec (m.openScope s) e m.heap.size

theorem operands (s : ScopeId) (m : Machine) (done : List Value) (ops : List Expr) :
    Reported (operandsActivity rec act s m ops) m (operands rec s m done ops).1 := by
  induction ops generalizing m done with
  | nil => rfl
  | cons e rest ih =>
    rw [operands_cons]
    exact (inChild hrec m e s).andThen fun m v => ih m (v :: done)

theorem parts (m : Machine) (s : ScopeId) (head : Expr) (ops : List Expr) :
    Reported (partsActivity rec act m s head ops) m (parts rec m s head ops).1 := by
  refine (inChild hrec m head s).andThen fun m v => ?_
  exact (operands hrec s m [] ops).mapValue fun args => (v, args)

variable (hdepth : ∀ m e s, (rec m e s).1.counters.depth = m.counters.depth)

include hdepth

/-- The end of a call is reported at the depth of its start. -/
theorem enterBody (m : Machine) (f : Function) (args : List Value) (s : ScopeId) :
    Reported (.call f m.counters.depth (childActivity act (beginCall m f args s) f.body s) .nothing) m
      (enterBody rec m f args s).1 := by
  have hbody := inChild hrec (beginCall m f args s) f.body s
  have hend : (Eval.inChild rec (beginCall m f args s) f.body s).1.counters.depth = m.counters.depth := by
    rw [steady_depth.inChild hdepth]
    simp [beginCall]
  have hstart : (beginCall m f args s).trace = m.trace.note (.callStart f.name m.counters.depth) := by simp [beginCall]
  rw [Reported, hstart] at hbody
  rw [Reported, enterBody_eq, endCall, Machine.trace_emit, hend, hbody, Activity.events, Trace.noteAll_cons,
    Trace.noteAll_append]
  rfl

theorem call (m : Machine) (head : Expr) (v : Value) (args : List Value) (s : ScopeId) :
    Reported (callActivity act m v args s) m (call .caller rec m head v args s).1 := by
  by_cases hbody : ∃ f, v = .function f ∧ args.length = f.params.length
  · obtain ⟨f, rfl, hlen⟩ := hbody
    rw [callActivity_function act m hlen, call_caller rec m head hlen]
    exact enterBody hrec hdepth m f args s
  · rw [callActivity_of_not act m hbody]
    rcases call_cases head v args with hf | ⟨r, hcall, -⟩ | ⟨c, r, -, hcall, -⟩
    · exact absurd hf hbody
    · rw [hcall]
      rfl
    · rw [hcall]
      rfl

/-- **One step**: carrying out a plan reports its activity. -/
theorem run (m : Machine) (s : ScopeId) (p : Plan) : Reported (p.activity rec act m s) m (p.run .caller rec m s).1 := by
  cases p with
  | answer r => rfl
  | look name => rfl
  | branch cond yes no => exact (inChild hrec m cond s).andThen fun m v => inChild hrec m _ s
  | define d =>
    rw [Reported, Plan.run, Machine.trace_emit]
    rfl
  | fill words arg => exact (inChild hrec m arg s).mapValue fun v => Value.str (FormatText.fill words v.text)
  | apply head ops =>
    rw [Plan.run, application_eq]
    exact (parts hrec m s head ops).andThen fun m p => call hrec hdepth m head p.1 p.2 s

end Reported

theorem reported_within (limit room : Nat) (m : Machine) (e : Expr) (s : ScopeId) :
    Reported (activityWithin limit room m e s) m (within .caller limit room m e s).1 := by
  induction room generalizing m e s with
  | zero => rfl
  | succ room ih =>
    have hstep := Reported.run ih (depth_within .caller limit room) m.enter s (Plan.of e)
    rw [← step_eq_run] at hstep
    exact hstep

end Eval

/-- **The trace of an evaluation grows by the events of its activity.** -/
theorem trace_eval (limit : Nat) (m : Machine) (e : Expr) (s : ScopeId) :
    (eval limit m e s).1.trace = m.trace.noteAll (activity limit m e s).events :=
  Eval.reported_within limit _ m e s

/-! ## The activity does not depend on the trace -/

namespace Eval

theorem thenDo_silently {α : Type} {next : Machine → α → Activity} (hnext : ∀ m v, next m.silent v = next m v)
    (a : Activity) (x : Machine × Except EvalError α) : thenDo a (silently x) next = thenDo a x next := by
  obtain ⟨m, err | v⟩ := x
  · rfl
  · exact congrArg a.append (hnext m v)

namespace Blind

variable {rec : Evaluator} {act : Observer} (hrec : Blind rec) (hact : ∀ m e s, act m.silent e s = act m e s)

include hact

theorem childActivity (m : Machine) (e : Expr) (s : ScopeId) : childActivity act m.silent e s = childActivity act m e s :=
  hact (m.openScope s) e m.heap.size

theorem callActivity (m : Machine) (v : Value) (args : List Value) (s : ScopeId) :
    callActivity act m.silent v args s = callActivity act m v args s := by
  by_cases hbody : ∃ f, v = .function f ∧ args.length = f.params.length
  · obtain ⟨f, rfl, hlen⟩ := hbody
    rw [callActivity_function act _ hlen, callActivity_function act _ hlen, beginCall_silent, childActivity hact,
      Machine.counters_silent]
  · rw [callActivity_of_not act _ hbody, callActivity_of_not act _ hbody]

include hrec

theorem operandsActivity (s : ScopeId) (m : Machine) (ops : List Expr) :
    operandsActivity rec act s m.silent ops = operandsActivity rec act s m ops := by
  induction ops generalizing m with
  | nil => rfl
  | cons e rest ih =>
    rw [Eval.operandsActivity, Eval.operandsActivity, childActivity hact, hrec.inChild]
    exact thenDo_silently (fun m _ => ih m) _ _

theorem partsActivity (m : Machine) (s : ScopeId) (head : Expr) (ops : List Expr) :
    partsActivity rec act m.silent s head ops = partsActivity rec act m s head ops := by
  rw [Eval.partsActivity, Eval.partsActivity, childActivity hact, hrec.inChild]
  exact thenDo_silently (fun m _ => operandsActivity hrec hact s m ops) _ _

theorem activity (m : Machine) (s : ScopeId) (p : Plan) : p.activity rec act m.silent s = p.activity rec act m s := by
  cases p with
  | answer r => rfl
  | look name => rfl
  | branch cond yes no =>
    rw [Plan.activity, Plan.activity, childActivity hact, hrec.inChild]
    exact thenDo_silently (fun m v => childActivity hact m _ s) _ _
  | define d => rfl
  | fill words arg => exact childActivity hact m arg s
  | apply head ops =>
    rw [Plan.activity, Plan.activity, partsActivity hrec hact, hrec.parts]
    exact thenDo_silently (fun m p => callActivity hact m p.1 p.2 s) _ _

end Blind

theorem activityWithin_silent (limit room : Nat) (m : Machine) (e : Expr) (s : ScopeId) :
    activityWithin limit room m.silent e s = activityWithin limit room m e s := by
  induction room generalizing m e s with
  | zero => rfl
  | succ room ih => exact (blind_within .caller limit room).activity ih m.enter s (Plan.of e)

end Eval

/-- **What an evaluation does, it does without its trace too.** -/
theorem activity_silent (limit : Nat) (m : Machine) (e : Expr) (s : ScopeId) :
    activity limit m.silent e s = activity limit m e s :=
  Eval.activityWithin_silent limit _ m e s

end FormLang
