import FormLang.Proofs.Eval.Plan

/-!
# Tracing does not interfere

An evaluation writes to the trace of its machine and never reads it. So taking the trace away commutes with every part of
an evaluation: `Blind` states this of an evaluator, `Blind.run` carries it over one step, and `blind_within` over all
levels. A statement has its own way through the code when it is traced, with events before and after it, and still comes to
the same (`evalTop_silent`).
-/

namespace FormLang

/-- The machine with an empty trace that records nothing. -/
def Machine.silent (m : Machine) : Machine :=
  { m with trace := ⟨false, "", #[]⟩ }

namespace Machine

@[simp] theorem heap_silent (m : Machine) : m.silent.heap = m.heap := rfl
@[simp] theorem counters_silent (m : Machine) : m.silent.counters = m.counters := rfl

/-- What is recorded is not heard. -/
@[simp] theorem silent_emit (m : Machine) (e : Event) : (m.emit e).silent = m.silent := by
  unfold emit
  split <;> rfl

end Machine

namespace Eval

/-- A result without the trace of its machine. -/
def silently {α : Type} (x : Machine × α) : Machine × α :=
  (x.1.silent, x.2)

theorem andThen_silently {α β : Type} {next : Machine → α → Machine × Except EvalError β}
    (hnext : ∀ m v, next m.silent v = silently (next m v)) (x : Machine × Except EvalError α) :
    andThen (silently x) next = silently (andThen x next) := by
  obtain ⟨m, err | v⟩ := x
  · rfl
  · exact hnext m v

theorem beginCall_silent (m : Machine) (f : Function) (args : List Value) (s : ScopeId) :
    beginCall m.silent f args s = (beginCall m f args s).silent := by
  rw [beginCall, beginCall, Machine.silent_emit]
  rfl

theorem endCall_silently (f : Function) (x : Machine × Outcome) : endCall f (silently x) = silently (endCall f x) := by
  rw [endCall, endCall, silently, silently, Machine.silent_emit]
  rfl

/-! ## Evaluators that do not look at the trace -/

/-- Without the trace the evaluator does the same. -/
def Blind (rec : Evaluator) : Prop :=
  ∀ m e s, rec m.silent e s = silently (rec m e s)

namespace Blind

variable {rec : Evaluator} (hrec : Blind rec)

include hrec

theorem inChild (m : Machine) (e : Expr) (s : ScopeId) : inChild rec m.silent e s = silently (inChild rec m e s) := by
  have hchild : rec (m.silent.openScope s) e m.heap.size = silently (rec (m.openScope s) e m.heap.size) :=
    hrec (m.openScope s) e m.heap.size
  simp only [Eval.inChild, Machine.heap_silent, hchild]
  rfl

theorem operands (s : ScopeId) (m : Machine) (done : List Value) (ops : List Expr) :
    operands rec s m.silent done ops = silently (operands rec s m done ops) := by
  induction ops generalizing m done with
  | nil => rfl
  | cons e rest ih =>
    rw [operands_cons, operands_cons, hrec.inChild]
    exact andThen_silently (fun m v => ih m (v :: done)) _

theorem parts (m : Machine) (s : ScopeId) (head : Expr) (ops : List Expr) :
    parts rec m.silent s head ops = silently (parts rec m s head ops) := by
  rw [Eval.parts, hrec.inChild]
  refine andThen_silently (fun m v => ?_) _
  rw [hrec.operands]
  exact andThen_silently (fun m args => rfl) _

theorem enterBody (m : Machine) (f : Function) (args : List Value) (s : ScopeId) :
    enterBody rec m.silent f args s = silently (enterBody rec m f args s) := by
  rw [enterBody_eq, enterBody_eq, beginCall_silent, hrec.inChild, endCall_silently]

theorem call (b : Binding) (m : Machine) (head : Expr) (v : Value) (args : List Value) (s : ScopeId) :
    call b rec m.silent head v args s = silently (call b rec m head v args s) := by
  rcases call_cases head v args with ⟨f, rfl, hlen⟩ | ⟨r, hcall, -⟩ | ⟨c, r, -, hcall, -⟩
  · cases b with
    | caller =>
      rw [call_caller rec _ head hlen, call_caller rec _ head hlen]
      exact hrec.enterBody m f args s
    | fresh =>
      have hbody : Eval.enterBody rec (m.silent.openScope s) f args m.heap.size =
          silently (Eval.enterBody rec (m.openScope s) f args m.heap.size) :=
        hrec.enterBody (m.openScope s) f args m.heap.size
      rw [call_fresh rec _ head hlen, call_fresh rec _ head hlen, Machine.heap_silent, hbody]
      rfl
  · rw [hcall, hcall]
    rfl
  · rw [hcall, hcall]
    rfl

/-- **One step**: carrying out a plan without the trace. -/
theorem run (b : Binding) (m : Machine) (s : ScopeId) (p : Plan) :
    p.run b rec m.silent s = silently (p.run b rec m s) := by
  cases p with
  | answer r => rfl
  | look name => rfl
  | branch cond yes no =>
    rw [Plan.run, hrec.inChild]
    exact andThen_silently (fun m v => hrec.inChild m _ s) _
  | define d =>
    rw [Plan.run, Plan.run, silently, Machine.silent_emit]
    rfl
  | fill words arg =>
    rw [Plan.run, hrec.inChild]
    exact andThen_silently (fun m v => rfl) _
  | apply head ops =>
    rw [Plan.run, Plan.run, application_eq, application_eq, hrec.parts]
    exact andThen_silently (fun m q => hrec.call b m head q.1 q.2 s) _

end Blind

theorem blind_within (b : Binding) (limit room : Nat) : Blind (within b limit room) := by
  induction room with
  | zero => exact fun m e s => rfl
  | succ room ih =>
    intro m e s
    have hstep : step b (within b limit room) m.enter.silent e s =
        silently (step b (within b limit room) m.enter e s) := by
      rw [step_eq_run, step_eq_run]
      exact ih.run b m.enter s (Plan.of e)
    have henter : m.silent.enter = m.enter.silent := rfl
    simp only [within, henter, hstep]
    rfl

end Eval

/-! ## Whole statements -/

open Eval (silently)

/-- **An evaluation does not depend on the trace.** -/
theorem evalWith_silent (b : Binding) (limit : Nat) (m : Machine) (e : Expr) (s : ScopeId) :
    evalWith b limit m.silent e s = silently (evalWith b limit m e s) :=
  Eval.blind_within b limit _ m e s

theorem eval_silent (limit : Nat) (m : Machine) (e : Expr) (s : ScopeId) :
    eval limit m.silent e s = silently (eval limit m e s) :=
  evalWith_silent .caller limit m e s

/-- A statement does what its expression does, but for the events before and after it. -/
theorem silently_evalTop (limit : Nat) (m : Machine) (e : Expr) (s : ScopeId) :
    silently (evalTop limit m e s) = eval limit m.silent e s := by
  rw [evalTop]
  split
  · rw [← Machine.silent_emit m (.evalStart e.flat), eval_silent]
    rcases eval limit (m.emit (.evalStart e.flat)) e s with ⟨m', err | v⟩ <;> simp [silently]
  · exact (eval_silent limit m e s).symm

theorem evalTop_silent (limit : Nat) (m : Machine) (e : Expr) (s : ScopeId) :
    evalTop limit m.silent e s = silently (evalTop limit m e s) :=
  (silently_evalTop limit m e s).symm

end FormLang
