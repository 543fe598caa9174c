import FormLang.Program
import FormLang.Proofs.Eval.Invariant
import FormLang.Proofs.Eval.Silent
import FormLang.Proofs.Eval.Visibility

/-!
# Statements of a session

What one statement does to a session, said through evaluation. A text that does not parse changes nothing; any other is
evaluated in the global scope, and only the machine of the session changes (`evaluate_of_ok`, `evaluate_fst`). Its outcome is
that of evaluating the text in that scope (`evaluateIn`). A law that evaluation keeps is kept by a statement, if what is read
from its text keeps it (`sound_evaluate`).

Sessions are considered as a host may have them between two statements (`Session.Live`). Then no evaluation is in progress,
so the depth is zero.
-/

namespace FormLang

/-! ## Whole statements -/

theorem counters_depth_evalTop (limit : Nat) (m : Machine) (e : Expr) (s : ScopeId) :
    (evalTop limit m e s).1.counters.depth = m.counters.depth := by
  unfold evalTop
  split
  · have hdepth := depth_evalWith .caller limit (m.emit (.evalStart e.flat)) e s
    rw [Machine.counters_emit] at hdepth
    rw [← hdepth, ← eval]
    rcases eval limit (m.emit (.evalStart e.flat)) e s with ⟨m', err | v⟩ <;> simp
  · exact depth_evalWith .caller limit m e s

/-- A statement has the outcome of its expression and leaves the same heap, whether the run is traced or not. -/
theorem evalTop_eq_eval (limit : Nat) (m : Machine) (e : Expr) (s : ScopeId) :
    (evalTop limit m e s).2 = (eval limit m e s).2 ∧ (evalTop limit m e s).1.heap = (eval limit m e s).1.heap := by
  have hsame : Eval.silently (evalTop limit m e s) = Eval.silently (eval limit m e s) :=
    (silently_evalTop limit m e s).trans (eval_silent limit m e s)
  have houtcome := congrArg (fun x => x.2) hsame
  have hheap := congrArg (fun x => x.1.heap) hsame
  exact ⟨houtcome, hheap⟩

/-- Reads a text and evaluates its expression in a scope. -/
def evaluateIn (limit : Int) (m : Machine) (s : ScopeId) (text : String) : Except Problem Value :=
  match Expr.parse limit (Token.ofText text) with
  | .error err => .error (.parse err)
  | .ok e => (evalTop (effectiveLimit limit) m e s).2.mapError .eval

/-- Within the limit on depth, an expression has the outcome of its plan. -/
theorem evaluateIn_of_parse {limit : Int} {m : Machine} (hdepth : m.counters.depth < effectiveLimit limit) {text : String}
    {e : Expr} (hparse : Expr.parse limit (Token.ofText text) = .ok e) (s : ScopeId) :
    evaluateIn limit m s text =
      ((Eval.Plan.of e).run .caller (eval (effectiveLimit limit)) m.enter s).2.mapError .eval := by
  rw [evaluateIn, hparse]
  simp only
  rw [(evalTop_eq_eval (effectiveLimit limit) m e s).1, eval, evalWith_eq, if_pos hdepth, Eval.step_eq_run]
  rfl

theorem Problem.eq_ok_of_mapError {x : Except EvalError Value} {v : Value} (h : x.mapError Problem.eval = .ok v) :
    x = .ok v := by
  cases x with
  | error err => cases h
  | ok w =>
    cases h
    rfl

theorem Problem.eq_eval_of_mapError {x : Except EvalError Value} {p : Problem} (h : x.mapError .eval = .error p) :
    ∃ err, x = .error err ∧ p = .eval err := by
  cases x with
  | error err =>
    cases h
    exact ⟨err, rfl, rfl⟩
  | ok v => cases h

namespace Session

theorem evaluate_of_error {s : Session} {text : String} {err : ParseError}
    (hparse : Expr.parse s.limit (Token.ofText text) = .error err) : s.evaluate text = (s, .error (.parse err)) := by
  rw [evaluate, hparse]

theorem evaluate_of_ok {s : Session} {text : String} {e : Expr}
    (hparse : Expr.parse s.limit (Token.ofText text) = .ok e) :
    s.evaluate text =
      (⟨(evalTop (effectiveLimit s.limit) s.machine e globalScope).1, s.limit⟩,
        (evalTop (effectiveLimit s.limit) s.machine e globalScope).2.mapError .eval) := by
  rw [evaluate, hparse]
  simp only
  rcases evalTop (effectiveLimit s.limit) s.machine e globalScope with ⟨m, err | v⟩ <;> rfl

/-- A session evaluates its statements in the global scope. -/
theorem evaluate_snd (s : Session) (text : String) :
    (s.evaluate text).2 = evaluateIn s.limit s.machine globalScope text := by
  cases hparse : Expr.parse s.limit (Token.ofText text) with
  | error err => rw [evaluate_of_error hparse, evaluateIn, hparse]
  | ok e => rw [evaluate_of_ok hparse, evaluateIn, hparse]

/-- A statement changes the machine of a session only. -/
theorem evaluate_fst (s : Session) (text : String) :
    (s.evaluate text).1 = ⟨(s.evaluate text).1.machine, s.limit⟩ := by
  cases hparse : Expr.parse s.limit (Token.ofText text) with
  | error err => rw [evaluate_of_error hparse]
  | ok e => rw [evaluate_of_ok hparse]

@[simp] theorem limit_evaluate (s : Session) (text : String) : (s.evaluate text).1.limit = s.limit := by
  rw [evaluate_fst]

theorem counters_depth_evaluate (s : Session) (text : String) :
    (s.evaluate text).1.counters.depth = s.counters.depth := by
  cases hparse : Expr.parse s.limit (Token.ofText text) with
  | error err => rw [evaluate_of_error hparse]
  | ok e =>
    rw [evaluate_of_ok hparse]
    exact counters_depth_evalTop _ s.machine e globalScope

/-- A statement keeps a law, and its value or the error of its evaluation does too. -/
theorem sound_evaluate {L : Law} {s : Session} (hL : L.Kept (effectiveLimit s.limit)) {text : String}
    (hread : ∀ e, Expr.parse s.limit (Token.ofText text) = .ok e → L.expr e) (hs : s.heap.Holds L.value) :
    (s.evaluate text).1.heap.Holds L.value ∧ (∀ v, (s.evaluate text).2 = .ok v → L.value v) ∧
    ∀ p, (s.evaluate text).2 = .error p →
      (∃ err, Expr.parse s.limit (Token.ofText text) = .error err ∧ p = .parse err) ∨ ∃ err, L.error err ∧ p = .eval err := by
  cases hparse : Expr.parse s.limit (Token.ofText text) with
  | error err =>
    rw [evaluate_of_error hparse]
    refine ⟨hs, fun v hv => (by cases hv), fun p hp => .inl ⟨err, rfl, ?_⟩⟩
    cases hp
    rfl
  | ok e =>
    have hsound := hL.evalTop hs (hread e hparse) globalScope
    rw [evaluate_of_ok hparse]
    refine ⟨hsound.heap, fun v hv => hsound.value v (Problem.eq_ok_of_mapError hv), fun p hp => ?_⟩
    obtain ⟨err, hout, rfl⟩ := Problem.eq_eval_of_mapError hp
    exact .inr ⟨err, hsound.error err hout, rfl⟩

/-! ## Sessions between two statements -/

/-- A session that was started over some heap, in which statements were evaluated and names were bound. -/
inductive Live : Session → Prop
  | start (heap : Heap) (limit : Int) (runId : String) (tracing : Bool) : Live (.start heap limit runId tracing)
  | evaluate {s : Session} (text : String) : Live s → Live (s.evaluate text).1
  | bind {s : Session} (name : String) (v : Value) : Live s → Live (s.bind name v)

/-- Between two statements nothing is being evaluated. -/
theorem Live.counters_depth {s : Session} (h : s.Live) : s.counters.depth = 0 := by
  induction h with
  | start heap limit runId tracing => rfl
  | evaluate text _ ih => rw [counters_depth_evaluate, ih]
  | bind name v _ ih => exact ih

end Session

end FormLang
