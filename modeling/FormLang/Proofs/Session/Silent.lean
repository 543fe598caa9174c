import FormLang.Proofs.Session.Errors

/-!
# Runs with and without a trace

A traced session and one that is not traced do the same. That is shown by taking the trace away: a session without its
trace evaluates a statement as it does with it (`evaluate_silent`), and so it runs a source (`runAll_silent`). Two sessions
that differ in their traces only are the same session when these are taken away.
-/

namespace FormLang.Session

/-- The session with an empty trace that records nothing. -/
def silent (s : Session) : Session :=
  { s with machine := s.machine.silent }

@[simp] theorem heap_silent (s : Session) : s.silent.heap = s.heap := rfl

@[simp] theorem counters_silent (s : Session) : s.silent.counters = s.counters := rfl

theorem evaluate_silent (s : Session) (text : String) :
    s.silent.evaluate text = ((s.evaluate text).1.silent, (s.evaluate text).2) := by
  cases hparse : Expr.parse s.limit (Token.ofText text) with
  | error err =>
    have hparse' : Expr.parse s.silent.limit (Token.ofText text) = .error err := hparse
    rw [evaluate_of_error hparse, evaluate_of_error hparse']
  | ok e =>
    have hparse' : Expr.parse s.silent.limit (Token.ofText text) = .ok e := hparse
    have htop : evalTop (effectiveLimit s.limit) s.machine.silent e globalScope =
        Eval.silently (evalTop (effectiveLimit s.limit) s.machine e globalScope) := evalTop_silent _ _ _ _
    rw [evaluate_of_ok hparse, evaluate_of_ok hparse', silent, htop]
    rfl

theorem runAll_silent (s : Session) (sts : List Statement) :
    s.silent.runAll sts = ((s.runAll sts).1.silent, (s.runAll sts).2) := by
  induction sts generalizing s with
  | nil => rfl
  | cons st rest ih => rw [runAll_cons, runAll_cons, evaluate_silent, ih]

/-- Sessions that differ in their traces only run a source alike. -/
theorem run_eq_of_silent_eq {s₁ s₂ : Session} (h : s₁.silent = s₂.silent) (source : String) :
    (s₁.run source).2 = (s₂.run source).2 ∧ (s₁.run source).1.silent = (s₂.run source).1.silent := by
  have hrun := runAll_silent s₁ (Statement.ofSource source)
  rw [h, runAll_silent, Prod.mk.injEq] at hrun
  exact ⟨hrun.2.symm, hrun.1.symm⟩

/-- Statements of a native session have native values. -/
theorem Native.outcome_runAll {s : Session} (h : s.Native) (sts : List Statement) :
    ∀ r ∈ (s.runAll sts).2, ∀ v, r.outcome = .ok v → v.Native := by
  induction sts generalizing s with
  | nil =>
    intro r hr
    cases hr
  | cons st rest ih =>
    rw [runAll_cons, List.forall_mem_cons]
    exact ⟨(h.sound_evaluate st.text).2.1, ih (h.evaluate st.text)⟩

/-- **Tracing does not interfere with evaluation.** A traced session and one that is not traced run a source over the same
heap, under the same depth limit. They have the same results and leave the same heap and the same counters. Where the heap
holds native values only, no statement has a void as its value, so there is always a text to record. -/
theorem run_traced_eq_untraced (heap : Heap) (limit : Int) (runId source : String) :
    let traced := (start heap limit runId true).run source
    let untraced := (start heap limit runId false).run source
    traced.2 = untraced.2 ∧ traced.1.heap = untraced.1.heap ∧ traced.1.counters = untraced.1.counters ∧
    (heap.Native → ∀ r ∈ traced.2, ∀ v, r.outcome = .ok v → v ≠ .void) := by
  have hstarts : (start heap limit runId true).silent = (start heap limit runId false).silent := rfl
  obtain ⟨hresults, hsilent⟩ := run_eq_of_silent_eq hstarts source
  have hheap := congrArg Session.heap hsilent
  have hcounters := congrArg Session.counters hsilent
  rw [heap_silent, heap_silent] at hheap
  rw [counters_silent, counters_silent] at hcounters
  refine ⟨hresults, hheap, hcounters, fun hnative r hr v hv => ?_⟩
  have hstart : (start heap limit runId true).Native := hnative
  exact (hstart.outcome_runAll (Statement.ofSource source) r hr v hv).ne_void

/-- A recursion that fails in its third call. -/
theorem run_traced_eq_untraced_recursion :
    Heap.global.Native ∧
    ((start .global 20 "run" false).run "(defun g (n) (if n (g (- n 1)) y))\n(g 2)").2.map Result.failed = [false, true] ∧
    ((start .global 20 "run" false).run "(defun g (n) (if n (g (- n 1)) y))\n(g 2)").1.counters = ⟨0, 7, 5⟩ ∧
    ∀ r ∈ ((start .global 20 "run" true).run "(defun g (n) (if n (g (- n 1)) y))\n(g 2)").2,
      ∀ v, r.outcome = .ok v → v ≠ .void := by
  obtain ⟨hresults, -, hcounters, hvoid⟩ :=
    run_traced_eq_untraced .global 20 "run" "(defun g (n) (if n (g (- n 1)) y))\n(g 2)"
  refine ⟨Heap.native_global, ?_, ?_, hvoid Heap.native_global⟩
  · rw [← hresults]
    decide +kernel
  · rw [← hcounters]
    decide +kernel

end FormLang.Session
