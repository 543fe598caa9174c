import FormLang.Proofs.Expr.Parse
import FormLang.Proofs.Session.Basic

/-!
# Raising the depth limit

A limit that was not met does not matter. The limit enters a run in two places, in the nesting that is read and in the depth
that is evaluated, and in both an evaluation that passes it fails: no form catches the failure of a part. So a run under
a limit either fails somewhere with a resource error or is the run under any larger limit.

The comparison goes up through the layers: levels (`within_settles`), statements (`evalTop_settles`,
`parse_eq_of_limit_le`, `evaluate_eq_of_limit_le`), and lists of statements (`runAll_eq_of_limit_le`).
-/

namespace FormLang

/-! ## Evaluation -/

/-- The depth budget was used up. -/
def TooDeep (err : EvalError) : Prop :=
  ∃ limit, err = .tooDeep limit

theorem TooDeep.code {err : EvalError} (h : TooDeep err) : err.code = .resource := by
  obtain ⟨limit, rfl⟩ := h
  rfl

/-- With more room an evaluation does the same, unless it ran out of room. -/
theorem Eval.within_settles (b : Binding) (limit₁ limit₂ : Nat) {room₁ room₂ : Nat} (hroom : room₁ ≤ room₂)
    (m : Machine) (e : Expr) (s : ScopeId) :
    Settles TooDeep (within b limit₁ room₁ m e s) (within b limit₂ room₂ m e s) := by
  induction room₁ generalizing room₂ m e s with
  | zero => exact .inr ⟨_, ⟨limit₁, rfl⟩, rfl⟩
  | succ room₁ ih =>
    obtain ⟨room₂, rfl⟩ : ∃ k, room₂ = k + 1 := ⟨room₂ - 1, by omega⟩
    have hrec : ∀ m' e s, m'.counters.depth = m.enter.counters.depth →
        Settles TooDeep (within b limit₁ room₁ m' e s) (within b limit₂ room₂ m' e s) :=
      fun m' e s _ => ih (Nat.le_of_succ_le_succ hroom) m' e s
    exact (Settles.step (depth_within b limit₁ room₁) hrec b rfl e s).onMachine Machine.leave

theorem eval_settles {limit₁ limit₂ : Nat} (hle : limit₁ ≤ limit₂) (m : Machine) (e : Expr) (s : ScopeId) :
    Eval.Settles TooDeep (eval limit₁ m e s) (eval limit₂ m e s) :=
  Eval.within_settles .caller limit₁ limit₂ (by omega) m e s

theorem evalTop_settles {limit₁ limit₂ : Nat} (hle : limit₁ ≤ limit₂) (m : Machine) (e : Expr) (s : ScopeId) :
    Eval.Settles TooDeep (evalTop limit₁ m e s) (evalTop limit₂ m e s) := by
  unfold evalTop
  split
  · rcases eval_settles hle (m.emit (.evalStart e.flat)) e s with heq | ⟨err, hdeep, herr⟩
    · rw [heq]
      exact .refl _
    · refine .inr ⟨err, hdeep, ?_⟩
      revert herr
      rcases eval limit₁ (m.emit (.evalStart e.flat)) e s with ⟨m', r⟩
      rintro rfl
      rfl
  · exact eval_settles hle m e s

/-! ## Reading -/

theorem Expr.parse_eq_of_limit_le {limit₁ limit₂ : Int} (hle : effectiveLimit limit₁ ≤ effectiveLimit limit₂)
    (ts : List Token) : parse limit₂ ts = parse limit₁ ts ∨
      ∃ err, parse limit₁ ts = .error err ∧ err.diagnostic.code = .resource := by
  by_cases hnode : ∃ cs, ts = (TokenTree.node cs).flatten
  · obtain ⟨cs, rfl⟩ := hnode
    rcases Nat.lt_or_ge (effectiveLimit limit₁) (TokenTree.node cs).nest with hlt | hnest
    · exact .inr ⟨_, parse_node_of_lt hlt, rfl⟩
    · left
      rw [parse_node_of_le hnest, parse_node_of_le (Nat.le_trans hnest hle)]
  · obtain ⟨err, hparse⟩ := parse_of_not_node hnode
    left
    rw [hparse limit₁, hparse limit₂]

/-! ## Statements -/

/-- The code of the failure of a statement, if it failed. -/
def Result.code? (r : Result) : Option Code :=
  match r.outcome with
  | .ok _ => none
  | .error p => some p.code

namespace Session

variable {limit₁ limit₂ : Int} (hle : effectiveLimit limit₁ ≤ effectiveLimit limit₂)

include hle

theorem evaluate_eq_of_limit_le (m : Machine) (st : Statement)
    (hok : Result.code? ⟨st, (evaluate ⟨m, limit₁⟩ st.text).2⟩ ≠ some .resource) :
    evaluate ⟨m, limit₂⟩ st.text =
      (⟨(evaluate ⟨m, limit₁⟩ st.text).1.machine, limit₂⟩, (evaluate ⟨m, limit₁⟩ st.text).2) := by
  rcases Expr.parse_eq_of_limit_le hle (Token.ofText st.text) with hparse | ⟨err, herr, hcode⟩
  · unfold evaluate at hok ⊢
    simp only [hparse]
    cases hread : Expr.parse limit₁ (Token.ofText st.text) with
    | error err => rfl
    | ok e =>
      rcases evalTop_settles hle m e globalScope with heq | ⟨err, hdeep, herr⟩
      · simp only [heq]
        rcases evalTop (effectiveLimit limit₁) m e globalScope with ⟨m', err | v⟩ <;> rfl
      · -- the statement ran out of room, which was excluded
        exfalso
        revert hok herr
        simp only [hread]
        rcases evalTop (effectiveLimit limit₁) m e globalScope with ⟨m', r⟩
        rintro hok rfl
        exact hok (congrArg some hdeep.code)
  · exfalso
    apply hok
    simp only [evaluate, herr]
    exact congrArg some hcode

theorem runAll_eq_of_limit_le (m : Machine) (sts : List Statement)
    (hok : ∀ r ∈ (runAll ⟨m, limit₁⟩ sts).2, r.code? ≠ some .resource) :
    runAll ⟨m, limit₂⟩ sts =
      (⟨(runAll ⟨m, limit₁⟩ sts).1.machine, limit₂⟩, (runAll ⟨m, limit₁⟩ sts).2) := by
  induction sts generalizing m with
  | nil => rfl
  | cons st rest ih =>
    simp only [runAll, List.mem_cons, forall_eq_or_imp] at hok
    have hsession := evaluate_fst ⟨m, limit₁⟩ st.text
    rw [hsession] at hok
    simp only [runAll, evaluate_eq_of_limit_le hle m st hok.1, ih _ hok.2]
    rw [hsession]

omit hle

/-- **Raising the depth limit never changes an outcome.** If no statement of a run fails with a resource error, the run under
a larger limit has the same results and ends in the same machine: with the same scopes, counters and trace. The built-ins in scope
are those of `Operation`, whose results do not depend on the limit. -/
theorem run_eq_of_limit_le (m : Machine) (limit limit' : Int) (source : String)
    (hle : effectiveLimit limit ≤ effectiveLimit limit')
    (hok : ∀ r ∈ (run ⟨m, limit⟩ source).2, r.code? ≠ some .resource) :
    (run ⟨m, limit'⟩ source).2 = (run ⟨m, limit⟩ source).2 ∧
    (run ⟨m, limit'⟩ source).1.heap = (run ⟨m, limit⟩ source).1.heap ∧
    (run ⟨m, limit'⟩ source).1.counters = (run ⟨m, limit⟩ source).1.counters ∧
    (run ⟨m, limit'⟩ source).1.machine.trace = (run ⟨m, limit⟩ source).1.machine.trace := by
  have hrun := runAll_eq_of_limit_le hle m (Statement.ofSource source) hok
  simp only [run, heap, counters, hrun, and_self]

/-- A recursion that a limit of twenty levels leaves room for, beside a statement that fails in another way. -/
theorem run_eq_of_limit_le_recursion :
    effectiveLimit 20 ≤ effectiveLimit 0 ∧
    (run ⟨.start .global "" true, 0⟩ "(defun g (n) (if n (g (- n 1)) 7))\n(g 3)\n(g)").2.map Result.code? =
      [none, none, some .arity] := by
  have hle : effectiveLimit 20 ≤ effectiveLimit 0 := by decide
  have hcodes : (run ⟨.start .global "" true, 20⟩ "(defun g (n) (if n (g (- n 1)) 7))\n(g 3)\n(g)").2.map Result.code? =
      [none, none, some .arity] := by decide +kernel
  refine ⟨hle, ?_⟩
  rw [(run_eq_of_limit_le (.start .global "" true) 20 0 _ hle ?_).1, hcodes]
  intro r hr hcode
  have hmem := List.mem_map_of_mem (f := Result.code?) hr
  rw [hcodes, hcode] at hmem
  simp at hmem

end Session

end FormLang
