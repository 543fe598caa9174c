import FormLang.Proofs.Eval.Scoping

/-!
# What an evaluation can see

An evaluation depends on the values of the names that occur, and on nothing else in the scopes: not on the bindings of
other names, and not on how a chain is cut into scopes. The names that occur are those of the expression together with
those of every function that can be reached from them, so the vocabulary `N` is required to be closed in that sense.

`Simulates` already gives the same outcome. What is added here is that both sides bind the same pairs
(`Simulates.effect_eq`), so that they still see the same when the evaluation is over (`sameView_evalWith`).
-/

namespace FormLang

namespace Eval

theorem mem_args_of_mem_callPairs {b : Binding} {v : Value} {args : List Value} {q : String × Value}
    (h : q ∈ callPairs b v args) : q.2 ∈ args := by
  by_cases hbody : ∃ f, v = .function f ∧ args.length = f.params.length
  · obtain ⟨f, rfl, hlen⟩ := hbody
    cases b with
    | fresh => simp at h
    | caller =>
      rw [callPairs_caller hlen] at h
      exact (List.of_mem_zip h).2
  · simp [callPairs_of_not b hbody] at h

namespace Simulates

variable {N : String → Prop} {T : Trace → Trace → Prop} {rec₁ rec₂ : Evaluator} {m₁ m₂ : Machine} {s₁ s₂ : Nat}
  (hsim : Simulates N T rec₁ rec₂) (hconf₁ : Confined rec₁) (hconf₂ : Confined rec₂)

include hsim hconf₁ hconf₂

/-- Carrying out the same plan with the same view binds the same pairs. -/
theorem effect_eq (b : Binding) {p : Plan} (hm : Same T m₁ m₂) (hview : SameView N m₁.heap s₁ m₂.heap s₂)
    (hp : p.Over N) : p.effect b rec₁ m₁ s₁ = p.effect b rec₂ m₂ s₂ := by
  cases p with
  | define d =>
    have hnext : m₁.nextFunction d = m₂.nextFunction d := by
      simp only [Machine.nextFunction, Heap.makeFunction, hm.functions]
    rw [Plan.effect, Plan.effect, hnext]
  | apply head ops =>
    have hparts := hsim.parts hconf₁ hconf₂ hm hview hp.1 hp.2
    rw [Plan.effect, Plan.effect, hparts.outcome]
  | answer r => rfl
  | look name => rfl
  | branch cond yes no => rfl
  | fill words arg => rfl

/-- The values that a plan binds are over the vocabulary. -/
theorem over_effect (b : Binding) {p : Plan} (hm : Same T m₁ m₂) (hview : SameView N m₁.heap s₁ m₂.heap s₂)
    (hp : p.Over N) : ∀ q ∈ p.effect b rec₁ m₁ s₁, q.2.Over N := by
  intro q hq
  cases p with
  | define d =>
    obtain rfl : q = (d.name, .function (m₁.nextFunction d)) := by simpa [Plan.effect] using hq
    exact hp.2
  | apply head ops =>
    have hparts := hsim.parts hconf₁ hconf₂ hm hview hp.1 hp.2
    rw [Plan.effect] at hq
    cases hout : (Eval.parts rec₁ m₁ s₁ head ops).2 with
    | error err => simp [hout] at hq
    | ok p =>
      rw [hout] at hq
      exact (hparts.value p hout).2 q.2 (mem_args_of_mem_callPairs hq)
  | answer r => simp [Plan.effect] at hq
  | look name => simp [Plan.effect] at hq
  | branch cond yes no => simp [Plan.effect] at hq
  | fill words arg => simp [Plan.effect] at hq

end Simulates

section whole

variable {N : String → Prop} {T : Trace → Trace → Prop} (hT : Recording T) (b : Binding) (limit : Nat)
  {m₁ m₂ : Machine} {s₁ s₂ : Nat} {e : Expr} (hm : Same T m₁ m₂) (hview : SameView N m₁.heap s₁ m₂.heap s₂)
  (he : e.Over N)

include hT hm hview he

theorem effect_eq_of_sameView : effect b limit m₁ e s₁ = effect b limit m₂ e s₂ := by
  have hsim : Simulates N T (evalWith b limit) (evalWith b limit) := simulates_evalWith hT b b limit
  have hconf := confined_evalWith b limit
  rw [effect, effect, hm.counters, hsim.effect_eq hconf hconf b hm.enter hview (Plan.over_of he)]

/-- What sees the same before an evaluation sees the same after it. -/
theorem sameView_evalWith : SameView N (evalWith b limit m₁ e s₁).1.heap s₁ (evalWith b limit m₂ e s₂).1.heap s₂ := by
  have hsim : Simulates N T (evalWith b limit) (evalWith b limit) := simulates_evalWith hT b b limit
  have hconf := confined_evalWith b limit
  have hscopes₁ := scopes_evalWith b limit m₁ e s₁
  have hscopes₂ := scopes_evalWith b limit m₂ e s₂
  have hpairs : ∀ q ∈ effect b limit m₁ e s₁, q.2.Over N := by
    intro q hq
    rw [effect] at hq
    split at hq
    · exact hsim.over_effect hconf hconf b hm.enter hview (Plan.over_of he) q hq
    · cases hq
  rw [← effect_eq_of_sameView hT b limit hm hview he] at hscopes₂
  exact (hview.bindPairs hpairs).of_scopes_eq hscopes₁ hscopes₂

end whole

end Eval

/-- **Evaluation depends on the visible bindings of the names that occur.** Let `N` hold the symbols of an expression and,
with each function that is visible under a name of `N`, its parameters and the symbols of its body. Two chains of scopes in
which the names of `N` have the same values, whatever else they bind and however they are made up, give the same outcome,
the same counters and the same trace, and afterwards the names of `N` again have the same values in both. The built-ins in scope
are those of `Operation`, which compute from their arguments alone. -/
theorem eval_eq_of_visible (N : String → Prop) (limit : Nat) (m₁ m₂ : Machine) (e : Expr) (s₁ s₂ : ScopeId)
    (hord₁ : m₁.heap.Ordered) (hord₂ : m₂.heap.Ordered) (hs₁ : s₁ < m₁.heap.size) (hs₂ : s₂ < m₂.heap.size)
    (hfunctions : m₁.heap.functions = m₂.heap.functions) (hcounters : m₁.counters = m₂.counters)
    (htrace : m₁.trace = m₂.trace) (hget : ∀ x, N x → m₁.heap.get? s₁ x = m₂.heap.get? s₂ x)
    (hclosed : ∀ x f, N x → m₁.heap.get? s₁ x = some (.function f) → (∀ p ∈ f.params, N p) ∧ f.body.Over N)
    (he : e.Over N) :
    (eval limit m₁ e s₁).2 = (eval limit m₂ e s₂).2 ∧
    (eval limit m₁ e s₁).1.counters = (eval limit m₂ e s₂).1.counters ∧
    (eval limit m₁ e s₁).1.trace = (eval limit m₂ e s₂).1.trace ∧
    ∀ x, N x → (eval limit m₁ e s₁).1.heap.get? s₁ x = (eval limit m₂ e s₂).1.heap.get? s₂ x := by
  have hover : ∀ x v, N x → m₁.heap.get? s₁ x = some v → v.Over N := by
    intro x v hx hv
    cases v with
    | function f => exact hclosed x f hx hv
    | _ => trivial
  have hview : SameView N m₁.heap s₁ m₂.heap s₂ := ⟨hord₁, hord₂, hs₁, hs₂, hget, hover⟩
  have hsame : Same Eq m₁ m₂ := ⟨hfunctions, hcounters, htrace⟩
  have hmatch := Eval.simulates_evalWith recording_eq .caller .caller limit hsame hview he
  have hafter := Eval.sameView_evalWith recording_eq .caller limit hsame hview he
  exact ⟨hmatch.outcome, hmatch.same.counters, hmatch.same.trace, hafter.get?_eq⟩

/-- A function that returns `y`, beside a value for `y`, in a single scope. -/
def flatChain : Machine :=
  .start ((Heap.empty.push none).bindPairs 0 [("f", .function ⟨0, "f", ["x"], .symbol "y"⟩), ("y", .int 5)]) "" true

/-- The same two names with the same values, over two scopes: the outer one has another value for `y`, and the inner one binds
a name that does not occur. -/
def nestedChain : Machine :=
  .start (((((Heap.empty.push none).bindPairs 0 [("f", .function ⟨0, "f", ["x"], .symbol "y"⟩), ("y", .int 7)]).push
    (some 0)).bindPairs 1 [("y", .int 5), ("z", .bool true)])) "" true

/-- A call in the two chains. -/
theorem eval_eq_of_visible_call :
    flatChain.heap.Ordered ∧ nestedChain.heap.Ordered ∧
    (eval 3 nestedChain (.list [.symbol "f", .int 1]) 1).2 = .ok (.int 5) ∧
    (eval 3 nestedChain (.list [.symbol "f", .int 1]) 1).1.heap.get? 1 "x" = some (.int 1) := by
  let N : String → Prop := fun x => x = "f" ∨ x = "x" ∨ x = "y"
  have hord₁ : flatChain.heap.Ordered := Heap.ordered_root.bindPairs 0 _
  have hord₂ : nestedChain.heap.Ordered :=
    ((Heap.ordered_root.bindPairs 0 _).push (by decide)).bindPairs 1 _
  have hget : ∀ x, N x → flatChain.heap.get? 0 x = nestedChain.heap.get? 1 x := by
    rintro x (rfl | rfl | rfl) <;> rfl
  have hclosed : ∀ x f, N x → flatChain.heap.get? 0 x = some (.function f) →
      (∀ p ∈ f.params, N p) ∧ f.body.Over N := by
    rintro x f (rfl | rfl | rfl) hf
    · have hf' : flatChain.heap.get? 0 "f" = some (.function ⟨0, "f", ["x"], .symbol "y"⟩) := rfl
      rw [hf'] at hf
      cases hf
      exact ⟨by simp [N], .inr (.inr rfl)⟩
    · cases hf
    · cases hf
  have he : (Expr.list [.symbol "f", .int 1]).Over N := ⟨.inl rfl, trivial, trivial⟩
  have h := eval_eq_of_visible N 3 flatChain nestedChain (.list [.symbol "f", .int 1]) 0 1 hord₁ hord₂ (by decide)
    (by decide) rfl rfl rfl hget hclosed he
  exact ⟨hord₁, hord₂, h.1.symm, (h.2.2.2 "x" (.inr (.inl rfl))).symm⟩

end FormLang
