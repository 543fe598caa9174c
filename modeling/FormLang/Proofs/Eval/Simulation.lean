import FormLang.Proofs.Eval.Frame
import FormLang.Proofs.Eval.Vocabulary

/-!
# Evaluations that see the same

What an evaluation does depends on the values that names have from its scope, not on how the chain of scopes is made up
that gives them. Two machines may keep their bindings in chains of different shapes, and even bind parameters in different
places: as long as the names of the vocabulary have the same values (`SameView`), evaluations give the same outcome, the
same counters and traces that stay related (`Match`).

The simulation is stated for any two bindings of parameters and for any relation `T` of traces that recording the same
event preserves. It goes level by level: `Simulates` is what the level below must satisfy, `Simulates.run` carries it over
one step, and `simulates_within` over all levels. After each part of a form both heaps have their old scopes again
(`Confined`), so the view is the same for the next part.
-/

namespace FormLang

/-! ## Views -/

/-- From the two scopes the names of the vocabulary have the same values, all of them over the vocabulary. -/
structure SameView (N : String → Prop) (h₁ : Heap) (s₁ : Nat) (h₂ : Heap) (s₂ : Nat) : Prop where
  ordered₁ : h₁.Ordered
  ordered₂ : h₂.Ordered
  inside₁ : s₁ < h₁.size
  inside₂ : s₂ < h₂.size
  get?_eq : ∀ x, N x → h₁.get? s₁ x = h₂.get? s₂ x
  closed : ∀ x v, N x → h₁.get? s₁ x = some v → v.Over N

theorem mem_of_lookup_eq_some {pairs : List (String × Value)} {x : String} {v : Value}
    (h : pairs.lookup x = some v) : (x, v) ∈ pairs := by
  obtain ⟨before, after, rfl, -⟩ := List.lookup_eq_some_iff.mp h
  simp

namespace SameView

variable {N : String → Prop} {h₁ h₂ : Heap} {s₁ s₂ : Nat}

theorem symm (h : SameView N h₁ s₁ h₂ s₂) : SameView N h₂ s₂ h₁ s₁ where
  ordered₁ := h.ordered₂
  ordered₂ := h.ordered₁
  inside₁ := h.inside₂
  inside₂ := h.inside₁
  get?_eq x hx := (h.get?_eq x hx).symm
  closed x v hx hv := h.closed x v hx ((h.get?_eq x hx).trans hv)

theorem of_scopes_eq {h₁' h₂' : Heap} (h : SameView N h₁ s₁ h₂ s₂) (heq₁ : h₁'.scopes = h₁.scopes)
    (heq₂ : h₂'.scopes = h₂.scopes) : SameView N h₁' s₁ h₂' s₂ where
  ordered₁ := h.ordered₁.of_scopes_eq heq₁
  ordered₂ := h.ordered₂.of_scopes_eq heq₂
  inside₁ := by
    rw [Heap.size, heq₁]
    exact h.inside₁
  inside₂ := by
    rw [Heap.size, heq₂]
    exact h.inside₂
  get?_eq x hx := by
    rw [Heap.get?_of_scopes_eq heq₁, Heap.get?_of_scopes_eq heq₂]
    exact h.get?_eq x hx
  closed x v hx hv := by
    rw [Heap.get?_of_scopes_eq heq₁] at hv
    exact h.closed x v hx hv

/-- An empty scope more on one side hides nothing. -/
theorem push_left (h : SameView N h₁ s₁ h₂ s₂) : SameView N (h₁.push (some s₁)) h₁.size h₂ s₂ where
  ordered₁ := h.ordered₁.push h.inside₁
  ordered₂ := h.ordered₂
  inside₁ := by simp
  inside₂ := h.inside₂
  get?_eq x hx := by
    rw [h.ordered₁.get?_push_size h.inside₁]
    exact h.get?_eq x hx
  closed x v hx hv := by
    rw [h.ordered₁.get?_push_size h.inside₁] at hv
    exact h.closed x v hx hv

theorem push_right (h : SameView N h₁ s₁ h₂ s₂) : SameView N h₁ s₁ (h₂.push (some s₂)) h₂.size :=
  h.symm.push_left.symm

theorem push (h : SameView N h₁ s₁ h₂ s₂) :
    SameView N (h₁.push (some s₁)) h₁.size (h₂.push (some s₂)) h₂.size :=
  h.push_left.push_right

theorem bindPairs (h : SameView N h₁ s₁ h₂ s₂) {pairs : List (String × Value)} (hpairs : ∀ p ∈ pairs, p.2.Over N) :
    SameView N (h₁.bindPairs s₁ pairs) s₁ (h₂.bindPairs s₂ pairs) s₂ where
  ordered₁ := h.ordered₁.bindPairs s₁ pairs
  ordered₂ := h.ordered₂.bindPairs s₂ pairs
  inside₁ := by
    rw [Heap.size_bindPairs]
    exact h.inside₁
  inside₂ := by
    rw [Heap.size_bindPairs]
    exact h.inside₂
  get?_eq x hx := by
    rw [h.ordered₁.get?_bindPairs_self h.inside₁, h.ordered₂.get?_bindPairs_self h.inside₂, h.get?_eq x hx]
  closed x v hx hv := by
    rw [h.ordered₁.get?_bindPairs_self h.inside₁] at hv
    cases hlookup : pairs.reverse.lookup x with
    | none =>
      rw [hlookup, Option.none_or] at hv
      exact h.closed x v hx hv
    | some w =>
      rw [hlookup, Option.some_or] at hv
      cases hv
      exact hpairs (x, v) (List.mem_reverse.mp (mem_of_lookup_eq_some hlookup))

end SameView

/-! ## Machines that differ in their scopes only -/

/-- The trace after an event is recorded. -/
def Trace.note (t : Trace) (e : Event) : Trace :=
  if t.enabled then { t with records := t.records.push ⟨t.runId, e⟩ } else t

@[simp] theorem Machine.trace_emit (m : Machine) (e : Event) : (m.emit e).trace = m.trace.note e := by
  unfold Machine.emit Trace.note
  split <;> rfl

/-- The machines agree on all but their scopes, and their traces are related by `T`. -/
structure Same (T : Trace → Trace → Prop) (m₁ m₂ : Machine) : Prop where
  functions : m₁.heap.functions = m₂.heap.functions
  counters : m₁.counters = m₂.counters
  trace : T m₁.trace m₂.trace

/-- Recording the same event keeps traces related. -/
def Recording (T : Trace → Trace → Prop) : Prop :=
  ∀ t₁ t₂ e, T t₁ t₂ → T (t₁.note e) (t₂.note e)

namespace Same

variable {T : Trace → Trace → Prop} {m₁ m₂ : Machine}

theorem enter (h : Same T m₁ m₂) : Same T m₁.enter m₂.enter :=
  ⟨h.functions, congrArg Counters.enter h.counters, h.trace⟩

theorem leave (h : Same T m₁ m₂) : Same T m₁.leave m₂.leave :=
  ⟨h.functions, congrArg Counters.leave h.counters, h.trace⟩

theorem countCall (h : Same T m₁ m₂) : Same T m₁.countCall m₂.countCall :=
  ⟨h.functions, congrArg Counters.call h.counters, h.trace⟩

theorem openScope_left (h : Same T m₁ m₂) (s : ScopeId) : Same T (m₁.openScope s) m₂ :=
  ⟨h.functions, h.counters, h.trace⟩

theorem openScope_right (h : Same T m₁ m₂) (s : ScopeId) : Same T m₁ (m₂.openScope s) :=
  ⟨h.functions, h.counters, h.trace⟩

theorem bindPairs (h : Same T m₁ m₂) (s₁ s₂ : ScopeId) (pairs : List (String × Value)) :
    Same T (m₁.bindPairs s₁ pairs) (m₂.bindPairs s₂ pairs) :=
  ⟨h.functions, h.counters, h.trace⟩

theorem defineIn (h : Same T m₁ m₂) (d : Definition) (s₁ s₂ : ScopeId) :
    Same T (m₁.defineIn d s₁) (m₂.defineIn d s₂) :=
  ⟨congrArg (· + 1) h.functions, h.counters, h.trace⟩

theorem emit (hT : Recording T) (h : Same T m₁ m₂) (e : Event) : Same T (m₁.emit e) (m₂.emit e) where
  functions := by simpa using h.functions
  counters := by simpa using h.counters
  trace := by simpa using hT _ _ e h.trace

end Same

/-! ## Results that match -/

namespace Eval

/-- Two results with the same outcome, whose value, if there is one, satisfies `P`. -/
structure Match (T : Trace → Trace → Prop) {α : Type} (P : α → Prop) (x y : Machine × Except EvalError α) : Prop where
  same : Same T x.1 y.1
  outcome : x.2 = y.2
  value : ∀ v, x.2 = .ok v → P v

/-- The evaluators match wherever they see the same. -/
def Simulates (N : String → Prop) (T : Trace → Trace → Prop) (rec₁ rec₂ : Evaluator) : Prop :=
  ∀ {m₁ m₂ : Machine} {s₁ s₂ : Nat} {e : Expr}, Same T m₁ m₂ → SameView N m₁.heap s₁ m₂.heap s₂ → e.Over N →
    Match T (Value.Over N) (rec₁ m₁ e s₁) (rec₂ m₂ e s₂)

namespace Match

variable {T : Trace → Trace → Prop} {α β : Type} {P : α → Prop} {P' : β → Prop} {m₁ m₂ : Machine}

theorem ok (hm : Same T m₁ m₂) {v : α} (hv : P v) : Match T P (m₁, .ok v) (m₂, .ok v) where
  same := hm
  outcome := rfl
  value w hw := by
    cases hw
    exact hv

theorem error (hm : Same T m₁ m₂) (err : EvalError) : Match T P (m₁, .error err) (m₂, .error err) where
  same := hm
  outcome := rfl
  value v hv := by cases hv

section closing

variable {x y : Machine × Except EvalError α}

theorem leave (h : Match T P x y) : Match T P (x.1.leave, x.2) (y.1.leave, y.2) :=
  ⟨h.same.leave, h.outcome, h.value⟩

theorem closeScope_left (h : Match T P x y) : Match T P (x.1.closeScope, x.2) y :=
  ⟨⟨h.same.functions, h.same.counters, h.same.trace⟩, h.outcome, h.value⟩

theorem closeScope_right (h : Match T P x y) : Match T P x (y.1.closeScope, y.2) :=
  ⟨⟨h.same.functions, h.same.counters, h.same.trace⟩, h.outcome, h.value⟩

end closing

theorem andThen {x y : Machine × Except EvalError α} {next next' : Machine → α → Machine × Except EvalError β}
    (hx : Match T P x y) (hnext : ∀ v, P v → Match T P' (next x.1 v) (next' y.1 v)) :
    Match T P' (andThen x next) (andThen y next') := by
  obtain ⟨m₁, r₁⟩ := x
  obtain ⟨m₂, r₂⟩ := y
  obtain rfl : r₁ = r₂ := hx.outcome
  cases r₁ with
  | error err => exact error hx.same err
  | ok v => exact hnext v (hx.value v rfl)

end Match

/-! ## The simulation -/

namespace Simulates

variable {N : String → Prop} {T : Trace → Trace → Prop} {rec₁ rec₂ : Evaluator} {m₁ m₂ : Machine} {s₁ s₂ : Nat}
  (hT : Recording T) (hsim : Simulates N T rec₁ rec₂) (hconf₁ : Confined rec₁) (hconf₂ : Confined rec₂)

include hsim in
theorem inChild {e : Expr} (hm : Same T m₁ m₂) (hview : SameView N m₁.heap s₁ m₂.heap s₂) (he : e.Over N) :
    Match T (Value.Over N) (inChild rec₁ m₁ e s₁) (inChild rec₂ m₂ e s₂) :=
  (hsim ((hm.openScope_left s₁).openScope_right s₂) hview.push he).closeScope_left.closeScope_right

include hsim hconf₁ hconf₂ in
theorem operands {done : List Value} {ops : List Expr} (hm : Same T m₁ m₂)
    (hview : SameView N m₁.heap s₁ m₂.heap s₂) (hdone : ∀ v ∈ done, v.Over N) (hops : ∀ e ∈ ops, e.Over N) :
    Match T (fun args => ∀ v ∈ args, v.Over N) (operands rec₁ s₁ m₁ done ops) (operands rec₂ s₂ m₂ done ops) := by
  induction ops generalizing m₁ m₂ done with
  | nil => exact .ok hm fun v hv => hdone v (List.mem_reverse.mp hv)
  | cons e rest ih =>
    rw [operands_cons, operands_cons]
    have hfirst := hsim.inChild hm hview (hops e (by simp))
    refine hfirst.andThen fun v hv => ?_
    have hview' := hview.of_scopes_eq (hconf₁.scopes_inChild m₁ e s₁) (hconf₂.scopes_inChild m₂ e s₂)
    refine ih hfirst.same hview' (fun w hw => ?_) fun e' he' => hops e' (by simp [he'])
    rcases List.mem_cons.mp hw with rfl | hw
    · exact hv
    · exact hdone w hw

include hsim hconf₁ hconf₂ in
theorem parts {head : Expr} {ops : List Expr} (hm : Same T m₁ m₂) (hview : SameView N m₁.heap s₁ m₂.heap s₂)
    (hhead : head.Over N) (hops : ∀ e ∈ ops, e.Over N) :
    Match T (fun p => p.1.Over N ∧ ∀ v ∈ p.2, v.Over N) (parts rec₁ m₁ s₁ head ops) (parts rec₂ m₂ s₂ head ops) := by
  have hfirst := hsim.inChild hm hview hhead
  refine hfirst.andThen fun v hv => ?_
  have hview' := hview.of_scopes_eq (hconf₁.scopes_inChild m₁ head s₁) (hconf₂.scopes_inChild m₂ head s₂)
  have hnil : ∀ w ∈ ([] : List Value), w.Over N := by simp
  have hrest := hsim.operands hconf₁ hconf₂ hfirst.same hview' hnil hops
  exact hrest.andThen fun args hargs => .ok hrest.same ⟨hv, hargs⟩

include hT hsim

theorem enterBody {f : Function} {args : List Value} (hm : Same T m₁ m₂) (hview : SameView N m₁.heap s₁ m₂.heap s₂)
    (hf : (Value.function f).Over N) (hargs : ∀ v ∈ args, v.Over N) :
    Match T (Value.Over N) (enterBody rec₁ m₁ f args s₁) (enterBody rec₂ m₂ f args s₂) := by
  have hpairs : ∀ p ∈ f.params.zip args, p.2.Over N := fun p hp => hargs p.2 (List.of_mem_zip hp).2
  have hbegin : Same T (beginCall m₁ f args s₁) (beginCall m₂ f args s₂) := by
    rw [beginCall, beginCall, hm.counters]
    exact ((hm.bindPairs s₁ s₂ _).countCall).emit hT _
  have hbound : SameView N (beginCall m₁ f args s₁).heap s₁ (beginCall m₂ f args s₂).heap s₂ := by
    simpa [beginCall] using hview.bindPairs hpairs
  have hbody := hsim.inChild hbegin hbound hf.2
  rw [enterBody_eq, enterBody_eq]
  refine ⟨?_, hbody.outcome, hbody.value⟩
  rw [endCall, endCall, hbody.same.counters]
  exact hbody.same.emit hT _

/-- Wherever the two sides bind the parameters, the body sees the same. -/
theorem call (b₁ b₂ : Binding) {head : Expr} {v : Value} {args : List Value} (hm : Same T m₁ m₂)
    (hview : SameView N m₁.heap s₁ m₂.heap s₂) (hv : v.Over N) (hargs : ∀ a ∈ args, a.Over N) :
    Match T (Value.Over N) (call b₁ rec₁ m₁ head v args s₁) (call b₂ rec₂ m₂ head v args s₂) := by
  rcases call_cases head v args with ⟨f, rfl, hlen⟩ | ⟨r, hcall, -, hr⟩ | ⟨c, r, rfl, hcall, -, hr⟩
  · cases b₁ with
    | caller =>
      rw [call_caller rec₁ m₁ head hlen]
      cases b₂ with
      | caller =>
        rw [call_caller rec₂ m₂ head hlen]
        exact hsim.enterBody hT hm hview hv hargs
      | fresh =>
        rw [call_fresh rec₂ m₂ head hlen]
        exact (hsim.enterBody hT (hm.openScope_right s₂) hview.push_right hv hargs).closeScope_right
    | fresh =>
      rw [call_fresh rec₁ m₁ head hlen]
      cases b₂ with
      | caller =>
        rw [call_caller rec₂ m₂ head hlen]
        exact (hsim.enterBody hT (hm.openScope_left s₁) hview.push_left hv hargs).closeScope_left
      | fresh =>
        rw [call_fresh rec₂ m₂ head hlen]
        have hbody := hsim.enterBody hT ((hm.openScope_left s₁).openScope_right s₂) hview.push hv hargs
        exact hbody.closeScope_left.closeScope_right
  · rw [hcall, hcall]
    exact ⟨hm, rfl, fun w hw => hr w hw ▸ hv⟩
  · rw [hcall, hcall]
    exact ⟨hm.countCall, rfl, fun w hw => Operation.over_of_apply hargs (hr w hw)⟩

include hconf₁ hconf₂

/-- **One step of the simulation**: carrying out the same plan with the same view gives matching results. -/
theorem run (b₁ b₂ : Binding) {p : Plan} (hm : Same T m₁ m₂) (hview : SameView N m₁.heap s₁ m₂.heap s₂)
    (hp : p.Over N) : Match T (Value.Over N) (p.run b₁ rec₁ m₁ s₁) (p.run b₂ rec₂ m₂ s₂) := by
  cases p with
  | answer r => exact ⟨hm, rfl, hp⟩
  | look name =>
    have hfind : m₁.heap.find s₁ name = m₂.heap.find s₂ name := by
      rw [Heap.find, Heap.find, hview.get?_eq name hp]
    refine ⟨hm, hfind, fun v hv => ?_⟩
    simp only [Plan.run, Heap.find] at hv
    split at hv
    · rename_i w hget
      cases hv
      exact hview.closed name v hp hget
    · cases hv
  | branch cond yes no =>
    have hcond := hsim.inChild hm hview hp.1
    refine hcond.andThen fun v _ => ?_
    have hview' := hview.of_scopes_eq (hconf₁.scopes_inChild m₁ cond s₁) (hconf₂.scopes_inChild m₂ cond s₂)
    refine hsim.inChild hcond.same hview' ?_
    split
    · exact hp.2.1
    · exact hp.2.2
  | define d => exact .ok ((hm.defineIn d s₁ s₂).emit hT _) trivial
  | fill words arg =>
    have harg := hsim.inChild hm hview hp
    exact harg.andThen fun v _ => .ok harg.same trivial
  | apply head ops =>
    rw [Plan.run, Plan.run, application_eq, application_eq]
    have hparts := hsim.parts hconf₁ hconf₂ hm hview hp.1 hp.2
    have hview' := hview.of_scopes_eq (hconf₁.scopes_parts m₁ s₁ head ops) (hconf₂.scopes_parts m₂ s₂ head ops)
    exact hparts.andThen fun q hq => hsim.call hT b₁ b₂ hparts.same hview' hq.1 hq.2

end Simulates

theorem simulates_within {N : String → Prop} {T : Trace → Trace → Prop} (hT : Recording T) (b₁ b₂ : Binding)
    (limit room : Nat) : Simulates N T (within b₁ limit room) (within b₂ limit room) := by
  induction room with
  | zero =>
    intro m₁ m₂ s₁ s₂ e hm _ _
    exact .error hm.enter.leave _
  | succ room ih =>
    intro m₁ m₂ s₁ s₂ e hm hview he
    have hstep := ih.run hT (confined_within b₁ limit room) (confined_within b₂ limit room) b₁ b₂ hm.enter hview
      (Plan.over_of he)
    rw [← step_eq_run, ← step_eq_run] at hstep
    exact hstep.leave

/-- **Evaluations that see the same do the same**, wherever they bind parameters. -/
theorem simulates_evalWith {N : String → Prop} {T : Trace → Trace → Prop} (hT : Recording T) (b₁ b₂ : Binding)
    (limit : Nat) : Simulates N T (evalWith b₁ limit) (evalWith b₂ limit) := by
  intro m₁ m₂ s₁ s₂ e hm hview he
  rw [evalWith, evalWith, hm.counters]
  exact simulates_within hT b₁ b₂ limit _ hm hview he

end Eval

end FormLang
