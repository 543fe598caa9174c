import FormLang.Proofs.Eval.Activity
import FormLang.Proofs.Eval.Budget
import FormLang.Proofs.Expr.RoundTrip

/-!
# Nesting bounds depth

An evaluation that enters no function evaluates only parts of its expression, each one level below the form that it is an item
of. So it goes no deeper than its lists are nested, and one level for the leaves (`le_nest_of_mem_entered`). What it evaluates
is taken from its plan (`Plan.partOf_starts`), whichever form that comes from.
-/

namespace FormLang

/-! ## The nesting of items -/

namespace Expr

theorem nest_le_nestAll {items : List Expr} {x : Expr} (h : x ∈ items) : x.nest ≤ nestAll items := by
  induction items with
  | nil => cases h
  | cons e rest ih =>
    rw [nestAll]
    rcases List.mem_cons.mp h with rfl | h
    · exact Nat.le_max_left _ _
    · exact Nat.le_trans (ih h) (Nat.le_max_right _ _)

theorem nest_lt_of_mem {items : List Expr} {x : Expr} (h : x ∈ items) : x.nest < (Expr.list items).nest := by
  have hle := nest_le_nestAll h
  rw [nest]
  omega

end Expr

namespace Eval

/-! ## What is started where no function is entered -/

/-- What is started is one of the expressions, at this depth, and enters no function. -/
structure PartOf (act : Observer) (exprs : List Expr) (depth : Nat) (st : Start) : Prop where
  expr : st.expr ∈ exprs
  depth : st.machine.counters.depth = depth
  called : (act st.machine st.expr st.scope).called = []

theorem PartOf.mono {act : Observer} {exprs exprs' : List Expr} {depth : Nat} {st : Start} (h : PartOf act exprs depth st)
    (hsub : ∀ e ∈ exprs, e ∈ exprs') : PartOf act exprs' depth st :=
  ⟨hsub _ h.expr, h.depth, h.called⟩

/-- If nothing is called, then nothing is called in a first part, nor in what follows on its value. -/
theorem forall_mem_thenStart {α : Type} {P : Start → Prop} {sts : List Start} {a : Activity}
    {x : Machine × Except EvalError α} {next : Machine → α → List Start} {then' : Machine → α → Activity}
    (hcalled : (thenDo a x then').called = []) (hfirst : a.called = [] → ∀ st ∈ sts, P st)
    (hnext : ∀ v, (then' x.1 v).called = [] → ∀ st ∈ next x.1 v, P st) : ∀ st ∈ thenStart sts x next, P st := by
  obtain ⟨m, err | v⟩ := x
  · exact hfirst hcalled
  · rw [thenDo, Activity.called_append, List.append_eq_nil_iff] at hcalled
    exact List.forall_mem_append.mpr ⟨hfirst hcalled.1, hnext v hcalled.2⟩

section starts

variable {rec : Evaluator} {act : Observer} {m : Machine} {s : ScopeId}

theorem partOf_childStart {e : Expr} {exprs : List Expr} (he : e ∈ exprs) (hcalled : (childActivity act m e s).called = []) :
    ∀ st ∈ [childStart m e s], PartOf act exprs m.counters.depth st := by
  intro st hst
  rw [List.mem_singleton.mp hst]
  exact ⟨he, rfl, hcalled⟩

variable (hdepth : ∀ m e s, (rec m e s).1.counters.depth = m.counters.depth)

include hdepth

theorem partOf_operandStarts {ops : List Expr} (hcalled : (operandsActivity rec act s m ops).called = []) :
    ∀ st ∈ operandStarts rec s m ops, PartOf act ops m.counters.depth st := by
  induction ops generalizing m with
  | nil => exact fun st hst => absurd hst List.not_mem_nil
  | cons e rest ih =>
    refine forall_mem_thenStart hcalled (partOf_childStart List.mem_cons_self) fun _ hrest st hst => ?_
    have hpart := ih hrest st hst
    rw [steady_depth.inChild hdepth] at hpart
    exact hpart.mono fun x hx => List.mem_cons_of_mem e hx

theorem partOf_partStarts {head : Expr} {ops : List Expr} (hcalled : (partsActivity rec act m s head ops).called = []) :
    ∀ st ∈ partStarts rec m s head ops, PartOf act (head :: ops) m.counters.depth st := by
  refine forall_mem_thenStart hcalled (partOf_childStart List.mem_cons_self) fun _ hops st hst => ?_
  have hpart := partOf_operandStarts hdepth hops st hst
  rw [steady_depth.inChild hdepth] at hpart
  exact hpart.mono fun x hx => List.mem_cons_of_mem head hx

omit hdepth in
/-- A call that enters no function starts nothing. -/
theorem callStarts_eq_nil {v : Value} {args : List Value} (hcalled : (callActivity act m v args s).called = []) :
    callStarts m v args s = [] := by
  refine callStarts_of_not m ?_ s
  rintro ⟨f, rfl, hlen⟩
  rw [callActivity_function act m hlen] at hcalled
  cases hcalled

/-- **One step**: a plan that enters no function starts only expressions of its own. -/
theorem Plan.partOf_starts {p : Plan} (hcalled : (p.activity rec act m s).called = []) :
    ∀ st ∈ p.starts rec m s, PartOf act p.exprs m.counters.depth st := by
  cases p with
  | answer r | look name | define d => exact fun st hst => absurd hst List.not_mem_nil
  | branch cond yes no =>
    refine forall_mem_thenStart hcalled (partOf_childStart (by simp [exprs])) fun v hbranch st hst => ?_
    have hmem : (if v.truthy then yes else no) ∈ (Plan.branch cond yes no).exprs := by
      split <;> simp [exprs]
    have hpart := partOf_childStart hmem hbranch st hst
    rwa [steady_depth.inChild hdepth] at hpart
  | fill words arg => exact partOf_childStart List.mem_cons_self hcalled
  | apply head ops =>
    refine forall_mem_thenStart hcalled (partOf_partStarts hdepth) fun p hcall st hst => ?_
    rw [callStarts_eq_nil hcall] at hst
    cases hst

end starts

/-! ## The depths that are entered -/

theorem le_nest_of_mem_enteredWithin (limit room : Nat) (st : Start)
    (hcalled : (activityWithin limit room st.machine st.expr st.scope).called = []) :
    ∀ d ∈ enteredWithin limit room st, d ≤ st.machine.counters.depth + st.expr.nest + 1 := by
  induction room generalizing st with
  | zero =>
    intro d hd
    rw [List.mem_singleton.mp hd]
    omega
  | succ room ih =>
    rw [enteredWithin, List.forall_mem_cons]
    refine ⟨by omega, fun d hd => ?_⟩
    obtain ⟨part, hpart, hd⟩ := List.mem_flatMap.mp hd
    have hinside := Plan.partOf_starts (depth_within .caller limit room) hcalled part hpart
    -- the part is an item, so that its nesting makes up for the level it is below
    obtain ⟨items, hitems, hmem⟩ := Plan.mem_items_of_mem_exprs hinside.expr
    have hnest := Expr.nest_lt_of_mem hmem
    have hdepth : part.machine.counters.depth = st.machine.counters.depth + 1 := hinside.depth
    have hle := ih part hinside.called d hd
    rw [hitems]
    omega

end Eval

/-- **Nesting bounds the depth of an evaluation that enters no function.** -/
theorem le_nest_of_mem_entered {limit : Nat} {m : Machine} {e : Expr} {s : ScopeId}
    (hcalled : (activity limit m e s).called = []) : ∀ d ∈ entered limit m e s, d ≤ m.counters.depth + e.nest + 1 :=
  Eval.le_nest_of_mem_enteredWithin limit _ ⟨m, e, s⟩ hcalled

end FormLang
