import FormLang.Proofs.Eval.Plan

/-!
# Levels of evaluation

Two things that hold of every evaluation, whatever the binding of parameters.

* A relation between the machine before and the machine after that no part breaks holds of the whole (`Steady.within`); so
  the depth comes back to where it was (`depth_within`).
* `evalWith` satisfies the equation one expects of an evaluator with a depth budget (`evalWith_eq`). The room that is left
  for the levels below is no longer visible in it.

The second compares two evaluators for the level below. It is stated for evaluators that agree unless the first fails in a
way that cuts the evaluation short (`Settles`), since runs under different limits agree in that sense too.
-/

namespace FormLang.Eval

/-! ## What no part of an evaluation breaks -/

/-- A relation between the machine before and after that every primitive change respects. -/
structure Steady (Q : Machine → Machine → Prop) : Prop where
  refl : ∀ m, Q m m
  trans : ∀ {m₁ m₂ m₃}, Q m₁ m₂ → Q m₂ m₃ → Q m₁ m₃
  level : ∀ {m m' : Machine}, Q m.enter m' → Q m m'.leave
  defineIn : ∀ (m : Machine) d s, Q m (m.defineIn d s)
  openScope : ∀ (m : Machine) s, Q m (m.openScope s)
  closeScope : ∀ m : Machine, Q m m.closeScope
  bindPairs : ∀ (m : Machine) s pairs, Q m (m.bindPairs s pairs)
  countCall : ∀ m : Machine, Q m m.countCall
  emit : ∀ (m : Machine) e, Q m (m.emit e)

namespace Steady

variable {Q : Machine → Machine → Prop} (hQ : Steady Q) {rec : Evaluator} (hrec : ∀ m e s, Q m (rec m e s).1)

include hQ in
theorem andThen {α β : Type} {m : Machine} {x : Machine × Except EvalError α}
    {next : Machine → α → Machine × Except EvalError β} (hx : Q m x.1) (hnext : ∀ m v, Q m (next m v).1) :
    Q m (andThen x next).1 := by
  obtain ⟨m', err | v⟩ := x
  · exact hx
  · exact hQ.trans hx (hnext m' v)

include hQ hrec

theorem inChild (m : Machine) (e : Expr) (s : ScopeId) : Q m (inChild rec m e s).1 :=
  hQ.trans (hQ.openScope m s) (hQ.trans (hrec _ e m.heap.size) (hQ.closeScope _))

theorem operands (s : ScopeId) (m : Machine) (done : List Value) (ops : List Expr) :
    Q m (operands rec s m done ops).1 := by
  induction ops generalizing m done with
  | nil => exact hQ.refl m
  | cons e rest ih =>
    rw [operands_cons]
    exact hQ.andThen (hQ.inChild hrec m e s) fun m v => ih m (v :: done)

theorem parts (m : Machine) (s : ScopeId) (head : Expr) (ops : List Expr) : Q m (parts rec m s head ops).1 :=
  hQ.andThen (hQ.inChild hrec m head s) fun m _ =>
    hQ.andThen (hQ.operands hrec s m [] ops) fun m _ => hQ.refl m

theorem enterBody (m : Machine) (f : Function) (args : List Value) (s : ScopeId) :
    Q m (enterBody rec m f args s).1 := by
  rw [enterBody_eq]
  have hbegin : Q m (beginCall m f args s) :=
    hQ.trans (hQ.bindPairs m s _) (hQ.trans (hQ.countCall _) (hQ.emit _ _))
  exact hQ.trans hbegin (hQ.trans (hQ.inChild hrec _ f.body s) (hQ.emit _ _))

theorem call (b : Binding) (m : Machine) (head : Expr) (v : Value) (args : List Value) (s : ScopeId) :
    Q m (call b rec m head v args s).1 := by
  rcases call_cases head v args with ⟨f, rfl, hlen⟩ | ⟨r, hcall, -⟩ | ⟨c, r, -, hcall, -⟩
  · cases b with
    | caller =>
      rw [call_caller rec m head hlen]
      exact hQ.enterBody hrec m f args s
    | fresh =>
      rw [call_fresh rec m head hlen]
      exact hQ.trans (hQ.openScope m s) (hQ.trans (hQ.enterBody hrec _ f args _) (hQ.closeScope _))
  · rw [hcall]
    exact hQ.refl m
  · rw [hcall]
    exact hQ.countCall m

theorem step (b : Binding) (m : Machine) (e : Expr) (s : ScopeId) : Q m (step b rec m e s).1 := by
  rw [step_eq_run]
  cases Plan.of e with
  | answer r => exact hQ.refl m
  | look name => exact hQ.refl m
  | branch cond yes no => exact hQ.andThen (hQ.inChild hrec m cond s) fun m _ => hQ.inChild hrec m _ s
  | define d => exact hQ.trans (hQ.defineIn m d s) (hQ.emit _ _)
  | fill words arg => exact hQ.andThen (hQ.inChild hrec m arg s) fun m _ => hQ.refl m
  | apply head ops =>
    rw [Plan.run, application_eq]
    exact hQ.andThen (hQ.parts hrec m s head ops) fun m p => hQ.call hrec b m head p.1 p.2 s

omit hrec

/-- What no part of an evaluation breaks, a whole evaluation does not break. -/
theorem within (b : Binding) (limit room : Nat) (m : Machine) (e : Expr) (s : ScopeId) :
    Q m (within b limit room m e s).1 := by
  induction room generalizing m e s with
  | zero => exact hQ.level (hQ.refl _)
  | succ room ih => exact hQ.level (hQ.step ih b m.enter e s)

end Steady

theorem steady_depth : Steady fun m m' => m'.counters.depth = m.counters.depth where
  refl _ := rfl
  trans h₁ h₂ := h₂.trans h₁
  level {m m'} h := by simp [h]
  defineIn _ _ _ := rfl
  openScope _ _ := rfl
  closeScope _ := rfl
  bindPairs _ _ _ := rfl
  countCall _ := rfl
  emit m e := by simp

/-- Every level that is entered is left again. -/
theorem depth_within (b : Binding) (limit room : Nat) (m : Machine) (e : Expr) (s : ScopeId) :
    (within b limit room m e s).1.counters.depth = m.counters.depth :=
  steady_depth.within b limit room m e s

/-! ## Evaluators that agree -/

/-- The second result is the first one, unless the first is a failure that cuts the evaluation short. -/
def Settles {α : Type} (cut : EvalError → Prop) (x y : Machine × Except EvalError α) : Prop :=
  y = x ∨ ∃ err, cut err ∧ x.2 = .error err

namespace Settles

variable {cut : EvalError → Prop}

theorem refl {α : Type} (x : Machine × Except EvalError α) : Settles cut x x :=
  .inl rfl

theorem onMachine {α : Type} {x y : Machine × Except EvalError α} (h : Settles cut x y) (f : Machine → Machine) :
    Settles cut (f x.1, x.2) (f y.1, y.2) := by
  rcases h with rfl | hcut
  · exact .inl rfl
  · exact .inr hcut

theorem andThen {α β : Type} {x y : Machine × Except EvalError α}
    {next next' : Machine → α → Machine × Except EvalError β} (hx : Settles cut x y)
    (hnext : ∀ v, Settles cut (next x.1 v) (next' x.1 v)) : Settles cut (andThen x next) (andThen y next') := by
  rcases hx with rfl | ⟨err, hcut, herr⟩
  · obtain ⟨m, err | v⟩ := y
    · exact .inl rfl
    · exact hnext v
  · -- a failure of the first part is the failure of the whole
    obtain ⟨m, r⟩ := x
    cases herr
    exact .inr ⟨err, hcut, rfl⟩

variable {d : Nat} {rec₁ rec₂ : Evaluator} (hdepth : ∀ m e s, (rec₁ m e s).1.counters.depth = m.counters.depth)
  (hrec : ∀ m e s, m.counters.depth = d → Settles cut (rec₁ m e s) (rec₂ m e s))

include hrec in
theorem inChild {m : Machine} (hm : m.counters.depth = d) (e : Expr) (s : ScopeId) :
    Settles cut (inChild rec₁ m e s) (inChild rec₂ m e s) :=
  (hrec (m.openScope s) e m.heap.size hm).onMachine Machine.closeScope

include hrec in
theorem enterBody {m : Machine} (hm : m.counters.depth = d) (f : Function) (args : List Value) (s : ScopeId) :
    Settles cut (enterBody rec₁ m f args s) (enterBody rec₂ m f args s) := by
  have hbegin : (beginCall m f args s).counters.depth = d := by simp [beginCall, hm]
  rw [enterBody_eq, enterBody_eq]
  exact (inChild hrec hbegin f.body s).onMachine fun m => m.emit (.callEnd f.name m.counters.depth)

include hrec in
theorem call (b : Binding) {m : Machine} (hm : m.counters.depth = d) (head : Expr) (v : Value) (args : List Value)
    (s : ScopeId) : Settles cut (call b rec₁ m head v args s) (call b rec₂ m head v args s) := by
  rcases call_cases head v args with ⟨f, rfl, hlen⟩ | ⟨r, hcall, -⟩ | ⟨c, r, -, hcall, -⟩
  · cases b with
    | caller =>
      rw [call_caller rec₁ m head hlen, call_caller rec₂ m head hlen]
      exact enterBody hrec hm f args s
    | fresh =>
      rw [call_fresh rec₁ m head hlen, call_fresh rec₂ m head hlen]
      have hopen : (m.openScope s).counters.depth = d := hm
      exact (enterBody hrec hopen f args _).onMachine Machine.closeScope
  · rw [hcall, hcall]
    exact refl _
  · rw [hcall, hcall]
    exact refl _

include hdepth hrec

theorem operands (s : ScopeId) {m : Machine} (hm : m.counters.depth = d) (done : List Value) (ops : List Expr) :
    Settles cut (operands rec₁ s m done ops) (operands rec₂ s m done ops) := by
  induction ops generalizing m done with
  | nil => exact refl _
  | cons e rest ih =>
    rw [operands_cons, operands_cons]
    have hnext : (Eval.inChild rec₁ m e s).1.counters.depth = d := (steady_depth.inChild hdepth m e s).trans hm
    exact (inChild hrec hm e s).andThen fun v => ih hnext (v :: done)

theorem parts {m : Machine} (hm : m.counters.depth = d) (s : ScopeId) (head : Expr) (ops : List Expr) :
    Settles cut (parts rec₁ m s head ops) (parts rec₂ m s head ops) := by
  have hchild : (Eval.inChild rec₁ m head s).1.counters.depth = d := (steady_depth.inChild hdepth m head s).trans hm
  exact (inChild hrec hm head s).andThen fun v =>
    (operands hdepth hrec s hchild [] ops).andThen fun args => refl _

theorem step (b : Binding) {m : Machine} (hm : m.counters.depth = d) (e : Expr) (s : ScopeId) :
    Settles cut (step b rec₁ m e s) (step b rec₂ m e s) := by
  rw [step_eq_run, step_eq_run]
  cases Plan.of e with
  | answer r => exact refl _
  | look name => exact refl _
  | branch cond yes no =>
    have hcond := (steady_depth.inChild hdepth m cond s).trans hm
    exact (inChild hrec hm cond s).andThen fun v => inChild hrec hcond _ s
  | define d => exact refl _
  | fill words arg => exact (inChild hrec hm arg s).andThen fun v => refl _
  | apply head ops =>
    rw [Plan.run, Plan.run, application_eq, application_eq]
    have hparts := (steady_depth.parts hdepth m s head ops).trans hm
    exact (parts hdepth hrec hm s head ops).andThen fun p => call hrec b hparts head p.1 p.2 s

end Settles

end FormLang.Eval

namespace FormLang

/-! ## The equation of an evaluator -/

theorem depth_evalWith (b : Binding) (limit : Nat) (m : Machine) (e : Expr) (s : ScopeId) :
    (evalWith b limit m e s).1.counters.depth = m.counters.depth :=
  Eval.depth_within b limit _ m e s

/-- **An evaluation is one step whose parts are evaluations**, if the depth budget admits it. -/
theorem evalWith_eq (b : Binding) (limit : Nat) (m : Machine) (e : Expr) (s : ScopeId) :
    evalWith b limit m e s =
      if m.counters.depth < limit then
        ((Eval.step b (evalWith b limit) m.enter e s).1.leave, (Eval.step b (evalWith b limit) m.enter e s).2)
      else (m.enter.leave, .error (.tooDeep limit)) := by
  by_cases hroom : m.counters.depth < limit
  · obtain ⟨room, hr⟩ : ∃ room, limit - m.counters.depth = room + 1 := ⟨limit - m.counters.depth - 1, by omega⟩
    -- below, machines are one level deeper, where the room left is just what the limit leaves
    have hrec : ∀ m' e s, m'.counters.depth = m.counters.depth + 1 →
        Eval.Settles (fun _ => False) (Eval.within b limit room m' e s) (evalWith b limit m' e s) := by
      intro m' e s hm'
      have heq : limit - m'.counters.depth = room := by omega
      rw [evalWith, heq]
      exact .refl _
    have hstep := Eval.Settles.step (Eval.depth_within b limit room) hrec b (rfl : m.enter.counters.depth = _) e s
    rcases hstep with heq | ⟨err, hcut, -⟩
    · rw [if_pos hroom, heq, evalWith, hr]
      rfl
    · exact hcut.elim
  · have hzero : limit - m.counters.depth = 0 := by omega
    rw [if_neg hroom, evalWith, hzero]
    rfl

end FormLang
