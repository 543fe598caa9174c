import FormLang.Proofs.Eval.Invariant
import FormLang.Proofs.Eval.Levels

/-!
# The depth budget

The evaluations that an evaluation starts, one after another (`Plan.starts`), and the depths at which it and they are entered
(`entered`). Both are read off what is evaluated and in which machine, and not off the counters.

The counters agree with it (`accounts_eval`): the peak is the largest depth that was entered, and an evaluation fails because
the depth is used up exactly if it entered the first depth beyond the limit. For no construct goes on after such a failure, and
none makes one of its own.
-/

namespace FormLang

/-! ## What an evaluation starts -/

/-- An evaluation that is about to begin. -/
structure Start where
  machine : Machine
  expr : Expr
  scope : ScopeId

namespace Eval

/-- What a first part starts, and then what follows if the first part has a value. -/
def thenStart {α : Type} (sts : List Start) (x : Machine × Except EvalError α) (next : Machine → α → List Start) :
    List Start :=
  match x with
  | (m, .ok v) => sts ++ next m v
  | (_, .error _) => sts

section starts

variable (rec : Evaluator)

def childStart (m : Machine) (e : Expr) (s : ScopeId) : Start :=
  ⟨m.openScope s, e, m.heap.size⟩

def operandStarts (s : ScopeId) (m : Machine) : List Expr → List Start
  | [] => []
  | e :: rest => thenStart [childStart m e s] (inChild rec m e s) fun m _ => operandStarts s m rest

def partStarts (m : Machine) (s : ScopeId) (head : Expr) (ops : List Expr) : List Start :=
  thenStart [childStart m head s] (inChild rec m head s) fun m _ => operandStarts rec s m ops

/-- Only a function that is given as many arguments as it has parameters is entered. -/
def callStarts (m : Machine) (v : Value) (args : List Value) (s : ScopeId) : List Start :=
  match v with
  | .function f => if args.length = f.params.length then [childStart (beginCall m f args s) f.body s] else []
  | _ => []

/-- The evaluations that carrying out a plan starts, in order. -/
def Plan.starts (m : Machine) (s : ScopeId) : Plan → List Start
  | .answer _ | .look _ | .define _ => []
  | .branch cond yes no =>
    thenStart [childStart m cond s] (inChild rec m cond s) fun m v => [childStart m (if v.truthy then yes else no) s]
  | .fill _ arg => [childStart m arg s]
  | .apply head ops =>
    thenStart (partStarts rec m s head ops) (parts rec m s head ops) fun m p => callStarts m p.1 p.2 s

end starts

/-- The depths that an evaluation enters, in order, with so many further levels left of the limit: its own, and those of all
that it starts. Without any level left it is entered and starts nothing. -/
def enteredWithin (limit : Nat) : (room : Nat) → Start → List Nat
  | 0, st => [st.machine.counters.depth + 1]
  | room + 1, st =>
    (st.machine.counters.depth + 1) ::
      ((Plan.of st.expr).starts (within .caller limit room) st.machine.enter st.scope).flatMap (enteredWithin limit room)

end Eval

/-- The depths that evaluating an expression in a scope under a depth limit enters, in order. -/
def entered (limit : Nat) (m : Machine) (e : Expr) (s : ScopeId) : List Nat :=
  Eval.enteredWithin limit (limit - m.counters.depth) ⟨m, e, s⟩

namespace Eval

theorem callStarts_function (m : Machine) {f : Function} {args : List Value} (hlen : args.length = f.params.length)
    (s : ScopeId) : callStarts m (.function f) args s = [childStart (beginCall m f args s) f.body s] :=
  if_pos hlen

theorem callStarts_of_not (m : Machine) {v : Value} {args : List Value}
    (h : ¬ ∃ f, v = .function f ∧ args.length = f.params.length) (s : ScopeId) : callStarts m v args s = [] := by
  cases v with
  | function f => exact if_neg fun hlen => h ⟨f, rfl, hlen⟩
  | _ => rfl

/-! ## The counters agree -/

/-- The depth and the peak are the same in both machines. -/
def SameLevel (m m' : Machine) : Prop :=
  m'.counters.depth = m.counters.depth ∧ m'.counters.peak = m.counters.peak

/-- On the way from the machine to the result these depths were entered: the depth is back where it was, the peak is the least
bound of the peak before and of them, and the depth was used up exactly if they pass the limit. -/
structure Accounts {α : Type} (limit : Nat) (ds : List Nat) (m : Machine) (x : Machine × Except EvalError α) : Prop where
  depth : x.1.counters.depth = m.counters.depth
  peak : ∀ n, x.1.counters.peak ≤ n ↔ m.counters.peak ≤ n ∧ ∀ d ∈ ds, d ≤ n
  bound : ∀ d ∈ ds, d ≤ limit + 1
  tooDeep : x.2 = .error (.tooDeep limit) ↔ limit + 1 ∈ ds

namespace Accounts

variable {limit : Nat}

section peak

variable {α : Type} {ds : List Nat} {m : Machine} {x : Machine × Except EvalError α} (h : Accounts limit ds m x)

include h

theorem le_peak : m.counters.peak ≤ x.1.counters.peak ∧ ∀ d ∈ ds, d ≤ x.1.counters.peak :=
  (h.peak _).mp (Nat.le_refl _)

theorem peak_le : x.1.counters.peak ≤ max m.counters.peak (limit + 1) := by
  rw [h.peak]
  exact ⟨Nat.le_max_left _ _, fun d hd => Nat.le_trans (h.bound d hd) (Nat.le_max_right _ _)⟩

/-- The peak passes the limit exactly if the depth beyond it was entered, unless it was there before. -/
theorem mem_iff_peak_eq (hpeak : m.counters.peak ≤ limit) : limit + 1 ∈ ds ↔ x.1.counters.peak = limit + 1 := by
  constructor
  · intro hmem
    have hge := h.le_peak.2 (limit + 1) hmem
    have hle := h.peak_le
    omega
  · intro heq
    refine Decidable.byContradiction fun hnot => ?_
    have hbelow : ∀ d ∈ ds, d ≤ limit := by
      intro d hd
      have hne : d ≠ limit + 1 := fun hd' => hnot (hd' ▸ hd)
      have hle := h.bound d hd
      omega
    have hle := (h.peak limit).mpr ⟨hpeak, hbelow⟩
    omega

end peak

/-- What enters nothing and fails for another reason, if it fails. -/
theorem nothing {α : Type} {m m' : Machine} {r : Except EvalError α} (hm : SameLevel m m')
    (hr : r ≠ .error (.tooDeep limit)) : Accounts limit [] m (m', r) where
  depth := hm.1
  peak n := by simp [hm.2]
  bound _ hd := by cases hd
  tooDeep := ⟨fun h => absurd h hr, fun h => by cases h⟩

/-- What happens to the machine before and after does not matter if depth and peak stay the same. -/
theorem onMachine {α : Type} {ds : List Nat} {m₁ m₂ m₃ : Machine} {x : Machine × Except EvalError α}
    (h : Accounts limit ds m₂ x) (hbefore : SameLevel m₁ m₂) (hafter : SameLevel x.1 m₃) : Accounts limit ds m₁ (m₃, x.2) where
  depth := hafter.1.trans (h.depth.trans hbefore.1)
  peak n := by rw [hafter.2, h.peak, hbefore.2]
  bound := h.bound
  tooDeep := h.tooDeep

/-- A level below the limit adds its own depth. -/
theorem level {α : Type} {ds : List Nat} {m : Machine} {x : Machine × Except EvalError α} (h : Accounts limit ds m.enter x)
    (hroom : m.counters.depth < limit) : Accounts limit ((m.counters.depth + 1) :: ds) m (x.1.leave, x.2) where
  depth := congrArg (· - 1) h.depth
  peak n := by
    have hpeak : m.enter.counters.peak ≤ n ↔ m.counters.peak ≤ n ∧ m.counters.depth + 1 ≤ n := Nat.max_le
    rw [List.forall_mem_cons, ← and_assoc, ← hpeak]
    exact h.peak n
  bound := List.forall_mem_cons.mpr ⟨by omega, h.bound⟩
  tooDeep := by
    rw [h.tooDeep, List.mem_cons]
    exact ⟨.inr, fun hmem => hmem.resolve_left (by omega)⟩

/-- A failure is handed on as it is. -/
theorem failure {α β : Type} {ds : List Nat} {m m' : Machine} {err : EvalError}
    (h : Accounts limit ds m ((m', .error err) : Machine × Except EvalError α)) :
    Accounts limit ds m ((m', .error err) : Machine × Except EvalError β) where
  depth := h.depth
  peak := h.peak
  bound := h.bound
  tooDeep := by
    have hdeep := h.tooDeep
    rw [Except.error.injEq] at hdeep ⊢
    exact hdeep

variable {ent : Start → List Nat}

theorem andThen {α β : Type} {sts : List Start} {m : Machine} {x : Machine × Except EvalError α}
    {next : Machine → α → Machine × Except EvalError β} {then' : Machine → α → List Start}
    (hx : Accounts limit (sts.flatMap ent) m x)
    (hnext : ∀ m' v, m'.counters.depth = m.counters.depth → Accounts limit ((then' m' v).flatMap ent) m' (next m' v)) :
    Accounts limit ((thenStart sts x then').flatMap ent) m (andThen x next) := by
  obtain ⟨m', err | v⟩ := x
  · exact hx.failure
  · -- the first part had a value, so it did not pass the limit
    have hnot : limit + 1 ∉ sts.flatMap ent := fun hmem => by cases hx.tooDeep.mpr hmem
    have hrest := hnext m' v hx.depth
    rw [thenStart, List.flatMap_append, Eval.andThen]
    refine ⟨hrest.depth.trans hx.depth, fun n => ?_, List.forall_mem_append.mpr ⟨hx.bound, hrest.bound⟩, ?_⟩
    · rw [hrest.peak, hx.peak, List.forall_mem_append, and_assoc]
    · rw [hrest.tooDeep, List.mem_append]
      exact ⟨.inr, fun h => h.resolve_left hnot⟩

/-- Computing with the value of a part enters nothing more. -/
theorem mapValue {α β : Type} {ds : List Nat} {m : Machine} {x : Machine × Except EvalError α} (hx : Accounts limit ds m x)
    (f : α → β) : Accounts limit ds m (Eval.andThen x fun m v => (m, .ok (f v))) := by
  obtain ⟨m', err | v⟩ := x
  · exact hx.failure
  · refine ⟨hx.depth, hx.peak, hx.bound, fun h => (by cases h), fun hmem => ?_⟩
    cases hx.tooDeep.mpr hmem

variable {d : Nat} {rec : Evaluator}
  (hrec : ∀ m e s, m.counters.depth = d → Accounts limit (ent ⟨m, e, s⟩) m (rec m e s))

include hrec

theorem inChild {m : Machine} (hm : m.counters.depth = d) (e : Expr) (s : ScopeId) :
    Accounts limit ([childStart m e s].flatMap ent) m (inChild rec m e s) := by
  rw [List.flatMap_singleton]
  exact (hrec (m.openScope s) e m.heap.size hm).onMachine ⟨rfl, rfl⟩ ⟨rfl, rfl⟩

theorem operands (s : ScopeId) {m : Machine} (hm : m.counters.depth = d) (done : List Value) (ops : List Expr) :
    Accounts limit ((operandStarts rec s m ops).flatMap ent) m (operands rec s m done ops) := by
  induction ops generalizing m done with
  | nil => exact nothing ⟨rfl, rfl⟩ (by simp)
  | cons e rest ih =>
    rw [operands_cons]
    exact (inChild hrec hm e s).andThen fun m' v hm' => ih (hm'.trans hm) (v :: done)

theorem parts {m : Machine} (hm : m.counters.depth = d) (s : ScopeId) (head : Expr) (ops : List Expr) :
    Accounts limit ((partStarts rec m s head ops).flatMap ent) m (parts rec m s head ops) := by
  refine (inChild hrec hm head s).andThen fun m' v hm' => ?_
  exact (operands hrec s (hm'.trans hm) [] ops).mapValue fun args => (v, args)

theorem call {m : Machine} (hm : m.counters.depth = d) (head : Expr) (v : Value) (args : List Value) (s : ScopeId) :
    Accounts limit ((callStarts m v args s).flatMap ent) m (call .caller rec m head v args s) := by
  by_cases hbody : ∃ f, v = .function f ∧ args.length = f.params.length
  · obtain ⟨f, rfl, hlen⟩ := hbody
    have hbegin : SameLevel m (beginCall m f args s) := by
      rw [SameLevel, beginCall, Machine.counters_emit]
      exact ⟨rfl, rfl⟩
    rw [callStarts_function m hlen, call_caller rec m head hlen, enterBody_eq]
    refine (inChild hrec (hbegin.1.trans hm) f.body s).onMachine hbegin ?_
    rw [SameLevel, Machine.counters_emit]
    exact ⟨rfl, rfl⟩
  · rw [callStarts_of_not m hbody]
    rcases call_cases head v args with hf | ⟨r, hcall, hr, -⟩ | ⟨c, r, -, hcall, hr, -⟩
    · exact absurd hf hbody
    · rw [hcall]
      exact nothing ⟨rfl, rfl⟩ (hr limit)
    · rw [hcall]
      exact nothing ⟨rfl, rfl⟩ (hr limit)

/-- **One step**: carrying out the plan of an expression accounts for what it starts. -/
theorem run {m : Machine} (hm : m.counters.depth = d) (e : Expr) (s : ScopeId) :
    Accounts limit (((Plan.of e).starts rec m s).flatMap ent) m ((Plan.of e).run .caller rec m s) := by
  cases hplan : Plan.of e with
  | answer r =>
    refine nothing ⟨rfl, rfl⟩ ?_
    rintro rfl
    rcases Plan.immediate_of hplan with hordinary | ⟨-, hhole⟩
    · exact absurd rfl hordinary.code_ne_resource
    · cases hhole
  | look name =>
    refine nothing ⟨rfl, rfl⟩ ?_
    unfold Heap.find
    split <;> simp
  | branch cond yes no =>
    exact (inChild hrec hm cond s).andThen fun m' v hm' => inChild hrec (hm'.trans hm) _ s
  | define d =>
    refine nothing ?_ (by simp)
    rw [SameLevel, Machine.counters_emit]
    exact ⟨rfl, rfl⟩
  | fill words arg => exact (inChild hrec hm arg s).mapValue fun v => Value.str (FormatText.fill words v.text)
  | apply head ops =>
    rw [Plan.run, application_eq]
    exact (parts hrec hm s head ops).andThen fun m' p hm' => call hrec (hm'.trans hm) head p.1 p.2 s

end Accounts

theorem accounts_within (limit room : Nat) (m : Machine) (e : Expr) (s : ScopeId) (hroom : m.counters.depth + room = limit) :
    Accounts limit (enteredWithin limit room ⟨m, e, s⟩) m (within .caller limit room m e s) := by
  induction room generalizing m e s with
  | zero =>
    -- the depth is the limit, and the one beyond it is entered
    obtain rfl : m.counters.depth = limit := hroom
    refine ⟨rfl, fun n => ?_, ?_, ?_⟩
    · rw [enteredWithin, List.forall_mem_singleton]
      exact Nat.max_le
    · simp [enteredWithin]
    · simp [enteredWithin, within]
  | succ room ih =>
    have hrec : ∀ m' e s, m'.counters.depth = m.counters.depth + 1 →
        Accounts limit (enteredWithin limit room ⟨m', e, s⟩) m' (within .caller limit room m' e s) :=
      fun m' e s hm' => ih m' e s (by omega)
    have hstep := Accounts.run hrec (m := m.enter) rfl e s
    rw [← step_eq_run] at hstep
    exact hstep.level (by omega)

theorem steady_calls : Steady fun m m' => m.counters.calls ≤ m'.counters.calls where
  refl _ := Nat.le_refl _
  trans := Nat.le_trans
  level h := h
  defineIn _ _ _ := Nat.le_refl _
  openScope _ _ := Nat.le_refl _
  closeScope _ := Nat.le_refl _
  bindPairs _ _ _ := Nat.le_refl _
  countCall _ := Nat.le_succ _
  emit m e := by simp

end Eval

/-- **The counters of an evaluation account for the depths that it enters.** -/
theorem accounts_eval {limit : Nat} {m : Machine} (hdepth : m.counters.depth ≤ limit) (e : Expr) (s : ScopeId) :
    Eval.Accounts limit (entered limit m e s) m (eval limit m e s) :=
  Eval.accounts_within limit _ m e s (by omega)

end FormLang
