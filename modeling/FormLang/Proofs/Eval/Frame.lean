import FormLang.Proofs.Eval.Levels
import FormLang.Proofs.Heap

/-!
# What an evaluation leaves in the heap

An evaluation in a scope touches no other scope, and in its own scope it binds at most what one definition or one call
binds. Conditions, branches, operands and bodies bind in scopes that end with them.

* `Confined`: an evaluator leaves nothing behind but pairs bound in its own scope. `confined_within` is the induction over
  the levels; all else follows from it, because a scope that was opened for a part is closed with all that was bound in it.
* `Plan.effect` are the pairs themselves, and `scopes_evalWith` says that they are exactly what is left.
* `eval_scope_effect` says which expressions leave what, without `Plan`.
-/

namespace FormLang

namespace Eval

/-! ## Evaluators that bind in their own scope only -/

/-- All that an evaluation leaves behind in the heap is some pairs bound in its own scope. -/
def Confined (rec : Evaluator) : Prop :=
  ∀ m e s, ∃ pairs, (rec m e s).1.heap.scopes = (m.heap.bindPairs s pairs).scopes

/-- The pairs that a call leaves bound in the scope of the caller. -/
def callPairs (b : Binding) (v : Value) (args : List Value) : List (String × Value) :=
  match b, v with
  | .caller, .function f => if args.length = f.params.length then f.params.zip args else []
  | _, _ => []

@[simp] theorem callPairs_fresh (v : Value) (args : List Value) : callPairs .fresh v args = [] := by
  cases v <;> rfl

theorem callPairs_caller {f : Function} {args : List Value} (hlen : args.length = f.params.length) :
    callPairs .caller (.function f) args = f.params.zip args :=
  if_pos hlen

theorem callPairs_of_not (b : Binding) {v : Value} {args : List Value}
    (h : ¬ ∃ f, v = .function f ∧ args.length = f.params.length) : callPairs b v args = [] := by
  cases b with
  | fresh => exact callPairs_fresh v args
  | caller =>
    cases v with
    | function f => exact if_neg fun hlen => h ⟨f, rfl, hlen⟩
    | _ => rfl

/-- The pairs that carrying out a plan leaves bound. -/
def Plan.effect (b : Binding) (rec : Evaluator) (m : Machine) (s : ScopeId) : Plan → List (String × Value)
  | .define d => [(d.name, .function (m.nextFunction d))]
  | .apply head ops =>
    match (parts rec m s head ops).2 with
    | .ok (v, args) => callPairs b v args
    | .error _ => []
  | .answer _ | .look _ | .branch .. | .fill .. => []

theorem scopes_andThen {α β : Type} {m : Machine} {x : Machine × Except EvalError α}
    {next : Machine → α → Machine × Except EvalError β} (hx : x.1.heap.scopes = m.heap.scopes)
    (hnext : ∀ m v, (next m v).1.heap.scopes = m.heap.scopes) : (andThen x next).1.heap.scopes = m.heap.scopes := by
  obtain ⟨m', err | v⟩ := x
  · exact hx
  · exact (hnext m' v).trans hx

namespace Confined

variable {rec : Evaluator} (hrec : Confined rec)

include hrec

/-- A part that is evaluated in a scope of its own leaves nothing behind. -/
theorem scopes_inChild (m : Machine) (e : Expr) (s : ScopeId) :
    (inChild rec m e s).1.heap.scopes = m.heap.scopes := by
  obtain ⟨pairs, hpairs⟩ := hrec (m.openScope s) e m.heap.size
  have hpop : (inChild rec m e s).1.heap.scopes = (rec (m.openScope s) e m.heap.size).1.heap.scopes.pop := rfl
  rw [hpop, hpairs]
  exact Heap.scopes_pop_bindPairs_push m.heap (some s) pairs

theorem scopes_operands (s : ScopeId) (m : Machine) (done : List Value) (ops : List Expr) :
    (operands rec s m done ops).1.heap.scopes = m.heap.scopes := by
  induction ops generalizing m done with
  | nil => rfl
  | cons e rest ih =>
    rw [operands_cons]
    exact scopes_andThen (hrec.scopes_inChild m e s) fun m v => ih m (v :: done)

theorem scopes_parts (m : Machine) (s : ScopeId) (head : Expr) (ops : List Expr) :
    (parts rec m s head ops).1.heap.scopes = m.heap.scopes :=
  scopes_andThen (hrec.scopes_inChild m head s) fun m _ =>
    scopes_andThen (hrec.scopes_operands s m [] ops) fun _ _ => rfl

/-- Of a body that runs, the parameters are left. -/
theorem scopes_enterBody (m : Machine) (f : Function) (args : List Value) (s : ScopeId) :
    (enterBody rec m f args s).1.heap.scopes = (m.heap.bindPairs s (f.params.zip args)).scopes := by
  rw [enterBody_eq, endCall, Machine.heap_emit, hrec.scopes_inChild]
  simp [beginCall]

theorem scopes_call (b : Binding) (m : Machine) (head : Expr) (v : Value) (args : List Value) (s : ScopeId) :
    (call b rec m head v args s).1.heap.scopes = (m.heap.bindPairs s (callPairs b v args)).scopes := by
  by_cases hbody : ∃ f, v = .function f ∧ args.length = f.params.length
  · obtain ⟨f, rfl, hlen⟩ := hbody
    cases b with
    | caller =>
      rw [call_caller rec m head hlen, hrec.scopes_enterBody, callPairs_caller hlen]
    | fresh =>
      -- the scope of the parameters is closed too
      have hpop : ((enterBody rec (m.openScope s) f args m.heap.size).1.closeScope).heap.scopes =
          (enterBody rec (m.openScope s) f args m.heap.size).1.heap.scopes.pop := rfl
      rw [call_fresh rec m head hlen, hpop, hrec.scopes_enterBody, callPairs_fresh, Heap.scopes_bindPairs_nil]
      exact Heap.scopes_pop_bindPairs_push m.heap (some s) _
  · rw [callPairs_of_not b hbody, Heap.scopes_bindPairs_nil]
    rcases call_cases head v args with hf | ⟨r, hcall, -⟩ | ⟨c, r, -, hcall, -⟩
    · exact absurd hf hbody
    · rw [hcall]
    · rw [hcall, Machine.heap_countCall]

/-- **Carrying out a plan leaves its effect in the scope and nothing else.** -/
theorem scopes_run (b : Binding) (m : Machine) (s : ScopeId) (p : Plan) :
    (p.run b rec m s).1.heap.scopes = (m.heap.bindPairs s (p.effect b rec m s)).scopes := by
  cases p with
  | answer r => simp [Plan.run, Plan.effect]
  | look name => simp [Plan.run, Plan.effect]
  | branch cond yes no =>
    rw [Plan.effect, Heap.scopes_bindPairs_nil]
    exact scopes_andThen (hrec.scopes_inChild m cond s) fun m _ => hrec.scopes_inChild m _ s
  | define d =>
    rw [Plan.run, Machine.heap_emit]
    rfl
  | fill words arg =>
    rw [Plan.effect, Heap.scopes_bindPairs_nil]
    exact scopes_andThen (hrec.scopes_inChild m arg s) fun _ _ => rfl
  | apply head ops =>
    have hparts := hrec.scopes_parts m s head ops
    rw [Plan.run, application_eq, Plan.effect]
    revert hparts
    rcases parts rec m s head ops with ⟨m', err | ⟨v, args⟩⟩ <;> intro hparts
    · rw [Heap.scopes_bindPairs_nil]
      exact hparts
    · exact (hrec.scopes_call b m' head v args s).trans (Heap.scopes_bindPairs_congr hparts s _)

end Confined

theorem confined_within (b : Binding) (limit room : Nat) : Confined (within b limit room) := by
  induction room with
  | zero => exact fun m e s => ⟨[], by simp [within]⟩
  | succ room ih =>
    intro m e s
    refine ⟨(Plan.of e).effect b (within b limit room) m.enter s, ?_⟩
    have hrun := ih.scopes_run b m.enter s (Plan.of e)
    rw [← step_eq_run] at hrun
    exact hrun

/-! ## Whole evaluations -/

/-- The pairs that an evaluation leaves bound in its scope. -/
def effect (b : Binding) (limit : Nat) (m : Machine) (e : Expr) (s : ScopeId) : List (String × Value) :=
  if m.counters.depth < limit then (Plan.of e).effect b (evalWith b limit) m.enter s else []

theorem confined_evalWith (b : Binding) (limit : Nat) : Confined (evalWith b limit) :=
  fun m e s => confined_within b limit _ m e s

theorem scopes_evalWith (b : Binding) (limit : Nat) (m : Machine) (e : Expr) (s : ScopeId) :
    (evalWith b limit m e s).1.heap.scopes = (m.heap.bindPairs s (effect b limit m e s)).scopes := by
  rw [evalWith_eq, effect]
  by_cases hroom : m.counters.depth < limit
  · rw [if_pos hroom, if_pos hroom, step_eq_run]
    exact (confined_evalWith b limit).scopes_run b m.enter s (Plan.of e)
  · rw [if_neg hroom, if_neg hroom, Heap.scopes_bindPairs_nil]
    rfl

end Eval

/-- The depth budget admits `e`, and it is the form of a definition with different parameters. -/
def Defines (limit : Nat) (m : Machine) (e : Expr) (d : Definition) : Prop :=
  m.counters.depth < limit ∧ e = d.form ∧ d.params.Nodup

/-- The depth budget admits `e`, a form whose head is no keyword. The head evaluates to the function `f`, then the
operands evaluate to `args`, and there are as many of them as `f` has parameters. -/
def Enters (limit : Nat) (m : Machine) (e : Expr) (s : ScopeId) (f : Function) (args : List Value) : Prop :=
  m.counters.depth < limit ∧ ∃ head ops m₁ m₂, e = .list (head :: ops) ∧
    (head ≠ .symbol "if" ∧ head ≠ .symbol "defun" ∧ head ≠ .symbol "format") ∧
    Eval.inChild (eval limit) m.enter head s = (m₁, .ok (.function f)) ∧
    Eval.operands (eval limit) s m₁ [] ops = (m₂, .ok args) ∧
    args.length = f.params.length

namespace Eval

variable {limit : Nat} {m : Machine} {e : Expr} {s : ScopeId}

theorem effect_of_defines (b : Binding) {d : Definition} (h : Defines limit m e d) :
    effect b limit m e s = [(d.name, .function (m.nextFunction d))] := by
  obtain ⟨hroom, hform, hnodup⟩ := h
  rw [effect, if_pos hroom, (Plan.of_eq_define_iff e d).mpr ⟨hform, hnodup⟩]
  rfl

theorem enters_iff {f : Function} {args : List Value} :
    Enters limit m e s f args ↔ m.counters.depth < limit ∧ ∃ head ops, Plan.of e = .apply head ops ∧
      (parts (eval limit) m.enter s head ops).2 = .ok (.function f, args) ∧ args.length = f.params.length := by
  refine and_congr_right fun _ => ⟨?_, ?_⟩
  · rintro ⟨head, ops, m₁, m₂, rfl, hkey, hhead, hops, hlen⟩
    refine ⟨head, ops, (Plan.of_eq_apply_iff _ _ _).mpr ⟨rfl, (Keyword.ofHead?_eq_none_iff head).mpr hkey⟩, ?_, hlen⟩
    simp only [parts, andThen, hhead, hops]
  · rintro ⟨head, ops, hplan, hparts, hlen⟩
    obtain ⟨rfl, hkey⟩ := (Plan.of_eq_apply_iff _ _ _).mp hplan
    rw [parts] at hparts
    rcases hhead : inChild (eval limit) m.enter head s with ⟨m₁, err | v⟩
    · simp [hhead, andThen] at hparts
    · rcases hops : operands (eval limit) s m₁ [] ops with ⟨m₂, err | vs⟩
      · simp [hhead, hops, andThen] at hparts
      · simp only [hhead, hops, andThen, Except.ok.injEq, Prod.mk.injEq] at hparts
        obtain ⟨rfl, rfl⟩ := hparts
        exact ⟨head, ops, m₁, m₂, rfl, (Keyword.ofHead?_eq_none_iff head).mp hkey, hhead, hops, hlen⟩

theorem effect_of_enters {f : Function} {args : List Value} (h : Enters limit m e s f args) :
    effect .caller limit m e s = f.params.zip args := by
  obtain ⟨hroom, head, ops, hplan, hparts, hlen⟩ := enters_iff.mp h
  rw [effect, if_pos hroom, hplan, Plan.effect]
  change (match (parts (eval limit) m.enter s head ops).2 with
    | .ok (v, args) => callPairs .caller v args
    | .error _ => []) = _
  rw [hparts]
  exact callPairs_caller hlen

theorem not_defines_of_enters {f : Function} {args : List Value} (h : Enters limit m e s f args) :
    ¬ ∃ d, Defines limit m e d := by
  rintro ⟨d, -, hform, hnodup⟩
  obtain ⟨-, head, ops, hplan, -, -⟩ := enters_iff.mp h
  rw [(Plan.of_eq_define_iff e d).mpr ⟨hform, hnodup⟩] at hplan
  cases hplan

/-- What neither defines nor enters a function leaves nothing, and nor does a call that binds elsewhere. -/
theorem effect_eq_nil (b : Binding) (hdef : ¬ ∃ d, Defines limit m e d)
    (henter : b = .caller → ¬ ∃ f args, Enters limit m e s f args) : effect b limit m e s = [] := by
  rw [effect]
  by_cases hroom : m.counters.depth < limit
  · rw [if_pos hroom]
    cases hplan : Plan.of e with
    | define d =>
      obtain ⟨hform, hnodup⟩ := (Plan.of_eq_define_iff e d).mp hplan
      exact absurd ⟨d, hroom, hform, hnodup⟩ hdef
    | apply head ops =>
      rw [Plan.effect]
      cases hparts : (parts (evalWith b limit) m.enter s head ops).2 with
      | error err => rfl
      | ok p =>
        obtain ⟨v, args⟩ := p
        cases b with
        | fresh => exact callPairs_fresh v args
        | caller =>
          refine callPairs_of_not .caller ?_
          rintro ⟨f, rfl, hlen⟩
          exact henter rfl ⟨f, args, enters_iff.mpr ⟨hroom, head, ops, hplan, hparts, hlen⟩⟩
    | answer r => rfl
    | look name => rfl
    | branch cond yes no => rfl
    | fill words arg => rfl
  · exact if_neg hroom

end Eval

/-- **The exact effect of an evaluation on the scopes.** No scope but its own changes. A well-formed definition binds its
name there, a call that gets as far as its body binds the parameters, and nothing else binds anything. The built-ins in scope are
those of `Operation`, which get their arguments only and no scope. -/
theorem eval_scope_effect (limit : Nat) (m : Machine) (e : Expr) (s : ScopeId) (hs : s < m.heap.size) :
    (∀ t, t ≠ s → (eval limit m e s).1.heap.scopes[t]? = m.heap.scopes[t]?) ∧
    (eval limit m e s).1.heap.outer? s = m.heap.outer? s ∧
    (∀ d, Defines limit m e d → ∀ x, (eval limit m e s).1.heap.getLocal? s x =
      if x = d.name then some (.function ⟨m.heap.functions, d.name, d.params, d.body⟩) else m.heap.getLocal? s x) ∧
    (∀ f args, Enters limit m e s f args → ∀ x, (eval limit m e s).1.heap.getLocal? s x =
      ((f.params.zip args).reverse.lookup x).or (m.heap.getLocal? s x)) ∧
    ((¬ ∃ d, Defines limit m e d) → (¬ ∃ f args, Enters limit m e s f args) →
      (eval limit m e s).1.heap.bindings s = m.heap.bindings s) := by
  have hscopes := Eval.scopes_evalWith .caller limit m e s
  have hlocal (x : String) : (eval limit m e s).1.heap.getLocal? s x =
      ((Eval.effect .caller limit m e s).reverse.lookup x).or (m.heap.getLocal? s x) := by
    rw [← Heap.getLocal?_bindPairs_self m.heap hs, Heap.getLocal?, Heap.getLocal?, Heap.bindings, Heap.bindings, eval,
      hscopes]
  refine ⟨fun t ht => ?_, ?_, fun d hd x => ?_, fun f args hf x => ?_, fun hd hf => ?_⟩
  · rw [eval, hscopes, Heap.scopes_bindPairs_of_ne _ ht]
  · rw [← Heap.outer?_bindPairs m.heap s s (Eval.effect .caller limit m e s), Heap.outer?, Heap.outer?, eval, hscopes]
  · rw [hlocal, Eval.effect_of_defines .caller hd, List.reverse_singleton, Bindings.lookup_cons]
    by_cases hx : x = d.name
    · rw [if_pos hx, if_pos hx]
      rfl
    · rw [if_neg hx, if_neg hx]
      rfl
  · rw [hlocal, Eval.effect_of_enters hf]
  · rw [eval, Heap.bindings, hscopes, Eval.effect_eq_nil .caller hd fun _ => hf, Heap.scopes_bindPairs_nil,
      Heap.bindings]

/-- A single scope that binds `f` to a function of `x` whose body looks up an unbound name. -/
def failingCaller : Machine :=
  .start ((Heap.empty.push none).bind 0 "f" (.function ⟨0, "f", ["x"], .symbol "y"⟩)) "" false

theorem failingCaller_enters :
    Enters 3 failingCaller (.list [.symbol "f", .int 7]) 0 ⟨0, "f", ["x"], .symbol "y"⟩ [.int 7] :=
  ⟨by decide, _, _, _, _, rfl, ⟨by simp, by simp, by simp⟩, rfl, rfl, rfl⟩

/-- The parameter of a call whose body fails stays bound. -/
theorem eval_scope_effect_failing_call :
    0 < failingCaller.heap.size ∧
    (eval 3 failingCaller (.list [.symbol "f", .int 7]) 0).2 = .error (.unbound "y") ∧
    (eval 3 failingCaller (.list [.symbol "f", .int 7]) 0).1.heap.getLocal? 0 "x" = some (.int 7) := by
  have hs : 0 < failingCaller.heap.size := by decide
  refine ⟨hs, rfl, ?_⟩
  exact (eval_scope_effect 3 failingCaller _ 0 hs).2.2.2.1 _ _ failingCaller_enters "x"

end FormLang
