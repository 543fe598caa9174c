import FormLang.Proofs.Builtin.Faults
import FormLang.Proofs.Builtin.Result
import FormLang.Proofs.Eval.Simulation
import FormLang.Proofs.Eval.Vocabulary

/-!
# Invariants of evaluation

A law says what is to be true of all values, expressions and errors (`Law`). Evaluation keeps it if a few conditions hold that
are about single steps (`Law.Kept`): the items of a list keep it, a definition makes a function that keeps it, and so on. The
invariant is about the values in all scopes, the outcome and the error at once (`Sound`), since each of them depends on the
others. It passes through every construct, and by induction on the room through whole evaluations (`Law.Kept.evalTop`).
-/

namespace FormLang

/-! ## Values in all scopes -/

theorem Bindings.mem_insert {b : Bindings} {x : String} {v : Value} {p : String × Value} (h : p ∈ b.insert x v) :
    p = (x, v) ∨ p ∈ b := by
  induction b with
  | nil => exact .inl (List.mem_singleton.mp h)
  | cons q rest ih =>
    rw [Bindings.insert] at h
    split at h
    · rcases List.mem_cons.mp h with h | h
      · exact .inl h
      · exact .inr (List.mem_cons_of_mem _ h)
    · rcases List.mem_cons.mp h with h | h
      · exact .inr (h ▸ List.mem_cons_self)
      · exact (ih h).imp_right (List.mem_cons_of_mem _)

theorem Bindings.mem_insertAll {b : Bindings} {pairs : List (String × Value)} {p : String × Value}
    (h : p ∈ b.insertAll pairs) : p ∈ pairs ∨ p ∈ b := by
  induction pairs generalizing b with
  | nil => exact .inr h
  | cons q rest ih =>
    rcases ih (b := b.insert q.1 q.2) h with h | h
    · exact .inl (List.mem_cons_of_mem _ h)
    · rcases Bindings.mem_insert h with rfl | h
      · exact .inl List.mem_cons_self
      · exact .inr h

/-- Every value in every scope is of this kind. -/
def Heap.Holds (V : Value → Prop) (h : Heap) : Prop :=
  ∀ (t : Nat) (sc : Scope), h.scopes[t]? = some sc → ∀ p ∈ sc.bindings, V p.2

namespace Heap.Holds

variable {V : Value → Prop}

theorem empty : Heap.empty.Holds V := by
  intro t sc hsc
  cases hsc

variable {h : Heap} (hholds : h.Holds V)

include hholds

theorem push (o : Option ScopeId) : (h.push o).Holds V := by
  intro t sc hsc p hp
  rw [Heap.push, Array.getElem?_push] at hsc
  split at hsc
  · cases hsc
    cases hp
  · exact hholds t sc hsc p hp

theorem pop : h.pop.Holds V := by
  intro t sc hsc
  rw [Heap.pop, Array.getElem?_pop] at hsc
  split at hsc
  · exact hholds t sc hsc
  · cases hsc

theorem bindPairs (s : ScopeId) {pairs : List (String × Value)} (hpairs : ∀ p ∈ pairs, V p.2) :
    (h.bindPairs s pairs).Holds V := by
  intro t sc hsc p hp
  rw [scopes_bindPairs] at hsc
  split at hsc
  · obtain ⟨sc', hsc', rfl⟩ := Option.map_eq_some_iff.mp hsc
    rcases Bindings.mem_insertAll hp with hp | hp
    · exact hpairs p hp
    · exact hholds t sc' hsc' p hp
  · exact hholds t sc hsc p hp

theorem of_lookupFrom {name : String} {n s : Nat} {v : Value} (hv : lookupFrom h.scopes name n s = some v) : V v := by
  induction n generalizing s with
  | zero => cases hv
  | succ n ih =>
    rw [lookupFrom] at hv
    split at hv
    · cases hv
    · rename_i sc hsc
      split at hv
      · rename_i w hlookup
        cases hv
        exact hholds s sc hsc _ (mem_of_lookup_eq_some hlookup)
      · split at hv
        · exact ih hv
        · cases hv

end Heap.Holds

/-! ## Answers given at once -/

theorem Definition.code_of_paramsFrom {name : String} {seen : List String} {items : List Expr} {err : EvalError}
    (h : paramsFrom name seen items = .error err) : err.code = .form := by
  induction items generalizing seen with
  | nil => cases h
  | cons item rest ih =>
    cases item with
    | symbol p =>
      rw [paramsFrom] at h
      split at h
      · cases h
        rfl
      · exact ih h
    | _ =>
      cases h
      rfl

theorem Definition.code_of_ofOperands {ops : List Expr} {err : EvalError} (h : ofOperands ops = .error err) :
    err.code = .form := by
  unfold ofOperands at h
  split at h
  · split at h
    · cases h
    · rename_i hparams
      cases h
      exact code_of_paramsFrom hparams
  all_goals
    cases h
    rfl

theorem FormatText.code_of_gather {isFirst : Bool} {done : List String} {ops : List Expr} {err : EvalError}
    (h : gather isFirst done ops = .error err) : err.code = .form := by
  induction ops generalizing isFirst done with
  | nil =>
    cases h
    rfl
  | cons op ops ih =>
    rw [gather] at h
    split at h
    · cases h
    · exact ih h

theorem FormatText.code_of_split {ops : List Expr} {err : EvalError} (h : split ops = .error err) : err.code = .form := by
  cases ops with
  | nil => cases h
  | cons op ops =>
    rw [split] at h
    split at h
    · exact code_of_gather h
    · split at h
      · cases h
        rfl
      · cases h

/-- The codes of the errors that the language raises itself, apart from the one for a depth that is used up. -/
def EvalError.ordinaryCodes : List Code :=
  [.name, .arity, .arithmetic, .notCallable, .type, .form]

/-- An error of the language itself, other than that the depth is used up. -/
def EvalError.Ordinary (err : EvalError) : Prop :=
  err.code ∈ ordinaryCodes

theorem EvalError.Ordinary.of {err : EvalError} (c : Code) (h : err.code = c) (hc : c ∈ ordinaryCodes) : err.Ordinary := by
  rw [Ordinary, h]
  exact hc

theorem EvalError.Ordinary.code_ne_resource {err : EvalError} (h : err.Ordinary) : err.code ≠ .resource := by
  have hnot : Code.resource ∉ ordinaryCodes := by decide
  exact fun hcode => hnot (hcode ▸ h)

namespace Eval

namespace Plan

/-- The expressions that a plan may evaluate. -/
def exprs : Plan → List Expr
  | .answer _ | .look _ | .define _ => []
  | .branch cond yes no => [cond, yes, no]
  | .fill _ arg => [arg]
  | .apply head ops => head :: ops

theorem mem_of_mem_exprs_ofIf {ops : List Expr} {x : Expr} (h : x ∈ (ofIf ops).exprs) : x ∈ ops := by
  unfold ofIf at h
  split at h
  · exact h
  · cases h

theorem exprs_ofDefun (ops : List Expr) : (ofDefun ops).exprs = [] := by
  unfold ofDefun
  split <;> rfl

theorem mem_of_mem_exprs_ofFormat {ops : List Expr} {x : Expr} (h : x ∈ (ofFormat ops).exprs) : x ∈ ops := by
  cases ops with
  | nil => cases h
  | cons dest ops =>
    rw [ofFormat] at h
    split at h
    · cases h
    · cases h
    · rename_i words arg hsplit
      rw [List.mem_singleton.mp h]
      exact List.mem_cons_of_mem _ (FormatText.mem_of_split hsplit arg List.mem_cons_self)
    · cases h

/-- Only items of a list are evaluated for it. -/
theorem mem_items_of_mem_exprs {e x : Expr} (h : x ∈ (of e).exprs) : ∃ items, e = .list items ∧ x ∈ items := by
  match e with
  | .int _ | .float _ | .symbol _ | .list [] | .hole => cases h
  | .list (head :: ops) =>
    refine ⟨head :: ops, rfl, ?_⟩
    revert h
    rw [of]
    rcases Keyword.ofHead? head with _ | _ | _ | _ <;> intro h
    · exact h
    · exact List.mem_cons_of_mem _ (mem_of_mem_exprs_ofIf h)
    · rw [exprs_ofDefun] at h
      cases h
    · exact List.mem_cons_of_mem _ (mem_of_mem_exprs_ofFormat h)

/-- An answer that an expression may have at once: a number or a text, or an error of the language, or that it is a hole. -/
def Immediate (e : Expr) : Outcome → Prop
  | .ok v => v.isNumber = true ∨ ∃ text, v = .str text
  | .error err => err.Ordinary ∨ (e = .hole ∧ err = .hole)

theorem immediate_ofIf {e : Expr} {ops : List Expr} {r : Outcome} (h : ofIf ops = .answer r) : Immediate e r := by
  unfold ofIf at h
  split at h
  · cases h
  · cases h
    exact .inl (.of .arity rfl (by decide))

theorem immediate_ofDefun {e : Expr} {ops : List Expr} {r : Outcome} (h : ofDefun ops = .answer r) : Immediate e r := by
  unfold ofDefun at h
  split at h
  · rename_i hoperands
    cases h
    exact .inl (.of .form (Definition.code_of_ofOperands hoperands) (by decide))
  · cases h

theorem immediate_ofFormat {e : Expr} {ops : List Expr} {r : Outcome} (h : ofFormat ops = .answer r) : Immediate e r := by
  cases ops with
  | nil =>
    cases h
    exact .inl (.of .arity rfl (by decide))
  | cons dest ops =>
    rw [ofFormat] at h
    split at h
    · rename_i hsplit
      cases h
      exact .inl (.of .form (FormatText.code_of_split hsplit) (by decide))
    · cases h
      exact .inr ⟨_, rfl⟩
    · cases h
    · cases h
      exact .inl (.of .arity rfl (by decide))

theorem immediate_of {e : Expr} {r : Outcome} (h : of e = .answer r) : Immediate e r := by
  match e with
  | .int _ | .float _ =>
    cases h
    exact .inl rfl
  | .symbol _ => cases h
  | .hole =>
    cases h
    exact .inr ⟨rfl, rfl⟩
  | .list [] =>
    cases h
    exact .inl (.of .notCallable rfl (by decide))
  | .list (head :: ops) =>
    revert h
    rw [of]
    rcases Keyword.ofHead? head with _ | _ | _ | _ <;> intro h
    · cases h
    · exact immediate_ofIf h
    · exact immediate_ofDefun h
    · exact immediate_ofFormat h

end Plan

end Eval

namespace Eval.Plan

/-- The text is one that a plan makes, where an argument has a value of this kind. -/
def Makes (V : Value → Prop) (text : String) : Plan → Prop
  | .answer r => r = .ok (.str text)
  | .define d => text = "Defined " ++ Text.upper d.name
  | .fill words _ => ∃ v, V v ∧ text = FormatText.fill words v.text
  | .look _ | .branch _ _ _ | .apply _ _ => False

end Eval.Plan

/-! ## Laws -/

/-- What is to be true of all values, expressions and errors. -/
structure Law where
  value : Value → Prop
  expr : Expr → Prop
  error : EvalError → Prop

/-- Single steps of evaluation under this depth limit keep the law. -/
structure Law.Kept (L : Law) (limit : Nat) : Prop where
  item : ∀ {items e}, L.expr (.list items) → e ∈ items → L.expr e
  number : ∀ {v}, v.isNumber = true → L.value v
  str : ∀ {e text}, L.expr e → (Eval.Plan.of e).Makes L.value text → L.value (.str text)
  /-- A definition makes a function that keeps the law. -/
  define : ∀ {e d}, L.expr e → Eval.Plan.of e = .define d → ∀ m : Machine, L.value (.function (m.nextFunction d))
  body : ∀ {f}, L.value (.function f) → L.expr f.body
  builtin : ∀ {c}, L.value (.builtin c) → c.isSound = true
  ordinary : ∀ {err}, err.Ordinary → L.error err
  hole : L.expr .hole → L.error .hole
  tooDeep : L.error (.tooDeep limit)

namespace Eval

/-- What a plan evaluates, answers and makes keeps the law. -/
structure Plan.Lawful (L : Law) (p : Plan) : Prop where
  exprs : ∀ x ∈ p.exprs, L.expr x
  value : ∀ v, p = .answer (.ok v) → L.value v
  text : ∀ text, p.Makes L.value text → L.value (.str text)
  error : ∀ err, p = .answer (.error err) → L.error err
  define : ∀ d, p = .define d → ∀ m : Machine, L.value (.function (m.nextFunction d))

/-- The heap keeps the law, the outcome is as told, and an error keeps the law. -/
structure Sound (L : Law) {α : Type} (P : α → Prop) (x : Machine × Except EvalError α) : Prop where
  heap : x.1.heap.Holds L.value
  value : ∀ v, x.2 = .ok v → P v
  error : ∀ err, x.2 = .error err → L.error err

def SoundEvaluator (L : Law) (rec : Evaluator) : Prop :=
  ∀ {m : Machine} {e : Expr} (s : ScopeId), m.heap.Holds L.value → L.expr e → Sound L L.value (rec m e s)

variable {L : Law}

namespace Sound

variable {α β : Type} {P : α → Prop} {Q : β → Prop} {m : Machine}

theorem ok (hm : m.heap.Holds L.value) {v : α} (hv : P v) : Sound L P (m, .ok v) := by
  refine ⟨hm, fun w hw => ?_, fun err herr => by cases herr⟩
  cases hw
  exact hv

theorem ofError (hm : m.heap.Holds L.value) {err : EvalError} (herr : L.error err) : Sound L P (m, .error err) := by
  refine ⟨hm, fun w hw => (by cases hw), fun err' herr' => ?_⟩
  cases herr'
  exact herr

/-- What happens to the machine alone does not matter if the heap keeps the law. -/
theorem onMachine {x : Machine × Except EvalError α} (h : Sound L P x) (hm : m.heap.Holds L.value) : Sound L P (m, x.2) :=
  ⟨hm, h.value, h.error⟩

theorem andThen {x : Machine × Except EvalError α} {next : Machine → α → Machine × Except EvalError β} (h : Sound L P x)
    (hnext : ∀ m v, m.heap.Holds L.value → P v → Sound L Q (next m v)) : Sound L Q (andThen x next) := by
  obtain ⟨m, err | v⟩ := x
  · exact ofError h.heap (h.error err rfl)
  · exact hnext m v h.heap (h.value v rfl)

end Sound

/-- A call of a sound built-in fails over types or arithmetic only. -/
theorem ordinary_of_builtinOutcome {c : Builtin} (hc : c.isSound = true) {args : List Value}
    (htakes : c.takes args.length = true) {err : EvalError} (h : builtinOutcome c args = .error err) : err.Ordinary := by
  have hordinary := Builtin.ordinary_apply hc htakes
  unfold builtinOutcome at h
  split at h
  · cases h
  · cases h
    exact .of .arithmetic rfl (by decide)
  · rename_i f _ happly
    cases h
    rcases hordinary f happly with hcode | hcode
    · exact .of .type hcode (by decide)
    · exact .of .arithmetic hcode (by decide)

namespace SoundEvaluator

variable {rec : Evaluator} (hrec : SoundEvaluator L rec) {m : Machine} (hm : m.heap.Holds L.value)

include hrec hm

theorem inChild {e : Expr} (he : L.expr e) (s : ScopeId) : Sound L L.value (inChild rec m e s) := by
  have hchild := hrec m.heap.size (m := m.openScope s) (hm.push (some s)) he
  exact hchild.onMachine hchild.heap.pop

theorem operands {done : List Value} (hdone : ∀ v ∈ done, L.value v) {ops : List Expr} (hops : ∀ e ∈ ops, L.expr e)
    (s : ScopeId) : Sound L (fun args => ∀ v ∈ args, L.value v) (operands rec s m done ops) := by
  induction ops generalizing m done with
  | nil => exact .ok hm fun v hv => hdone v (List.mem_reverse.mp hv)
  | cons e rest ih =>
    rw [List.forall_mem_cons] at hops
    rw [operands_cons]
    exact (hrec.inChild hm hops.1 s).andThen fun m v hm hv => ih hm (List.forall_mem_cons.mpr ⟨hv, hdone⟩) hops.2

theorem parts {head : Expr} (hhead : L.expr head) {ops : List Expr} (hops : ∀ e ∈ ops, L.expr e) (s : ScopeId) :
    Sound L (fun p => L.value p.1 ∧ ∀ v ∈ p.2, L.value v) (parts rec m s head ops) := by
  refine (hrec.inChild hm hhead s).andThen fun m v hm hv => ?_
  have hnil : ∀ w ∈ ([] : List Value), L.value w := fun w hw => by cases hw
  exact (hrec.operands hm hnil hops s).andThen fun m args hm hargs => .ok hm ⟨hv, hargs⟩

theorem enterBody {f : Function} (hbody : L.expr f.body) {args : List Value} (hargs : ∀ v ∈ args, L.value v)
    (s : ScopeId) : Sound L L.value (enterBody rec m f args s) := by
  have hpairs : ∀ p ∈ f.params.zip args, L.value p.2 := fun p hp => hargs p.2 (List.of_mem_zip hp).2
  have hbegin : (beginCall m f args s).heap.Holds L.value := by
    rw [beginCall, Machine.heap_emit]
    exact hm.bindPairs s hpairs
  have hbody := hrec.inChild hbegin hbody s
  rw [enterBody_eq]
  refine hbody.onMachine ?_
  rw [Machine.heap_emit]
  exact hbody.heap

variable {limit : Nat} (hL : L.Kept limit)

include hL

theorem callFunction (b : Binding) {f : Function} (hf : L.value (.function f)) {args : List Value}
    (hargs : ∀ v ∈ args, L.value v) (s : ScopeId) : Sound L L.value (callFunction b rec m f args s) := by
  unfold Eval.callFunction
  split
  · cases b with
    | caller => exact hrec.enterBody hm (hL.body hf) hargs s
    | fresh =>
      have hbody := hrec.enterBody (m := m.openScope s) (hm.push (some s)) (hL.body hf) hargs m.heap.size
      exact hbody.onMachine hbody.heap.pop
  · exact .ofError hm (hL.ordinary (.of .arity rfl (by decide)))

theorem call (b : Binding) (head : Expr) {v : Value} (hv : L.value v) {args : List Value} (hargs : ∀ a ∈ args, L.value a)
    (s : ScopeId) : Sound L L.value (call b rec m head v args s) := by
  have hrefused : Sound L L.value (m, .error (.notCallable v.kind head.flat)) :=
    .ofError hm (hL.ordinary (.of .notCallable rfl (by decide)))
  cases v with
  | function f => exact hrec.callFunction hm hL b hv hargs s
  | builtin c =>
    rw [Eval.call]
    by_cases htakes : c.takes args.length = true
    · rw [callBuiltin_eq m c htakes]
      refine ⟨hm, fun w hw => ?_, fun err herr => hL.ordinary (ordinary_of_builtinOutcome (hL.builtin hv) htakes herr)⟩
      rcases Operation.apply_result (apply_of_builtinOutcome hw) with hmem | hnum
      · exact hargs w hmem
      · exact hL.number hnum
    · rw [callBuiltin, if_neg htakes]
      exact .ofError hm (hL.ordinary (.of .arity rfl (by decide)))
  | int n =>
    cases args with
    | nil => exact .ok hm hv
    | cons a rest => exact hrefused
  | float f =>
    cases args with
    | nil => exact .ok hm hv
    | cons a rest => exact hrefused
  | negativeNaN =>
    cases args with
    | nil => exact .ok hm hv
    | cons a rest => exact hrefused
  | str t => exact hrefused
  | bool t => exact hrefused
  | void => exact hrefused

/-- **One step**: carrying out a plan that keeps the law. -/
theorem run (b : Binding) {p : Plan} (hp : p.Lawful L) (s : ScopeId) : Sound L L.value (p.run b rec m s) := by
  cases p with
  | answer r => exact ⟨hm, fun v hv => hp.value v (congrArg _ hv), fun err herr => hp.error err (congrArg _ herr)⟩
  | look name =>
    rw [Plan.run, Heap.find]
    split
    · rename_i v hget
      exact .ok hm (hm.of_lookupFrom hget)
    · exact .ofError hm (hL.ordinary (.of .name rfl (by decide)))
  | branch cond yes no =>
    refine (hrec.inChild hm (hp.exprs cond (by simp [Plan.exprs])) s).andThen fun m v hm _ => hrec.inChild hm ?_ s
    split
    · exact hp.exprs yes (by simp [Plan.exprs])
    · exact hp.exprs no (by simp [Plan.exprs])
  | define d =>
    refine .ok ?_ (hp.text _ rfl)
    have hfunction : ∀ q ∈ [(d.name, Value.function (m.nextFunction d))], L.value q.2 := by
      intro q hq
      rw [List.mem_singleton.mp hq]
      exact hp.define d rfl m
    rw [Machine.heap_emit]
    exact Heap.Holds.bindPairs (h := (m.heap.makeFunction d.name d.params d.body).2) hm s hfunction
  | fill words arg =>
    exact (hrec.inChild hm (hp.exprs arg (List.mem_singleton_self arg)) s).andThen fun m v hm hv =>
      .ok hm (hp.text _ ⟨v, hv, rfl⟩)
  | apply head ops =>
    rw [Plan.run, application_eq]
    have hops : ∀ e ∈ ops, L.expr e := fun e he => hp.exprs e (List.mem_cons_of_mem _ he)
    exact (hrec.parts hm (hp.exprs head List.mem_cons_self) hops s).andThen fun m q hm hq =>
      hrec.call hm hL b head hq.1 hq.2 s

end SoundEvaluator

end Eval

/-! ## Evaluation -/

namespace Law.Kept

open Eval

variable {L : Law} {limit : Nat} (hL : L.Kept limit)

include hL

theorem lawful_of {e : Expr} (he : L.expr e) : (Plan.of e).Lawful L where
  exprs x hx := by
    obtain ⟨items, rfl, hmem⟩ := Plan.mem_items_of_mem_exprs hx
    exact hL.item he hmem
  value v h := by
    rcases Plan.immediate_of h with hnumber | ⟨text, rfl⟩
    · exact hL.number hnumber
    · exact hL.str he (by rw [h]; rfl)
  text text := hL.str he
  error err h := by
    rcases Plan.immediate_of h with hordinary | ⟨rfl, rfl⟩
    · exact hL.ordinary hordinary
    · exact hL.hole he
  define d h := hL.define he h

theorem within (b : Binding) (room : Nat) : SoundEvaluator L (within b limit room) := by
  induction room with
  | zero =>
    intro m e s hm _
    rw [Eval.within]
    exact Sound.ofError (m := m.enter.leave) hm hL.tooDeep
  | succ room ih =>
    intro m e s hm he
    have hstep := ih.run (m := m.enter) hm hL b (hL.lawful_of he) s
    rw [← step_eq_run] at hstep
    exact hstep.onMachine hstep.heap

/-- **Evaluation keeps a law** that its single steps keep. -/
theorem eval {m : Machine} (hm : m.heap.Holds L.value) {e : Expr} (he : L.expr e) (s : ScopeId) :
    Sound L L.value (eval limit m e s) :=
  hL.within .caller (limit - m.counters.depth) s hm he

theorem evalTop {m : Machine} (hm : m.heap.Holds L.value) {e : Expr} (he : L.expr e) (s : ScopeId) :
    Sound L L.value (evalTop limit m e s) := by
  unfold FormLang.evalTop
  split
  · have hstart : (m.emit (.evalStart e.flat)).heap.Holds L.value := by
      rw [Machine.heap_emit]
      exact hm
    have heval := hL.eval hstart he s
    rcases hresult : FormLang.eval limit (m.emit (.evalStart e.flat)) e s with ⟨m', err | v⟩
    · rw [hresult] at heval
      exact heval.onMachine (by rw [Machine.heap_emit]; exact heval.heap)
    · rw [hresult] at heval
      exact heval.onMachine (by rw [Machine.heap_emit]; exact heval.heap)
  · exact hL.eval hm he s

end Law.Kept

end FormLang
