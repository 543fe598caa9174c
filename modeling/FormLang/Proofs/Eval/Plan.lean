import FormLang.Eval.Basic

/-!
# What a step can do

Everything that later proofs know about the forms of the language, so that none of them has to look into `step` again.

* The forms run their parts one after another up to the first failure (`andThen`).
* The shape of an expression decides what is left to do (`Plan.of`): give an answer, look up a name, evaluate a condition
  and a branch, make a function, fill a format text, or apply a head to operands. `step_eq_run`: a step does just that.
* A call either runs the body of a function or answers at once (`call_cases`).
-/

namespace FormLang

/-! ## Machines -/

namespace Machine

variable (m : Machine)

@[simp] theorem heap_enter : m.enter.heap = m.heap := rfl
@[simp] theorem heap_leave : m.leave.heap = m.heap := rfl
@[simp] theorem heap_countCall : m.countCall.heap = m.heap := rfl
@[simp] theorem heap_openScope (s : ScopeId) : (m.openScope s).heap = m.heap.push (some s) := rfl
@[simp] theorem heap_closeScope : m.closeScope.heap = m.heap.pop := rfl
@[simp] theorem heap_bindPairs (s : ScopeId) (pairs : List (String × Value)) :
    (m.bindPairs s pairs).heap = m.heap.bindPairs s pairs := rfl
@[simp] theorem counters_enter : m.enter.counters = m.counters.enter := rfl
@[simp] theorem counters_leave : m.leave.counters = m.counters.leave := rfl
@[simp] theorem counters_countCall : m.countCall.counters = m.counters.call := rfl
@[simp] theorem counters_openScope (s : ScopeId) : (m.openScope s).counters = m.counters := rfl
@[simp] theorem counters_closeScope : m.closeScope.counters = m.counters := rfl
@[simp] theorem counters_bindPairs (s : ScopeId) (pairs : List (String × Value)) :
    (m.bindPairs s pairs).counters = m.counters := rfl
@[simp] theorem trace_enter : m.enter.trace = m.trace := rfl
@[simp] theorem trace_leave : m.leave.trace = m.trace := rfl
@[simp] theorem trace_countCall : m.countCall.trace = m.trace := rfl
@[simp] theorem trace_openScope (s : ScopeId) : (m.openScope s).trace = m.trace := rfl
@[simp] theorem trace_closeScope : m.closeScope.trace = m.trace := rfl
@[simp] theorem trace_bindPairs (s : ScopeId) (pairs : List (String × Value)) :
    (m.bindPairs s pairs).trace = m.trace := rfl

@[simp] theorem heap_emit (e : Event) : (m.emit e).heap = m.heap := by
  unfold emit
  split <;> rfl

@[simp] theorem counters_emit (e : Event) : (m.emit e).counters = m.counters := by
  unfold emit
  split <;> rfl

/-- The function that the next definition makes. -/
def nextFunction (d : Definition) : Function :=
  (m.heap.makeFunction d.name d.params d.body).1

/-- The machine after a function is made and bound to its name. -/
def defineIn (d : Definition) (s : ScopeId) : Machine :=
  let heap := (m.heap.makeFunction d.name d.params d.body).2
  { m with heap := heap.bindPairs s [(d.name, .function (m.nextFunction d))] }

@[simp] theorem counters_defineIn (d : Definition) (s : ScopeId) : (m.defineIn d s).counters = m.counters := rfl
@[simp] theorem trace_defineIn (d : Definition) (s : ScopeId) : (m.defineIn d s).trace = m.trace := rfl

end Machine

@[simp] theorem Counters.depth_enter (c : Counters) : c.enter.depth = c.depth + 1 := rfl
@[simp] theorem Counters.depth_leave (c : Counters) : c.leave.depth = c.depth - 1 := rfl
@[simp] theorem Counters.depth_call (c : Counters) : c.call.depth = c.depth := rfl

namespace Eval

/-! ## One after another -/

/-- Goes on with the value of the first part, or ends with its failure. -/
def andThen {α β : Type} (x : Machine × Except EvalError α) (next : Machine → α → Machine × Except EvalError β) :
    Machine × Except EvalError β :=
  match x with
  | (m, .ok v) => next m v
  | (m, .error err) => (m, .error err)

section equations

variable (b : Binding) (rec : Evaluator) (m : Machine) (s : ScopeId)

theorem operands_cons (done : List Value) (e : Expr) (rest : List Expr) :
    operands rec s m done (e :: rest) =
      andThen (inChild rec m e s) fun m v => operands rec s m (v :: done) rest := by
  rw [operands]
  rcases inChild rec m e s with ⟨m, err | v⟩ <;> rfl

theorem conditional_three (cond yes no : Expr) :
    conditional rec m [cond, yes, no] s =
      andThen (inChild rec m cond s) fun m v => inChild rec m (if v.truthy then yes else no) s := by
  rw [conditional]
  rcases inChild rec m cond s with ⟨m, err | v⟩ <;> rfl

/-- Evaluates the head and then the operands of a form. -/
def parts (head : Expr) (ops : List Expr) : Machine × Except EvalError (Value × List Value) :=
  andThen (inChild rec m head s) fun m v => andThen (operands rec s m [] ops) fun m args => (m, .ok (v, args))

theorem application_eq (head : Expr) (ops : List Expr) :
    application b rec m head ops s =
      andThen (parts rec m s head ops) fun m p => call b rec m head p.1 p.2 s := by
  rw [application, parts]
  rcases inChild rec m head s with ⟨m, err | v⟩
  · rfl
  · simp only [andThen]
    rcases operands rec s m [] ops with ⟨m, err | args⟩ <;> rfl

end equations

/-! ## What an expression asks for -/

/-- What is left to do for an expression once its shape is known. -/
inductive Plan where
  | answer (r : Outcome)
  | look (name : String)
  | branch (cond yes no : Expr)
  | define (d : Definition)
  | fill (words : List String) (arg : Expr)
  | apply (head : Expr) (ops : List Expr)

namespace Plan

def ofIf : List Expr → Plan
  | [cond, yes, no] => .branch cond yes no
  | ops => .answer (.error (.ifOperands ops.length))

def ofDefun (ops : List Expr) : Plan :=
  match Definition.ofOperands ops with
  | .error err => .answer (.error err)
  | .ok d => .define d

def ofFormat : List Expr → Plan
  | [] => .answer (.error .formatDestination)
  | _ :: ops =>
    match FormatText.split ops with
    | .error err => .answer (.error err)
    | .ok (words, []) => .answer (.ok (.str (FormatText.fill words "")))
    | .ok (words, [arg]) => .fill words arg
    | .ok (_, rest) => .answer (.error (.formatArguments rest.length))

def of : Expr → Plan
  | .int n => .answer (.ok (.int n))
  | .float f => .answer (.ok (.float f))
  | .symbol name => .look name
  | .list [] => .answer (.error .emptyForm)
  | .list (head :: ops) =>
    match Keyword.ofHead? head with
    | some .conditional => ofIf ops
    | some .define => ofDefun ops
    | some .format => ofFormat ops
    | none => .apply head ops
  | .hole => .answer (.error .hole)

def run (b : Binding) (rec : Evaluator) (m : Machine) (s : ScopeId) : Plan → Machine × Outcome
  | .answer r => (m, r)
  | .look name => (m, m.heap.find s name)
  | .branch cond yes no =>
    andThen (inChild rec m cond s) fun m v => inChild rec m (if v.truthy then yes else no) s
  | .define d =>
    ((m.defineIn d s).emit (.defined d.name d.params), .ok (.str ("Defined " ++ Text.upper d.name)))
  | .fill words arg =>
    andThen (inChild rec m arg s) fun m v => (m, .ok (.str (FormatText.fill words v.text)))
  | .apply head ops => application b rec m head ops s

end Plan

/-! ## Which expressions define and which apply -/

theorem Keyword.ofHead?_eq_none_iff (head : Expr) :
    Keyword.ofHead? head = none ↔ head ≠ .symbol "if" ∧ head ≠ .symbol "defun" ∧ head ≠ .symbol "format" := by
  cases head with
  | symbol name =>
    simp only [Keyword.ofHead?, ne_eq, Expr.symbol.injEq]
    by_cases hif : name = "if"
    · simp [hif]
    · by_cases hdefun : name = "defun"
      · simp [hdefun]
      · by_cases hformat : name = "format" <;> simp [hif, hdefun, hformat]
  | _ => simp [Keyword.ofHead?]

theorem Keyword.ofHead?_eq_define_iff (head : Expr) :
    Keyword.ofHead? head = some .define ↔ head = .symbol "defun" := by
  cases head with
  | symbol name =>
    simp only [Keyword.ofHead?, Expr.symbol.injEq]
    by_cases hif : name = "if"
    · simp [hif]
    · by_cases hdefun : name = "defun"
      · simp [hdefun]
      · by_cases hformat : name = "format" <;> simp [hif, hdefun, hformat]
  | _ => simp [Keyword.ofHead?]

end Eval

namespace Definition

/-- The form that writes a definition. -/
def form (d : Definition) : Expr :=
  .list [.symbol "defun", .symbol d.name, .list (d.params.map .symbol), d.body]

theorem paramsFrom_eq_ok_iff (name : String) (seen : List String) (items : List Expr) (ps : List String) :
    paramsFrom name seen items = .ok ps ↔
      ∃ qs, items = qs.map .symbol ∧ ps = seen.reverse ++ qs ∧ qs.Nodup ∧ ∀ q ∈ qs, q ∉ seen := by
  induction items generalizing seen with
  | nil =>
    constructor
    · intro h
      cases h
      exact ⟨[], by simp⟩
    · rintro ⟨qs, hitems, rfl, -, -⟩
      have hqs : qs = [] := by simpa using hitems.symm
      simp [paramsFrom, hqs]
  | cons item rest ih =>
    cases item with
    | symbol p =>
      rw [paramsFrom]
      by_cases hp : p ∈ seen
      · rw [if_pos (by simpa using hp)]
        refine ⟨fun h => (by cases h), ?_⟩
        rintro ⟨qs, hitems, -, -, hnew⟩
        obtain ⟨q, qs, rfl⟩ : ∃ q qs', qs = q :: qs' := by
          cases qs with
          | nil => simp at hitems
          | cons q qs => exact ⟨q, qs, rfl⟩
        have hq : p = q := by simpa using (List.cons.inj hitems).1
        exact absurd (hq ▸ hp) (hnew q (by simp))
      · rw [if_neg (by simpa using hp), ih]
        constructor
        · rintro ⟨qs, rfl, rfl, hnodup, hnew⟩
          refine ⟨p :: qs, rfl, by simp, ?_, ?_⟩
          · exact List.nodup_cons.mpr ⟨fun h => hnew p h (by simp), hnodup⟩
          · intro q hq
            rcases List.mem_cons.mp hq with rfl | hq
            · exact hp
            · exact fun h => hnew q hq (by simp [h])
        · rintro ⟨qs, hitems, rfl, hnodup, hnew⟩
          cases qs with
          | nil => simp at hitems
          | cons q qs =>
            simp only [List.map_cons, List.cons.injEq, Expr.symbol.injEq] at hitems
            obtain ⟨rfl, hrest⟩ := hitems
            obtain ⟨hq, hnodup⟩ := List.nodup_cons.mp hnodup
            refine ⟨qs, hrest, by simp, hnodup, fun r hr => ?_⟩
            intro hmem
            rcases List.mem_cons.mp hmem with rfl | hmem
            · exact hq hr
            · exact hnew r (by simp [hr]) hmem
    | _ =>
      refine ⟨fun h => (by cases h), ?_⟩
      rintro ⟨qs, hitems, -⟩
      cases qs <;> simp at hitems

/-- Operands make a definition exactly if they are a symbol, a list of different symbols and a body. -/
theorem ofOperands_eq_ok_iff (ops : List Expr) (d : Definition) :
    ofOperands ops = .ok d ↔
      ops = [.symbol d.name, .list (d.params.map .symbol), d.body] ∧ d.params.Nodup := by
  unfold ofOperands
  split
  · rename_i name params body
    cases hps : paramsFrom name [] params with
    | error err =>
      refine ⟨fun h => (by cases h), ?_⟩
      rintro ⟨hops, hnodup⟩
      simp only [List.cons.injEq, Expr.symbol.injEq, Expr.list.injEq] at hops
      have hok := (paramsFrom_eq_ok_iff name [] params d.params).mpr
        ⟨d.params, hops.2.1, by simp, hnodup, by simp⟩
      rw [hps] at hok
      cases hok
    | ok ps =>
      obtain ⟨qs, rfl, hqs, hnodup, -⟩ := (paramsFrom_eq_ok_iff name [] params ps).mp hps
      have hps : ps = qs := by simpa using hqs
      subst hps
      constructor
      · intro h
        cases h
        exact ⟨rfl, hnodup⟩
      · rintro ⟨hops, -⟩
        simp only [List.cons.injEq, Expr.symbol.injEq, Expr.list.injEq, and_true] at hops
        obtain ⟨rfl, hparams, rfl⟩ := hops
        have hinj : ps = d.params := (List.map_inj_right fun _ _ h => Expr.symbol.inj h).mp hparams
        rw [hinj]
  all_goals
    refine ⟨fun h => (by cases h), ?_⟩
    rintro ⟨hops, -⟩
    simp_all

end Definition

namespace Eval

namespace Plan

theorem ofIf_ne_define (ops : List Expr) (d : Definition) : ofIf ops ≠ .define d := by
  unfold ofIf
  split <;> simp

theorem ofIf_ne_apply (ops : List Expr) (head : Expr) (rest : List Expr) : ofIf ops ≠ .apply head rest := by
  unfold ofIf
  split <;> simp

theorem ofFormat_ne_define (ops : List Expr) (d : Definition) : ofFormat ops ≠ .define d := by
  unfold ofFormat
  split
  · simp
  · split <;> simp

theorem ofFormat_ne_apply (ops : List Expr) (head : Expr) (rest : List Expr) : ofFormat ops ≠ .apply head rest := by
  unfold ofFormat
  split
  · simp
  · split <;> simp

theorem ofDefun_eq_define_iff (ops : List Expr) (d : Definition) :
    ofDefun ops = .define d ↔ Definition.ofOperands ops = .ok d := by
  unfold ofDefun
  cases Definition.ofOperands ops <;> simp

theorem ofDefun_ne_apply (ops : List Expr) (head : Expr) (rest : List Expr) : ofDefun ops ≠ .apply head rest := by
  unfold ofDefun
  split <;> simp

/-- An expression defines exactly if it is the form of a definition with different parameters. -/
theorem of_eq_define_iff (e : Expr) (d : Definition) : of e = .define d ↔ e = d.form ∧ d.params.Nodup := by
  match e with
  | .int _ | .float _ | .symbol _ | .list [] | .hole => simp [of, Definition.form]
  | .list (head :: ops) =>
    have hform : (Expr.list (head :: ops) = d.form) ↔ Keyword.ofHead? head = some .define ∧
        ops = [.symbol d.name, .list (d.params.map .symbol), d.body] := by
      rw [Definition.form, Expr.list.injEq, List.cons.injEq, Keyword.ofHead?_eq_define_iff]
    rw [hform, of]
    rcases Keyword.ofHead? head with _ | _ | _ | _
    · simp
    · simp [ofIf_ne_define]
    · simp only [ofDefun_eq_define_iff, Definition.ofOperands_eq_ok_iff, true_and]
    · simp [ofFormat_ne_define]

/-- An expression applies its head exactly if the head is no keyword. -/
theorem of_eq_apply_iff (e head : Expr) (ops : List Expr) :
    of e = .apply head ops ↔ e = .list (head :: ops) ∧ Keyword.ofHead? head = none := by
  match e with
  | .int _ | .float _ | .symbol _ | .list [] | .hole => simp [of]
  | .list (head' :: ops') =>
    simp only [of, Expr.list.injEq, List.cons.injEq]
    rcases hkey : Keyword.ofHead? head' with _ | _ | _ | _
    · simp only [apply.injEq]
      constructor
      · rintro ⟨rfl, rfl⟩
        exact ⟨⟨rfl, rfl⟩, hkey⟩
      · exact fun h => h.1
    · simp only [ofIf_ne_apply, false_iff]
      rintro ⟨⟨rfl, rfl⟩, hnone⟩
      simp [hkey] at hnone
    · simp only [ofDefun_ne_apply, false_iff]
      rintro ⟨⟨rfl, rfl⟩, hnone⟩
      simp [hkey] at hnone
    · simp only [ofFormat_ne_apply, false_iff]
      rintro ⟨⟨rfl, rfl⟩, hnone⟩
      simp [hkey] at hnone

end Plan

section plan

variable (b : Binding) (rec : Evaluator) (m : Machine) (s : ScopeId)

theorem conditional_eq_run (ops : List Expr) :
    conditional rec m ops s = (Plan.ofIf ops).run b rec m s := by
  unfold Plan.ofIf
  split
  · exact conditional_three rec m s _ _ _
  · rename_i hne
    unfold conditional
    split
    · exact absurd rfl (hne _ _ _)
    · rfl

theorem define_eq_run (ops : List Expr) : define m ops s = (Plan.ofDefun ops).run b rec m s := by
  unfold define Plan.ofDefun
  cases Definition.ofOperands ops <;> rfl

theorem format_eq_run (ops : List Expr) : format rec m ops s = (Plan.ofFormat ops).run b rec m s := by
  cases ops with
  | nil => rfl
  | cons dest ops =>
    unfold format Plan.ofFormat
    simp only
    rcases FormatText.split ops with err | ⟨words, _ | ⟨arg, _ | ⟨more, rest⟩⟩⟩
    · rfl
    · rfl
    · simp only [Plan.run]
      rcases inChild rec m arg s with ⟨m, err | v⟩ <;> rfl
    · rfl

/-- **A step carries out the plan of its expression.** -/
theorem step_eq_run (e : Expr) : step b rec m e s = (Plan.of e).run b rec m s := by
  match e with
  | .int n => rfl
  | .float f => rfl
  | .symbol name => rfl
  | .list [] => rfl
  | .hole => rfl
  | .list (head :: ops) =>
    simp only [step, form, Plan.of]
    rcases Keyword.ofHead? head with _ | _ | _ | _
    · rfl
    · exact conditional_eq_run b rec m s ops
    · exact define_eq_run b rec m s ops
    · exact format_eq_run b rec m s ops

end plan

/-! ## Calls -/

/-- The machine when the body of a function begins. -/
def beginCall (m : Machine) (f : Function) (args : List Value) (s : ScopeId) : Machine :=
  ((m.bindPairs s (f.params.zip args)).countCall).emit (.callStart f.name m.counters.depth)

/-- Reports that the body of a function has ended. -/
def endCall (f : Function) (x : Machine × Outcome) : Machine × Outcome :=
  (x.1.emit (.callEnd f.name x.1.counters.depth), x.2)

theorem enterBody_eq (rec : Evaluator) (m : Machine) (f : Function) (args : List Value) (s : ScopeId) :
    enterBody rec m f args s = endCall f (inChild rec (beginCall m f args s) f.body s) := rfl

theorem call_caller (rec : Evaluator) (m : Machine) (head : Expr) {f : Function} {args : List Value} {s : ScopeId}
    (hlen : args.length = f.params.length) :
    call .caller rec m head (.function f) args s = enterBody rec m f args s := by
  simp [call, callFunction, hlen]

theorem call_fresh (rec : Evaluator) (m : Machine) (head : Expr) {f : Function} {args : List Value} {s : ScopeId}
    (hlen : args.length = f.params.length) :
    call .fresh rec m head (.function f) args s =
      ((enterBody rec (m.openScope s) f args m.heap.size).1.closeScope,
        (enterBody rec (m.openScope s) f args m.heap.size).2) := by
  simp [call, callFunction, hlen]

/-- The outcome of an operation, with the errors that a call makes of its faults. -/
def builtinOutcome (c : Builtin) (args : List Value) : Outcome :=
  match c.operation.apply args with
  | .ok v => .ok v
  | .error (.bare message) => .error (.refused c.name message)
  | .error f => .error (.fault f)

theorem callBuiltin_eq (m : Machine) (c : Builtin) {args : List Value} (htakes : c.takes args.length = true) :
    callBuiltin m c args = (m.countCall, builtinOutcome c args) := by
  simp only [callBuiltin, builtinOutcome, htakes, if_true]
  rcases c.operation.apply args with f | v
  · cases f <;> rfl
  · rfl

theorem builtinOutcome_of_ok {c : Builtin} {args : List Value} {v : Value} (h : c.operation.apply args = .ok v) :
    builtinOutcome c args = .ok v := by
  rw [builtinOutcome, h]

theorem builtinOutcome_of_error {c : Builtin} {args : List Value} {f : Fault} (hf : ∀ message, f ≠ .bare message)
    (h : c.operation.apply args = .error f) : builtinOutcome c args = .error (.fault f) := by
  rw [builtinOutcome, h]
  cases f with
  | bare message => exact absurd rfl (hf message)
  | _ => rfl

theorem apply_of_builtinOutcome {c : Builtin} {args : List Value} {v : Value} (h : builtinOutcome c args = .ok v) :
    c.operation.apply args = .ok v := by
  unfold builtinOutcome at h
  split at h
  · rename_i heq
    cases h
    exact heq
  · cases h
  · cases h

theorem builtinOutcome_ne_tooDeep (c : Builtin) (args : List Value) (limit : Nat) :
    builtinOutcome c args ≠ .error (.tooDeep limit) := by
  unfold builtinOutcome
  split <;> simp

/-- A call runs the body of a function that was given as many arguments as it has parameters. Anything else is answered at
once, by the head itself or by an operation, and takes no depth. -/
theorem call_cases (head : Expr) (v : Value) (args : List Value) :
    (∃ f, v = .function f ∧ args.length = f.params.length) ∨
    (∃ r : Outcome, (∀ b rec m s, call b rec m head v args s = (m, r)) ∧ (∀ limit, r ≠ .error (.tooDeep limit)) ∧
      ∀ w, r = .ok w → w = v) ∨
    (∃ (c : Builtin) (r : Outcome), v = .builtin c ∧ (∀ b rec m s, call b rec m head v args s = (m.countCall, r)) ∧
      (∀ limit, r ≠ .error (.tooDeep limit)) ∧ ∀ w, r = .ok w → c.operation.apply args = .ok w) := by
  cases v with
  | function f =>
    by_cases hlen : args.length = f.params.length
    · exact .inl ⟨f, rfl, hlen⟩
    · refine .inr (.inl ⟨.error (.arity f.name f.params.length args.length), ?_, by simp, by simp⟩)
      intro b rec m s
      simp [call, callFunction, hlen]
  | builtin c =>
    by_cases htakes : c.takes args.length
    · exact .inr (.inr ⟨c, builtinOutcome c args, rfl, fun _ _ m _ => callBuiltin_eq m c htakes,
        builtinOutcome_ne_tooDeep c args, fun _ hw => apply_of_builtinOutcome hw⟩)
    · refine .inr (.inl ⟨.error (.arity c.name (c.expected args.length) args.length), ?_, by simp, by simp⟩)
      intro b rec m s
      simp [call, callBuiltin, htakes]
  | int n => cases args <;> exact .inr (.inl ⟨_, fun _ _ _ _ => rfl, by simp, by simp⟩)
  | float f => cases args <;> exact .inr (.inl ⟨_, fun _ _ _ _ => rfl, by simp, by simp⟩)
  | negativeNaN => cases args <;> exact .inr (.inl ⟨_, fun _ _ _ _ => rfl, by simp, by simp⟩)
  | str t => exact .inr (.inl ⟨_, fun _ _ _ _ => rfl, by simp, by simp⟩)
  | bool t => exact .inr (.inl ⟨_, fun _ _ _ _ => rfl, by simp, by simp⟩)
  | void => exact .inr (.inl ⟨_, fun _ _ _ _ => rfl, by simp, by simp⟩)

end Eval

end FormLang
