import FormLang.Proofs.Session.Basic

/-!
# Statements that fail

What a statement leaves in the global scope when it fails. A definition that fails binds nothing, and nor does anything that
fails before a body is entered. Only a call binds first and may fail afterwards: its parameters are bound in the scope of
the caller, which for a statement is the global scope, and they stay bound when the body fails. Earlier definitions under
other names survive every failure (`failing_statement_keeps`); one under the name of a parameter does not
(`not_failing_statement_keeps_all`).
-/

namespace FormLang

/-! ## Definitions do not fail -/

theorem outcome_of_defines {limit : Nat} {m : Machine} {e : Expr} {d : Definition} (h : Defines limit m e d)
    (s : ScopeId) : (eval limit m e s).2 = .ok (.str ("Defined " ++ Text.upper d.name)) := by
  obtain ⟨hroom, hform, hnodup⟩ := h
  have hplan : Eval.Plan.of e = .define d := (Eval.Plan.of_eq_define_iff e d).mpr ⟨hform, hnodup⟩
  rw [eval, evalWith_eq, if_pos hroom, Eval.step_eq_run, hplan]
  rfl

theorem not_defines_of_error {limit : Nat} {m : Machine} {e : Expr} {s : ScopeId} {err : EvalError}
    (h : (eval limit m e s).2 = .error err) : ¬ ∃ d, Defines limit m e d := by
  rintro ⟨d, hd⟩
  rw [outcome_of_defines hd] at h
  cases h

theorem lookup_zip_eq_none {params : List String} {args : List Value} {x : String} (hx : x ∉ params) :
    (params.zip args).reverse.lookup x = none := by
  cases hlookup : (params.zip args).reverse.lookup x with
  | none => rfl
  | some v =>
    have hmem := List.mem_reverse.mp (mem_of_lookup_eq_some hlookup)
    exact absurd (List.of_mem_zip hmem).1 hx

namespace Session

/-! ## Sessions that statements lead to -/

/-- The session after some statements. -/
def after (s : Session) (texts : List String) : Session :=
  texts.foldl (fun s text => (s.evaluate text).1) s

/-- What every statement keeps is kept by all of them. -/
theorem after_induction {P : Session → Prop} (hstep : ∀ s text, P s → P (s.evaluate text).1) {s : Session} (h : P s)
    (texts : List String) : P (s.after texts) := by
  induction texts generalizing s with
  | nil => exact h
  | cons text rest ih => exact ih (hstep s text h)

theorem limit_after (s : Session) (texts : List String) : (s.after texts).limit = s.limit :=
  after_induction (P := fun t => t.limit = s.limit) (fun t text ht => (limit_evaluate t text).trans ht) rfl texts

/-- A statement binds in the global scope what its expression binds there, and leaves no other scope behind. -/
theorem scopes_evaluate {s : Session} {text : String} {e : Expr} (hparse : Expr.parse s.limit (Token.ofText text) = .ok e) :
    (s.evaluate text).1.heap.scopes =
      (s.heap.bindPairs globalScope (Eval.effect .caller (effectiveLimit s.limit) s.machine e globalScope)).scopes := by
  have htop := (evalTop_eq_eval (effectiveLimit s.limit) s.machine e globalScope).2
  rw [evaluate_of_ok hparse, heap, htop, eval]
  exact Eval.scopes_evalWith .caller (effectiveLimit s.limit) s.machine e globalScope

/-- The global scope exists, and all chains of scopes end. -/
def Grounded (s : Session) : Prop :=
  s.heap.Ordered ∧ globalScope < s.heap.size

namespace Grounded

variable {s : Session} (h : s.Grounded)

include h

theorem evaluate (text : String) : (s.evaluate text).1.Grounded := by
  cases hparse : Expr.parse s.limit (Token.ofText text) with
  | error err =>
    rw [evaluate_of_error hparse]
    exact h
  | ok e =>
    have hscopes := scopes_evaluate hparse
    refine ⟨(h.1.bindPairs globalScope _).of_scopes_eq hscopes, ?_⟩
    rw [Heap.size, hscopes, ← Heap.size, Heap.size_bindPairs]
    exact h.2

theorem after (texts : List String) : (s.after texts).Grounded :=
  after_induction (P := Grounded) (fun _ text hs => evaluate hs text) h texts

end Grounded

theorem grounded_global (limit : Int) (runId : String) (tracing : Bool) : (start .global limit runId tracing).Grounded := by
  refine ⟨Heap.ordered_root.bindPairs 0 _, ?_⟩
  have hsize : Heap.global.size = 1 := Heap.size_bindPairs (Heap.empty.push none) 0 _
  rw [heap, start, Machine.start, hsize]
  exact Nat.zero_lt_one

/-! ## Failing statements -/

/-- The statement is itself a call of `f` that gets as far as its body, with these arguments. -/
def Calls (s : Session) (text : String) (f : Function) (args : List Value) : Prop :=
  ∃ e, Expr.parse s.limit (Token.ofText text) = .ok e ∧
    Enters (effectiveLimit s.limit) s.machine e globalScope f args

section failing

variable {s : Session} (h : s.Grounded) {text : String} {p : Problem} (hfail : (s.evaluate text).2 = .error p)

include h in
/-- A call leaves its parameters bound to the arguments. -/
theorem getLocal?_of_calls {f : Function} {args : List Value} (hcalls : s.Calls text f args) (x : String) :
    (s.evaluate text).1.heap.getLocal? globalScope x =
      ((f.params.zip args).reverse.lookup x).or (s.heap.getLocal? globalScope x) := by
  obtain ⟨e, hparse, henters⟩ := hcalls
  have hscopes := scopes_evaluate hparse
  rw [Eval.effect_of_enters henters] at hscopes
  rw [← Heap.getLocal?_bindPairs_self s.heap h.2, Heap.getLocal?, Heap.getLocal?, Heap.bindings, Heap.bindings, hscopes]

include hfail in
/-- What fails otherwise than in the body of a call leaves the global scope as it was. -/
theorem bindings_of_not_calls (hcalls : ¬ ∃ f args, s.Calls text f args) :
    (s.evaluate text).1.heap.bindings globalScope = s.heap.bindings globalScope := by
  cases hparse : Expr.parse s.limit (Token.ofText text) with
  | error err => rw [evaluate_of_error hparse]
  | ok e =>
    have hout := (evalTop_eq_eval (effectiveLimit s.limit) s.machine e globalScope).1
    rw [evaluate_of_ok hparse, hout] at hfail
    have hdefines : ¬ ∃ d, Defines (effectiveLimit s.limit) s.machine e d := by
      cases herr : (eval (effectiveLimit s.limit) s.machine e globalScope).2 with
      | ok v =>
        rw [herr] at hfail
        cases hfail
      | error err => exact not_defines_of_error herr
    have henters : ¬ ∃ f args, Enters (effectiveLimit s.limit) s.machine e globalScope f args := by
      rintro ⟨f, args, henters⟩
      exact hcalls ⟨f, args, e, hparse, henters⟩
    have hscopes := scopes_evaluate hparse
    rw [Eval.effect_eq_nil .caller hdefines fun _ => henters, Heap.scopes_bindPairs_nil] at hscopes
    rw [Heap.bindings, Heap.bindings, hscopes]

end failing

/-- **A failing statement keeps the definitions under all names but the parameters of the function it calls.** In a session
that any statements led to, a further statement fails. What was bound in the global scope stays bound to the same value,
unless the statement is itself a call whose body was entered and the name is one of the parameters; these hold the
arguments. A statement that fails in any other way leaves the global scope exactly as it was. -/
theorem failing_statement_keeps (limit : Int) (runId : String) (tracing : Bool) (texts : List String) (text : String)
    (p : Problem) (hfail : (((start .global limit runId tracing).after texts).evaluate text).2 = .error p) :
    let s := (start .global limit runId tracing).after texts
    let s' := (s.evaluate text).1
    (∀ x v, s.heap.getLocal? globalScope x = some v → (∀ f args, s.Calls text f args → x ∉ f.params) →
      s'.heap.getLocal? globalScope x = some v) ∧
    (∀ f args, s.Calls text f args → ∀ x, s'.heap.getLocal? globalScope x =
      ((f.params.zip args).reverse.lookup x).or (s.heap.getLocal? globalScope x)) ∧
    ((¬ ∃ f args, s.Calls text f args) → s'.heap.bindings globalScope = s.heap.bindings globalScope) := by
  intro s s'
  have hground : s.Grounded := (grounded_global limit runId tracing).after texts
  refine ⟨fun x v hx hparams => ?_, fun f args hcalls => getLocal?_of_calls hground hcalls,
    bindings_of_not_calls hfail⟩
  by_cases hcalls : ∃ f args, s.Calls text f args
  · obtain ⟨f, args, hcalls⟩ := hcalls
    rw [getLocal?_of_calls hground hcalls, lookup_zip_eq_none (hparams f args hcalls), Option.none_or, hx]
  · rw [Heap.getLocal?, bindings_of_not_calls hfail hcalls]
    exact hx

/-! ## A parameter that hides a definition -/

/-- A session with a function `x`, and a function `f` that has a parameter `x` and looks up an unbound name. -/
def shadowing : Session :=
  (fresh 0).after ["(defun x () 1)", "(defun f (x) y)"]

theorem shadowing_fails : (shadowing.evaluate "(f 2)").2 = .error (.eval (.unbound "y")) := by
  rfl

theorem shadowing_calls : shadowing.Calls "(f 2)" ⟨1, "f", ["x"], .symbol "y"⟩ [.int 2] :=
  ⟨.list [.symbol "f", .int 2], by rfl, by decide, _, _, _, _, rfl, ⟨by simp, by simp, by simp⟩, rfl, rfl, rfl⟩

/-- The parameter of a call that fails holds the argument. -/
theorem failing_statement_keeps_shadowing :
    (shadowing.evaluate "(f 2)").2 = .error (.eval (.unbound "y")) ∧
    (shadowing.evaluate "(f 2)").1.heap.getLocal? globalScope "x" = some (.int 2) :=
  ⟨shadowing_fails, (failing_statement_keeps 0 "" false ["(defun x () 1)", "(defun f (x) y)"] "(f 2)" _
    shadowing_fails).2.1 _ _ shadowing_calls "x"⟩

/-- A failing statement does not keep every definition: the argument of the call has taken the place of the function `x`. -/
theorem not_failing_statement_keeps_all :
    ¬ ∀ (texts : List String) (text : String) (p : Problem) (x : String) (v : Value),
      (((fresh 0).after texts).evaluate text).2 = .error p →
      ((fresh 0).after texts).heap.getLocal? globalScope x = some v →
      (((fresh 0).after texts).evaluate text).1.heap.getLocal? globalScope x = some v := by
  intro hkeeps
  have hbefore : shadowing.heap.getLocal? globalScope "x" = some (.function ⟨0, "x", [], .int 1⟩) := by rfl
  have hkept := hkeeps _ "(f 2)" _ "x" _ shadowing_fails hbefore
  have hground : shadowing.Grounded := (grounded_global 0 "" false).after _
  have hafter := getLocal?_of_calls hground shadowing_calls "x"
  rw [shadowing] at hafter
  rw [hkept] at hafter
  cases hafter

end Session

end FormLang
