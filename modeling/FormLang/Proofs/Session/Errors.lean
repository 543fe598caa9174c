import FormLang.Proofs.Builtin.Division
import FormLang.Proofs.Eval.Native
import FormLang.Proofs.Expr.Parse
import FormLang.Proofs.Program.Append
import FormLang.Proofs.Session.Failure

/-!
# Errors of sessions

A statement of a session over the fresh global scope has a value, or it fails in one of a few ways, whatever statements came
before it and whatever the depth limit is (`errors_admissible`). The reader rejects it, or evaluation fails with one of the
errors of the language. What only a host can cause, or a fault of the program itself, does not occur.

A statement keeps the global scope native (`Native.evaluate`), and so does a run of statements (`Native.after`). The exit
status of a run then depends on whether the balance check rejects the first statement that fails (`Native.exitStatus_runAll`).
-/

namespace FormLang

/-! ## Admissible problems -/

/-- The codes of the errors of the balance check. -/
def BalanceError.codes : List Code :=
  [.emptyInput, .missingOuterParens, .mismatchedParens]

theorem BalanceError.code_mem_codes (e : BalanceError) : e.code ∈ codes := by
  cases e <;> simp [code, codes]

namespace Problem

/-- A problem that a statement can have: it is no form, or nested too deep, or its evaluation fails. -/
def Admissible : Problem → Prop
  | .parse (.balance e) => e.code ∈ BalanceError.codes
  | .parse (.read e) => e.code = .resource
  | .eval e => e.Admissible
  | .other _ => False

/-- The codes of faults of the program, of builders used without a balance check, and of hosts. -/
def foreignCodes : List Code :=
  [.internal, .unexpectedEnd, .unexpectedCloseParen, .file, .settings]

namespace Admissible

variable {p : Problem} (h : p.Admissible)

include h

theorem code_mem : p.code ∈ BalanceError.codes ++ EvalError.ownCodes := by
  match p with
  | .parse (.balance e) => exact List.mem_append_left _ h
  | .parse (.read e) =>
    have hcode : (Problem.parse (.read e)).code = .resource := h
    rw [hcode]
    decide
  | .eval e => exact List.mem_append_right _ h

theorem code_notMem_foreignCodes : p.code ∉ foreignCodes := by
  have hdisjoint : ∀ c ∈ BalanceError.codes ++ EvalError.ownCodes, c ∉ foreignCodes := by decide
  exact hdisjoint p.code h.code_mem

/-- What the balance check has let through ends a program as a runtime error. -/
theorem exitStatus_eq_runtime (hbalance : ∀ e, p ≠ .parse (.balance e)) : p.exitStatus = .runtime := by
  have hown : ∀ c ∈ EvalError.ownCodes, ExitStatus.ofCode c = .runtime := by decide
  match p with
  | .parse (.balance e) => exact absurd rfl (hbalance e)
  | .parse (.read e) =>
    have hcode : e.code = .resource := h
    exact hown e.code (hcode ▸ by decide)
  | .eval e => exact hown e.code h

end Admissible

theorem exitStatus_balance (e : BalanceError) : (Problem.parse (.balance e)).exitStatus = .parse := by
  have hcodes : ∀ c ∈ BalanceError.codes, ExitStatus.ofCode c = .parse := by decide
  exact hcodes e.code e.code_mem_codes

end Problem

theorem Expr.admissible_of_parse {limit : Int} {ts : List Token} {err : ParseError} (h : parse limit ts = .error err) :
    (Problem.parse err).Admissible := by
  rcases parse_tree_cases limit ts with ⟨cs, -, -, hok⟩ | ⟨cs, -, -, hdeep⟩ | ⟨-, e, hbalance⟩
  · rw [hok] at h
    cases h
  · rw [hdeep] at h
    cases h
    rfl
  · rw [hbalance] at h
    cases h
    exact e.code_mem_codes

theorem Expr.whole_of_parse {limit : Int} {ts : List Token} {e : Expr} (h : parse limit ts = .ok e) : e.Whole := by
  rcases parse_tree_cases limit ts with ⟨cs, -, -, hok⟩ | ⟨cs, -, -, hdeep⟩ | ⟨-, err, hbalance⟩
  · rw [hok] at h
    cases h
    exact TokenTree.whole_toExpr _
  · rw [hdeep] at h
    cases h
  · rw [hbalance] at h
    cases h

/-- Parsing fails at the balance check whenever that fails, and never says so otherwise. -/
theorem Expr.parse_eq_balance_iff (limit : Int) (ts : List Token) (err : BalanceError) :
    parse limit ts = .error (.balance err) ↔ Token.checkBalance ts = .error err := by
  rw [parse]
  cases Token.checkBalance ts with
  | error e => simp
  | ok _ =>
    simp only
    split <;> simp

/-! ## Built-ins -/

/-- **Built-ins of the default registry read and divide safely.** Given a number of arguments that it takes, a built-in does
not read an argument that is missing, and it does not divide by zero. -/
theorem Builtin.safe_of_mem_defaults {registry : Nat} {name : String} {b : Builtin}
    (hmem : (name, .builtin b) ∈ (Registry.defaults registry).entries) {args : List Value}
    (htakes : b.takes args.length = true) :
    b.operation.apply args ≠ .error .missingArgument ∧ Strict.apply b.operation args = .ok (b.operation.apply args) := by
  refine ⟨fun hmissing => ?_, Strict.apply_eq b.operation args⟩
  rcases ordinary_apply (Registry.sound_of_mem_defaults hmem) htakes _ hmissing with hcode | hcode <;> cases hcode

/-! ## Statements -/

/-- Whether the statement failed. -/
def Result.failed (r : Result) : Bool :=
  match r.outcome with
  | .ok _ => false
  | .error _ => true

namespace Session

/-- All values of the session are native. -/
def Native (s : Session) : Prop :=
  s.heap.Native

/-- A statement that the balance check rejects. -/
def Unbalanced (text : String) : Prop :=
  ∃ err, Token.checkBalance (Token.ofText text) = .error err

/-- A statement fails at the balance check whenever that rejects its text, and never says so otherwise. -/
theorem evaluate_eq_balance_iff (s : Session) (text : String) (err : BalanceError) :
    (s.evaluate text).2 = .error (.parse (.balance err)) ↔ Token.checkBalance (Token.ofText text) = .error err := by
  rw [← Expr.parse_eq_balance_iff s.limit]
  cases hparse : Expr.parse s.limit (Token.ofText text) with
  | error perr => simp [evaluate_of_error hparse]
  | ok e =>
    rw [evaluate_of_ok hparse]
    cases (evalTop (effectiveLimit s.limit) s.machine e globalScope).2 <;>
      exact ⟨fun hp => (by cases hp), fun hbalance => (by cases hbalance)⟩

namespace Native

variable {s : Session} (h : s.Native)

include h

/-- A statement keeps the session native, and it has a native value or an admissible problem. -/
theorem sound_evaluate (text : String) : (s.evaluate text).1.Native ∧
    (∀ v, (s.evaluate text).2 = .ok v → v.Native) ∧ ∀ p, (s.evaluate text).2 = .error p → p.Admissible := by
  have hkept := nativeLaw_kept (effectiveLimit s.limit)
  obtain ⟨hheap, hvalue, hproblem⟩ := Session.sound_evaluate hkept (fun _ hparse => Expr.whole_of_parse hparse) h
  refine ⟨hheap, hvalue, fun p hp => ?_⟩
  rcases hproblem p hp with ⟨err, hparse, rfl⟩ | ⟨err, herr, rfl⟩
  · exact Expr.admissible_of_parse hparse
  · exact herr

theorem evaluate (text : String) : (s.evaluate text).1.Native :=
  (h.sound_evaluate text).1

theorem after (texts : List String) : (s.after texts).Native :=
  after_induction (P := Session.Native) (fun _ text hs => evaluate hs text) h texts

/-- A problem ends a program as a parse error if and only if the balance check rejects the statement. -/
theorem exitStatus_problem {text : String} {p : Problem} (hp : (s.evaluate text).2 = .error p) :
    (p.exitStatus = .parse ∧ Unbalanced text) ∨ (p.exitStatus = .runtime ∧ ¬ Unbalanced text) := by
  have hadmissible := (h.sound_evaluate text).2.2 p hp
  by_cases hbalance : ∃ err, p = .parse (.balance err)
  · obtain ⟨err, rfl⟩ := hbalance
    exact .inl ⟨Problem.exitStatus_balance err, err, (evaluate_eq_balance_iff s text err).mp hp⟩
  · refine .inr ⟨hadmissible.exitStatus_eq_runtime fun err heq => hbalance ⟨err, heq⟩, fun ⟨err, herr⟩ => ?_⟩
    have hsame := (evaluate_eq_balance_iff s text err).mpr herr
    rw [hp] at hsame
    cases hsame
    exact hbalance ⟨err, rfl⟩

/-- The status of a run says whether something failed, and whether the balance check rejects the first statement that did. -/
theorem exitStatus_runAll (sts : List Statement) :
    Result.exitStatus (s.runAll sts).2 ∈ [.ok, .parse, .runtime] ∧
    (Result.exitStatus (s.runAll sts).2 = .parse ↔
      ∃ r, (s.runAll sts).2.find? Result.failed = some r ∧ Unbalanced r.statement.text) := by
  induction sts generalizing s with
  | nil => exact ⟨List.mem_cons_self, fun hparse => (by cases hparse), fun ⟨r, hr, _⟩ => (by cases hr)⟩
  | cons st rest ih =>
    rw [runAll_cons]
    cases hout : (s.evaluate st.text).2 with
    | ok v => exact ih (h.evaluate st.text)
    | error p =>
      change p.exitStatus ∈ _ ∧ (p.exitStatus = .parse ↔ _)
      rcases h.exitStatus_problem hout with ⟨hstatus, hbalance⟩ | ⟨hstatus, hbalance⟩
      · rw [hstatus]
        exact ⟨by decide, fun _ => ⟨_, rfl, hbalance⟩, fun _ => rfl⟩
      · rw [hstatus]
        refine ⟨by decide, fun hparse => (by cases hparse), fun ⟨r, hr, hyes⟩ => ?_⟩
        cases hr
        exact absurd hyes hbalance

end Native

theorem native_global (limit : Int) (runId : String) (tracing : Bool) : (start .global limit runId tracing).Native :=
  Heap.native_global

/-- **Every error of a session has an admissible code.** In a session over a fresh global scope, after any statements, a
further statement has a value or an admissible problem, and all values stay native. Built-ins read no argument that is
missing and divide by no zero. A run of a source ends with 0, 2 or 4, and with 2 exactly if the balance check rejects the
first statement that fails. -/
theorem errors_admissible (limit : Int) (runId : String) (tracing : Bool) (texts : List String) :
    let s := (start .global limit runId tracing).after texts
    s.Native ∧
    (∀ text, (∃ v, (s.evaluate text).2 = .ok v ∧ v ≠ .void ∧ v.Native) ∨
      ∃ p, (s.evaluate text).2 = .error p ∧ p.Admissible ∧ p.code ∉ Problem.foreignCodes) ∧
    (∀ (b : Builtin) (args : List Value), (Value.builtin b).Native → b.takes args.length = true →
      b.operation.apply args ≠ .error .missingArgument ∧
      Strict.apply b.operation args = .ok (b.operation.apply args)) ∧
    ∀ source, (Result.exitStatus (s.run source).2).code ∈ [0, 2, 4] ∧
      ((Result.exitStatus (s.run source).2).code = 2 ↔
        ∃ r, (s.run source).2.find? Result.failed = some r ∧ Unbalanced r.statement.text) := by
  intro s
  have hnative : s.Native := (native_global limit runId tracing).after texts
  refine ⟨hnative, fun text => ?_, fun b args ⟨name, hmem⟩ htakes => Builtin.safe_of_mem_defaults hmem htakes,
    fun source => ?_⟩
  · obtain ⟨-, hvalue, hproblem⟩ := hnative.sound_evaluate text
    cases hout : (s.evaluate text).2 with
    | ok v => exact .inl ⟨v, rfl, (hvalue v hout).ne_void, hvalue v hout⟩
    | error p => exact .inr ⟨p, rfl, hproblem p hout, (hproblem p hout).code_notMem_foreignCodes⟩
  · obtain ⟨hmem, hiff⟩ := hnative.exitStatus_runAll (Statement.ofSource source)
    have hcode : ∀ status : ExitStatus, status ∈ [.ok, .parse, .runtime] → status.code ∈ [0, 2, 4] := by
      intro status
      cases status <;> decide
    have htwo : ∀ status : ExitStatus, status.code = 2 ↔ status = .parse := by
      intro status
      cases status <;> decide
    exact ⟨hcode _ hmem, (htwo _).trans hiff⟩

/-- Division by zero, in a session with a limit of three. -/
theorem errors_admissible_divide :
    ∃ b : Builtin, b.operation = .divide ∧ (Value.builtin b).Native ∧ b.takes [Value.int 1, .int 0].length = true ∧
      b.operation.apply [.int 1, .int 0] ≠ .error .missingArgument ∧
      Strict.apply b.operation [.int 1, .int 0] = .ok (b.operation.apply [.int 1, .int 0]) := by
  have hnative : (Value.builtin ⟨"/", 1, none, .divide, 0⟩).Native := ⟨"/", List.mem_of_getElem? (i := 3) rfl⟩
  have hsafe := (errors_admissible 3 "" false ["(defun f (x) (/ 1 x))"]).2.2.1 _ [.int 1, .int 0] hnative rfl
  exact ⟨_, rfl, hnative, rfl, hsafe⟩

end Session

end FormLang
