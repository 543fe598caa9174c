import FormLang.Proofs.Eval.Budget
import FormLang.Proofs.Session.Basic

/-!
# The depth budget of a session

Where all built-ins are those of default registries, no error but a used up depth has the resource code (`budgetLaw_kept`), so
that the code tells it. What an evaluation takes of the budget it gives back, whether it succeeds or fails
(`depth_budget_exact`), and between two statements all of the budget is there.
-/

namespace FormLang

/-! ## Default built-ins -/

/-- The value is no built-in other than those of default registries. -/
def Value.Standard : Value → Prop
  | .builtin b => ∃ registry name, (name, .builtin b) ∈ (Registry.defaults registry).entries
  | _ => True

theorem Value.standard_of_ne_builtin {v : Value} (h : ∀ b, v ≠ .builtin b) : v.Standard := by
  cases v with
  | builtin b => exact absurd rfl (h b)
  | _ => trivial

/-- Only a used up depth is a resource error. -/
def budgetLaw (limit : Nat) : Law where
  value := Value.Standard
  expr _ := True
  error err := err.code = .resource → err = .tooDeep limit

theorem budgetLaw_kept (limit : Nat) : (budgetLaw limit).Kept limit where
  item _ _ := trivial
  number {v} h := Value.standard_of_ne_builtin (by rintro b rfl; cases h)
  str _ _ := trivial
  define _ _ _ := trivial
  body _ := trivial
  builtin := fun ⟨_, _, hmem⟩ => Registry.sound_of_mem_defaults hmem
  ordinary h hcode := absurd hcode h.code_ne_resource
  hole _ hcode := by cases hcode
  tooDeep _ := rfl

theorem Heap.standard_global : Heap.global.Holds Value.Standard := by
  refine (Holds.empty.push none).bindPairs 0 fun p hp => ?_
  obtain ⟨name, v⟩ := p
  cases v with
  | builtin b => exact ⟨0, name, hp⟩
  | _ => trivial

/-! ## The budget -/

/-- A resource error is the one error of a used up depth. -/
theorem resource_iff_tooDeep (limit : Nat) {m : Machine} (hm : m.heap.Holds Value.Standard) (e : Expr) (s : ScopeId) :
    (∃ err, (eval limit m e s).2 = .error err ∧ err.code = .resource) ↔ (eval limit m e s).2 = .error (.tooDeep limit) := by
  have hsound := (budgetLaw_kept limit).eval hm (e := e) trivial s
  constructor
  · rintro ⟨err, herr, hcode⟩
    rw [herr, hsound.error err herr hcode]
  · exact fun h => ⟨.tooDeep limit, h, rfl⟩

/-- **The depth budget is exact and always released.** -/
theorem depth_budget_exact (limit : Nat) (m : Machine) (e : Expr) (s : ScopeId) (hbuiltins : m.heap.Holds Value.Standard)
    (hdepth : m.counters.depth ≤ limit) :
    (eval limit m e s).1.counters.depth = m.counters.depth ∧
    m.counters.peak ≤ (eval limit m e s).1.counters.peak ∧
    m.counters.calls ≤ (eval limit m e s).1.counters.calls ∧
    (eval limit m e s).1.counters.peak ≤ max m.counters.peak (limit + 1) ∧
    ((∃ err, (eval limit m e s).2 = .error err ∧ err.code = .resource) ↔ limit + 1 ∈ entered limit m e s) ∧
    (∀ err, (eval limit m e s).2 = .error err → err.code = .resource →
      err.message = "maximum recursion depth exceeded (" ++ Decimal.ofNat limit ++ ")") ∧
    (m.counters.peak ≤ limit →
      (limit + 1 ∈ entered limit m e s ↔ (eval limit m e s).1.counters.peak = limit + 1)) ∧
    ∀ session : Session, session.Live → session.counters.depth = 0 := by
  have hcount := accounts_eval hdepth e s
  have hresource := resource_iff_tooDeep limit hbuiltins e s
  refine ⟨hcount.depth, hcount.le_peak.1, Eval.steady_calls.within .caller limit _ m e s, hcount.peak_le,
    hresource.trans hcount.tooDeep, fun err herr hcode => ?_, hcount.mem_iff_peak_eq, fun _ hlive => hlive.counters_depth⟩
  have htooDeep := hresource.mp ⟨err, herr, hcode⟩
  rw [herr] at htooDeep
  cases htooDeep
  rfl

/-- A function that calls itself without end. -/
def endless : Expr :=
  .list [.symbol "defun", .symbol "f", .list [.symbol "x"], .list [.symbol "f", .symbol "x"]]

/-- The machine in which the function is defined. -/
def endlessMachine : Machine :=
  (eval 3 (.start .global "" false) endless globalScope).1

/-- Under a limit of three levels, the endless call fails at the fourth. -/
theorem depth_budget_exact_endless :
    endlessMachine.heap.Holds Value.Standard ∧ endlessMachine.counters.depth ≤ 3 ∧
    4 ∈ entered 3 endlessMachine (.list [.symbol "f", .int 1]) globalScope ∧
    (∃ err, (eval 3 endlessMachine (.list [.symbol "f", .int 1]) globalScope).2 = .error err ∧ err.code = .resource) ∧
    (eval 3 endlessMachine (.list [.symbol "f", .int 1]) globalScope).1.counters.peak = 4 := by
  have hstandard : endlessMachine.heap.Holds Value.Standard :=
    ((budgetLaw_kept 3).eval (m := .start .global "" false) Heap.standard_global trivial globalScope).heap
  have hcounters : endlessMachine.counters.depth = 0 ∧ endlessMachine.counters.peak = 1 := by decide +kernel
  have hentered : 4 ∈ entered 3 endlessMachine (.list [.symbol "f", .int 1]) globalScope := by decide +kernel
  obtain ⟨-, -, -, -, hresource, -, hpeak, -⟩ :=
    depth_budget_exact 3 endlessMachine (.list [.symbol "f", .int 1]) globalScope hstandard (by omega)
  exact ⟨hstandard, by omega, hentered, hresource.mpr hentered, (hpeak (by omega)).mp hentered⟩

end FormLang
