import FormLang.Proofs.Eval.Simulation

/-!
# Parameters in the scope of the caller

A call binds its parameters in the scope of the caller. Within one statement this cannot be told from ordinary dynamic
scoping, where they get a scope of their own: what a call leaves in a scope is never seen by another part of the same
statement, because operands, conditions, branches and bodies all have scopes that end with them. Only the scope of the
statement itself shows the difference, when the statement is a call.
-/

namespace FormLang

theorem sameView_self {h : Heap} {s : Nat} (hord : h.Ordered) (hs : s < h.size) :
    SameView (fun _ => True) h s h s where
  ordered₁ := hord
  ordered₂ := hord
  inside₁ := hs
  inside₂ := hs
  get?_eq _ _ := rfl
  closed _ v _ _ := Value.over_of_forall (fun _ => trivial) v

theorem recording_eq : Recording Eq :=
  fun _ _ e h => congrArg (Trace.note · e) h

/-- An evaluation and its twin with fresh scopes match. -/
theorem evalWith_match_fresh (limit : Nat) {m : Machine} (e : Expr) {s : Nat} (hord : m.heap.Ordered)
    (hs : s < m.heap.size) :
    Eval.Match Eq (Value.Over fun _ => True) (evalWith .caller limit m e s) (evalWith .fresh limit m e s) :=
  Eval.simulates_evalWith recording_eq .caller .fresh limit ⟨rfl, rfl, rfl⟩ (sameView_self hord hs)
    (Expr.over_of_forall (fun _ => trivial) e)

/-- **Binding parameters in the scope of the caller is dynamic scoping.** Evaluation with a fresh scope for the parameters
of each call has the same outcome, counters and trace. The scopes it leaves are the same too, but for the parameters of
one call, if the expression is a call that gets as far as its body. The built-ins in scope are those of `Operation`, which
see no scope. -/
theorem eval_eq_fresh (limit : Nat) (m : Machine) (e : Expr) (s : ScopeId) (hord : m.heap.Ordered)
    (hs : s < m.heap.size) :
    (eval limit m e s).2 = (evalWith .fresh limit m e s).2 ∧
    (eval limit m e s).1.counters = (evalWith .fresh limit m e s).1.counters ∧
    (eval limit m e s).1.trace = (evalWith .fresh limit m e s).1.trace ∧
    (∀ f args, Enters limit m e s f args →
      (eval limit m e s).1.heap = (evalWith .fresh limit m e s).1.heap.bindPairs s (f.params.zip args)) ∧
    ((¬ ∃ f args, Enters limit m e s f args) →
      (eval limit m e s).1.heap = (evalWith .fresh limit m e s).1.heap) := by
  have hmatch := evalWith_match_fresh limit e hord hs
  have hcaller := Eval.scopes_evalWith .caller limit m e s
  have hfresh := Eval.scopes_evalWith .fresh limit m e s
  refine ⟨hmatch.outcome, hmatch.same.counters, hmatch.same.trace, fun f args henter => ?_, fun henter => ?_⟩
  · -- the twin of a call leaves nothing, and the call itself its parameters
    have hnone : Eval.effect .fresh limit m e s = [] :=
      Eval.effect_eq_nil .fresh (Eval.not_defines_of_enters henter) nofun
    rw [hnone, Heap.scopes_bindPairs_nil] at hfresh
    refine Heap.eq_of_scopes_of_functions ?_ hmatch.same.functions
    rw [Heap.scopes_bindPairs_congr hfresh, ← Eval.effect_of_enters henter]
    exact hcaller
  · have hsame : Eval.effect .caller limit m e s = Eval.effect .fresh limit m e s := by
      by_cases hdef : ∃ d, Defines limit m e d
      · obtain ⟨d, hd⟩ := hdef
        rw [Eval.effect_of_defines .caller hd, Eval.effect_of_defines .fresh hd]
      · rw [Eval.effect_eq_nil .caller hdef fun _ => henter, Eval.effect_eq_nil .fresh hdef nofun]
    refine Heap.eq_of_scopes_of_functions ?_ hmatch.same.functions
    rw [hfresh, ← hsame]
    exact hcaller

/-- The twin of a failing call fails likewise, and does not show the parameter. -/
theorem eval_eq_fresh_failing_call :
    failingCaller.heap.Ordered ∧ 0 < failingCaller.heap.size ∧
    (evalWith .fresh 3 failingCaller (.list [.symbol "f", .int 7]) 0).2 = .error (.unbound "y") ∧
    (eval 3 failingCaller (.list [.symbol "f", .int 7]) 0).1.heap =
      (evalWith .fresh 3 failingCaller (.list [.symbol "f", .int 7]) 0).1.heap.bindPairs 0 [("x", .int 7)] ∧
    (evalWith .fresh 3 failingCaller (.list [.symbol "f", .int 7]) 0).1.heap.getLocal? 0 "x" = none := by
  have hord : failingCaller.heap.Ordered := Heap.ordered_root.bindPairs 0 _
  have hs : 0 < failingCaller.heap.size := by decide
  have h := eval_eq_fresh 3 failingCaller (.list [.symbol "f", .int 7]) 0 hord hs
  exact ⟨hord, hs, h.1.symm, h.2.2.2.1 _ _ failingCaller_enters, rfl⟩

end FormLang
