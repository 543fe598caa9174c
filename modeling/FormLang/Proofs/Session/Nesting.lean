import FormLang.Proofs.Eval.Nesting
import FormLang.Proofs.Expr.Stream
import FormLang.Proofs.Session.Budget
import FormLang.Proofs.Session.Summary

/-!
# Nesting and the depth limit of a session

A session reads forms that are nested as deep as its limit, and a form takes one level more to evaluate than it is nested. So
a text that is nested less deep than the limit uses up the depth only where it calls a function
(`nesting_bounds_depth`).
-/

namespace FormLang

/-! ## The nesting of a text -/

/-- At no place are more than `k` forms open. -/
def Token.NestsWithin (k : Nat) (ts : List Token) : Prop :=
  ∀ p, p <+: ts → (depth p).net ≤ k

/-- A form is nested as deep as its tokens say: the builder would pass a lower limit only at a deeper prefix. -/
theorem TokenTree.nest_le_of_nestsWithin {cs : List TokenTree} {k : Nat}
    (h : Token.NestsWithin k (TokenTree.node cs).flatten) : (TokenTree.node cs).nest ≤ k := by
  rcases Nat.lt_or_ge k (TokenTree.node cs).nest with hlt | hle
  · exfalso
    have hopen : (Token.depth [Token.opening]).net ≤ k := h [Token.opening] (by simp [flatten])
    have hpos : 1 ≤ k := by
      rw [Token.net_cons, Token.rise_opening, Token.net_nil] at hopen
      omega
    have hdeep := Expr.buildFrom_flatten_of_lt (.node cs) (Nat.zero_le k) hlt []
    rw [List.append_nil] at hdeep
    have hcases := Expr.buildFrom_cases hpos (TokenTree.node cs).flatten
    rw [hdeep] at hcases
    rcases hcases with ⟨t, -, -, hok⟩ | ⟨herr, -⟩ | ⟨herr, -⟩ | ⟨-, -, p, hp, hnet, -⟩ | ⟨herr, -⟩
    · cases hok
    · cases herr
    · cases herr
    · have hle := h p hp
      omega
    · cases herr
  · exact hle

/-- A text that keeps within a limit fails to be read only at the balance check, and what is read keeps within it too. -/
theorem Expr.parse_of_nestsWithin {limit : Int} {k : Nat} (hk : k ≤ effectiveLimit limit) {ts : List Token}
    (h : Token.NestsWithin k ts) :
    (∃ e, parse limit ts = .ok e ∧ e.nest ≤ k) ∨ ∃ err, parse limit ts = .error (.balance err) := by
  rcases parse_tree_cases limit ts with ⟨cs, rfl, -, hok⟩ | ⟨cs, rfl, hlt, -⟩ | ⟨-, herr⟩
  · refine .inl ⟨_, hok, ?_⟩
    rw [TokenTree.nest_toExpr]
    exact TokenTree.nest_le_of_nestsWithin h
  · have hle := TokenTree.nest_le_of_nestsWithin h
    omega
  · exact .inr herr

/-! ## Statements -/

namespace Session

theorem activity_of_ok {s : Session} {text : String} {e : Expr} (h : Expr.parse s.limit (Token.ofText text) = .ok e) :
    s.activity text = FormLang.activity (effectiveLimit s.limit) s.machine e globalScope := by
  rw [activity, h]

/-- The outcome of a statement that was read. -/
theorem evaluate_snd_of_ok {s : Session} {text : String} {e : Expr} (h : Expr.parse s.limit (Token.ofText text) = .ok e) :
    (s.evaluate text).2 = (eval (effectiveLimit s.limit) s.machine e globalScope).2.mapError .eval := by
  rw [evaluate_of_ok h, (evalTop_eq_eval (effectiveLimit s.limit) s.machine e globalScope).1]

end Session

/-- An evaluation that enters no function has the depth that it needs, if its expression is nested less deep than the limit. -/
theorem eval_ne_tooDeep {limit : Nat} {m : Machine} (hdepth : m.counters.depth = 0) {e : Expr} (hnest : e.nest < limit)
    {s : ScopeId} (hcalled : (activity limit m e s).called = []) : (eval limit m e s).2 ≠ .error (.tooDeep limit) := by
  intro hdeep
  have hentered := (accounts_eval (by omega) e s).tooDeep.mp hdeep
  have hle := le_nest_of_mem_entered hcalled _ hentered
  omega

namespace Session

variable {s : Session} {text : String} (hnest : Token.NestsWithin (effectiveLimit s.limit - 1) (Token.ofText text))

include hnest

/-- A text that keeps below the limit either fails the balance check or has the outcome of an expression that does too. -/
theorem outcome_of_nestsWithin :
    (∃ e, e.nest < effectiveLimit s.limit ∧
      s.activity text = FormLang.activity (effectiveLimit s.limit) s.machine e globalScope ∧
      (s.evaluate text).2 = (eval (effectiveLimit s.limit) s.machine e globalScope).2.mapError .eval) ∨
    ∃ err, (s.evaluate text).2 = .error (.parse (.balance err)) := by
  have hpos := effectiveLimit_pos s.limit
  rcases Expr.parse_of_nestsWithin (Nat.sub_le _ 1) hnest with ⟨e, hok, hle⟩ | ⟨err, herr⟩
  · exact .inl ⟨e, by omega, activity_of_ok hok, evaluate_snd_of_ok hok⟩
  · exact .inr ⟨err, by rw [evaluate_of_error herr]⟩

/-- Where the depth is used up a function was called. -/
theorem called_ne_nil_of_tooDeep (hlive : s.Live)
    (hdeep : (s.evaluate text).2 = .error (.eval (.tooDeep (effectiveLimit s.limit)))) : (s.activity text).called ≠ [] := by
  rcases outcome_of_nestsWithin hnest with ⟨e, hlt, hactivity, houtcome⟩ | ⟨err, herr⟩
  · rw [hactivity]
    intro hcalled
    obtain ⟨err, hout, heq⟩ := Problem.eq_eval_of_mapError (houtcome.symm.trans hdeep)
    cases heq
    exact eval_ne_tooDeep hlive.counters_depth hlt hcalled hout
  · rw [herr] at hdeep
    cases hdeep

/-- Over default built-ins, the only resource error is that the depth is used up. -/
theorem tooDeep_of_resource (hstandard : s.heap.Holds Value.Standard) {p : Problem} (hp : (s.evaluate text).2 = .error p)
    (hcode : p.code = .resource) : p = .eval (.tooDeep (effectiveLimit s.limit)) := by
  rcases outcome_of_nestsWithin hnest with ⟨e, -, -, houtcome⟩ | ⟨err, herr⟩
  · obtain ⟨err, hout, rfl⟩ := Problem.eq_eval_of_mapError (houtcome.symm.trans hp)
    have hdeep := (resource_iff_tooDeep _ hstandard e globalScope).mp ⟨err, hout, hcode⟩
    cases hout.symm.trans hdeep
    rfl
  · rw [herr] at hp
    cases hp
    have hmem := err.code_mem_codes
    have hbalance : err.code = .resource := hcode
    rw [hbalance] at hmem
    exact absurd hmem (by decide)

end Session

/-- **Nesting bounds the depth of evaluation without calls.** From depth zero, an expression that is nested `n` deep at most
enters no depth beyond `n + 1`, unless a function is entered. So in a session, a text that is nested less deep than the limit
uses up the depth only if a function is called, and over default built-ins it has no other resource error. -/
theorem nesting_bounds_depth :
    (∀ (limit n : Nat) (m : Machine) (e : Expr) (s : ScopeId), e.nest ≤ n → m.counters.depth = 0 →
      (activity limit m e s).called = [] →
      (∀ d ∈ entered limit m e s, d ≤ n + 1) ∧ (eval limit m e s).1.counters.peak ≤ max m.counters.peak (n + 1)) ∧
    ∀ (s : Session) (text : String), s.Live → Token.NestsWithin (effectiveLimit s.limit - 1) (Token.ofText text) →
      ((s.evaluate text).2 = .error (.eval (.tooDeep (effectiveLimit s.limit))) → (s.activity text).called ≠ []) ∧
      (s.heap.Holds Value.Standard → ∀ p, (s.evaluate text).2 = .error p → p.code = .resource →
        (s.activity text).called ≠ []) := by
  refine ⟨fun limit n m e s hnest hdepth hcalled => ?_, fun s text hlive hnest => ?_⟩
  · have hentered : ∀ d ∈ entered limit m e s, d ≤ n + 1 := by
      intro d hd
      have hle := le_nest_of_mem_entered hcalled d hd
      omega
    refine ⟨hentered, ((accounts_eval (by omega) e s).peak _).mpr ⟨Nat.le_max_left _ _, fun d hd => ?_⟩⟩
    exact Nat.le_trans (hentered d hd) (Nat.le_max_right _ _)
  · have hcalled := Session.called_ne_nil_of_tooDeep hnest hlive
    refine ⟨hcalled, fun hstandard p hp hcode => hcalled ?_⟩
    rw [hp, Session.tooDeep_of_resource hnest hstandard hp hcode]

-- A text that is nested as deep as the limit uses up the depth without a call.
example : ((Session.fresh 1).evaluate "(1)").2 = .error (.eval (.tooDeep 1)) := by rfl

/-- A sum in which the second term is a form of its own. -/
def sumOfForms : Expr :=
  .list [.symbol "+", .int 1, .list [.symbol "abs", .int 2]]

/-- A session with a limit of three levels, in which a function calls itself without end. -/
def endlessSession : Session :=
  ((Session.fresh 3).evaluate "(defun f (x) (f x))").1

/-- The sum is nested two deep and takes three levels. The endless call is nested one deep and uses up all three. -/
theorem nesting_bounds_depth_endless :
    sumOfForms.nest ≤ 2 ∧ (activity 9 (.start .global "" false) sumOfForms globalScope).called = [] ∧
    (eval 9 (.start .global "" false) sumOfForms globalScope).1.counters.peak ≤ 3 ∧
    endlessSession.Live ∧ Token.NestsWithin (effectiveLimit endlessSession.limit - 1) (Token.ofText "(f 1)") ∧
    (endlessSession.evaluate "(f 1)").2 = .error (.eval (.tooDeep 3)) ∧ (endlessSession.activity "(f 1)").called ≠ [] := by
  have hnest : sumOfForms.nest ≤ 2 := by decide
  have hcalled : (activity 9 (.start .global "" false) sumOfForms globalScope).called = [] := by decide +kernel
  have hlive : endlessSession.Live := .evaluate _ (.start ..)
  have hlimit : effectiveLimit endlessSession.limit = 3 := by rw [endlessSession, Session.limit_evaluate]; rfl
  have hwithin : Token.NestsWithin (effectiveLimit endlessSession.limit - 1) (Token.ofText "(f 1)") := by
    have htokens : Token.ofText "(f 1)" = ["(", "f", "1", ")"] := by decide +kernel
    rw [hlimit, htokens]
    simp only [Token.NestsWithin, Token.forall_prefix_cons_iff, List.prefix_nil, forall_eq]
    decide
  have hdeep : (endlessSession.evaluate "(f 1)").2 = .error (.eval (.tooDeep 3)) := by rfl
  have hbound := (nesting_bounds_depth.1 9 2 (.start .global "" false) sumOfForms globalScope hnest rfl hcalled).2
  exact ⟨hnest, hcalled, hbound, hlive, hwithin, hdeep, (nesting_bounds_depth.2 _ _ hlive hwithin).1 (hlimit ▸ hdeep)⟩

end FormLang
