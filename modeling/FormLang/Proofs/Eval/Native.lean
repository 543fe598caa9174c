import FormLang.Proofs.Eval.Invariant
import FormLang.Proofs.Token.Tree
import FormLang.Session

/-!
# Values of the language itself

A host can bind a name to no value, add built-ins of its own and supply expressions with holes. Where it does none of this,
all values are native: no void, no function over a hole, and no built-in outside of the default registry. That is a law which
evaluation keeps (`nativeLaw_kept`), and then it fails for one of a few reasons only.
-/

namespace FormLang

/-! ## Native values -/

mutual

/-- The expression has no hole. -/
def Expr.Whole : Expr → Prop
  | .hole => False
  | .list items => Expr.WholeAll items
  | .int _ | .float _ | .symbol _ => True

def Expr.WholeAll : List Expr → Prop
  | [] => True
  | e :: es => e.Whole ∧ Expr.WholeAll es

end

theorem Expr.whole_list_iff (es : List Expr) : (Expr.list es).Whole ↔ ∀ e ∈ es, e.Whole := by
  rw [Expr.Whole]
  induction es with
  | nil => simp [Expr.WholeAll]
  | cons e es ih => simp [Expr.WholeAll, ih]

theorem Expr.whole_ofToken (t : Token) : (ofToken t).Whole := by
  unfold ofToken
  split
  · trivial
  · split <;> trivial

mutual

/-- What is read from tokens has no hole. -/
theorem TokenTree.whole_toExpr : ∀ t : TokenTree, t.toExpr.Whole
  | .leaf t _ => Expr.whole_ofToken t
  | .node cs => TokenTree.wholeAll_toExprs cs

theorem TokenTree.wholeAll_toExprs : ∀ cs : List TokenTree, Expr.WholeAll (toExprs cs)
  | [] => trivial
  | c :: cs => ⟨TokenTree.whole_toExpr c, TokenTree.wholeAll_toExprs cs⟩

end

/-- A value that a session over the default registry can have. -/
def Value.Native : Value → Prop
  | .void => False
  | .function f => f.body.Whole
  | .builtin b => ∃ name, (name, .builtin b) ∈ (Registry.defaults 0).entries
  | _ => True

theorem Value.native_of_isNumber {v : Value} (h : v.isNumber = true) : v.Native := by
  cases v with
  | str _ | function _ | builtin _ | void => cases h
  | _ => trivial

theorem Value.Native.ne_void {v : Value} (h : v.Native) : v ≠ .void := by
  rintro rfl
  exact h

/-! ## Native heaps -/

/-- All values in all scopes are native. -/
def Heap.Native (h : Heap) : Prop :=
  ∀ (t : Nat) (sc : Scope), h.scopes[t]? = some sc → ∀ p ∈ sc.bindings, p.2.Native

/-- A fresh global scope holds the default registry. -/
theorem Heap.native_global : Heap.global.Native := by
  have hempty : (Heap.empty.push none).Holds Value.Native := Holds.empty.push none
  refine hempty.bindPairs 0 fun p hp => ?_
  have hsound := List.all_eq_true.mp (Registry.all_isSoundEntry_defaults 0) p hp
  obtain ⟨name, v⟩ := p
  cases v with
  | builtin b => exact ⟨name, hp⟩
  | _ => exact Value.native_of_isNumber hsound

/-! ## Evaluation -/

/-- The codes of the errors that the language itself raises. -/
def EvalError.ownCodes : List Code :=
  [.name, .arity, .arithmetic, .notCallable, .type, .form, .resource]

def EvalError.Admissible (err : EvalError) : Prop :=
  err.code ∈ ownCodes

theorem EvalError.Ordinary.admissible {err : EvalError} (h : err.Ordinary) : err.Admissible := by
  have hsub : ∀ c ∈ ordinaryCodes, c ∈ ownCodes := by decide
  exact hsub err.code h

/-- Values are native, expressions have no hole, and errors are those of the language. -/
def nativeLaw : Law :=
  ⟨Value.Native, Expr.Whole, EvalError.Admissible⟩

theorem nativeLaw_kept (limit : Nat) : nativeLaw.Kept limit where
  item {items} e h hmem := (Expr.whole_list_iff items).mp h e hmem
  number := Value.native_of_isNumber
  str _ _ := trivial
  define {e d} he h m := by
    obtain ⟨rfl, -⟩ := (Eval.Plan.of_eq_define_iff e d).mp h
    exact (Expr.whole_list_iff _).mp he d.body (by simp)
  body h := h
  builtin := fun ⟨_, hmem⟩ => Registry.sound_of_mem_defaults hmem
  ordinary h := h.admissible
  hole h := h.elim
  tooDeep := by
    show Code.resource ∈ EvalError.ownCodes
    decide

end FormLang
