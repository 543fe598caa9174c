import FormLang.Proofs.Text.Order
import FormLang.Proofs.Value.Order

/-!
# Comparisons describe an order

The six comparisons of the default registry are read off one order: that of numbers (`Value.order`) or that of texts
(`Comparison.orderTexts`). So on numbers and on texts exactly one of `<`, `=` and `>` holds, and the other three are their
negations (`Consistent`).

On texts equality is transitive. On numbers it is not, because an integer is rounded before it is compared with a float: two
integers beyond `2 ^ 53` may both equal a float between them (`not_equalTransitive_numbers`). There is no other exception
(`comparisons_consistent`).
-/

namespace FormLang

/-! ## Answers -/

/-- The built-in of this name returns this value for these arguments, whatever the state it is called in. -/
def Returns (registry : Nat) (name : String) (args : List Value) (v : Value) : Prop :=
  ∃ b, (Registry.defaults registry).get? name = some (.builtin b) ∧
    ∀ m : Machine, Eval.callBuiltin m b args = (m.countCall, .ok v)

/-- The built-in of this name returns this truth value for two values. -/
def Answers (registry : Nat) (name : String) (a b : Value) (r : Bool) : Prop :=
  Returns registry name [a, b] (.bool r)

section answers

variable {registry : Nat} {name : String}

theorem returns_of_apply {b : Builtin} {args : List Value} {v : Value}
    (hentry : (Registry.defaults registry).get? name = some (.builtin b)) (htakes : b.takes args.length = true)
    (happly : b.operation.apply args = .ok v) : Returns registry name args v := by
  refine ⟨b, hentry, fun m => ?_⟩
  rw [Eval.callBuiltin_eq m b htakes, Eval.builtinOutcome_of_ok happly]

theorem Returns.unique {args : List Value} {v w : Value} (hv : Returns registry name args v)
    (hw : Returns registry name args w) : v = w := by
  obtain ⟨b, hb, hcall⟩ := hv
  obtain ⟨b', hb', hcall'⟩ := hw
  obtain rfl : b = b' := by simpa using hb.symm.trans hb'
  simpa using (hcall (.start .empty "" false)).symm.trans (hcall' (.start .empty "" false))

theorem Answers.iff {a b : Value} {r t : Bool} (h : Answers registry name a b r) : Answers registry name a b t ↔ t = r :=
  ⟨fun ht => Value.bool.inj (Returns.unique ht h), fun ht => ht ▸ h⟩

end answers

/-! ## One order behind all comparisons -/

/-- All comparisons of two values are read off this order of theirs. -/
structure Follows (registry : Nat) (a b : Value) (o : Ordering) : Prop where
  less : Answers registry "<" a b (o == .lt)
  equal : Answers registry "=" a b (o == .eq)
  greater : Answers registry ">" a b (o == .gt)
  atMost : Answers registry "<=" a b (o != .gt)
  atLeast : Answers registry ">=" a b (o != .lt)
  unequal : Answers registry "!=" a b (o != .eq)

/-- The comparisons on such values describe one order. Exactly one of `<`, `=` and `>` holds and the others are their
negations, because all six are read off one of the three orderings. -/
structure Consistent (registry : Nat) {ι : Type} (value : ι → Value) : Prop where
  decided : ∀ a b : ι, ∃ o, Follows registry (value a) (value b) o
  converse : ∀ (a b : ι) (r : Bool), Answers registry "<" (value a) (value b) r ↔ Answers registry ">" (value b) (value a) r
  less_trans : ∀ a b c : ι, Answers registry "<" (value a) (value b) true → Answers registry "<" (value b) (value c) true →
    Answers registry "<" (value a) (value c) true

/-- Equality on such values is transitive. -/
def EqualTransitive (registry : Nat) {ι : Type} (value : ι → Value) : Prop :=
  ∀ a b c : ι, Answers registry "=" (value a) (value b) true → Answers registry "=" (value b) (value c) true →
    Answers registry "=" (value a) (value c) true

section follows

variable {registry : Nat} {a b : Value} {o : Ordering}

/-- It is enough that the four tests and equality follow the order. -/
theorem follows_of (htest : ∀ op : Comparison, op.apply a b = .ok (.bool (op.accepts o)))
    (hequal : a.equal b = (o == .eq)) : Follows registry a b o where
  less := returns_of_apply rfl rfl (htest .less)
  equal := returns_of_apply rfl rfl (congrArg (Except.ok ∘ Value.bool) hequal)
  greater := returns_of_apply rfl rfl (htest .greater)
  atMost := returns_of_apply rfl rfl (htest .atMost)
  atLeast := returns_of_apply rfl rfl (htest .atLeast)
  unequal := returns_of_apply rfl rfl (congrArg (Except.ok ∘ Value.bool ∘ not) hequal)

namespace Follows

variable (h : Follows registry a b o)

include h

theorem less_iff : Answers registry "<" a b true ↔ o = .lt :=
  h.less.iff.trans (by rw [eq_comm, beq_iff_eq])

theorem equal_iff : Answers registry "=" a b true ↔ o = .eq :=
  h.equal.iff.trans (by rw [eq_comm, beq_iff_eq])

end Follows

/-- An order that is followed, turns round with its arguments and is transitive makes the comparisons consistent. -/
theorem consistent_of {ι : Type} {value : ι → Value} {order : ι → ι → Ordering}
    (hfollows : ∀ a b, Follows registry (value a) (value b) (order a b)) (hswap : ∀ a b, (order a b).swap = order b a)
    (htrans : ∀ {a b c}, order a b = .lt → order b c = .lt → order a c = .lt) : Consistent registry value where
  decided a b := ⟨_, hfollows a b⟩
  converse a b r := by
    have hturned : (order b a == .gt) = (order a b == .lt) := by
      rw [← hswap a b]
      cases order a b <;> rfl
    rw [(hfollows a b).less.iff, (hfollows b a).greater.iff, hturned]
  less_trans a b c hab hbc := by
    rw [(hfollows _ _).less_iff] at *
    exact htrans hab hbc

end follows

/-! ## Numbers -/

theorem Comparison.apply_of_numbers (op : Comparison) {a b : Value} (ha : a.isNumber = true) (hb : b.isNumber = true) :
    op.apply a b = .ok (.bool ((a.compare? b).any op.accepts)) := by
  unfold Comparison.apply
  split
  · cases ha
  · rw [ha, hb]
    cases a.compare? b <;> rfl

theorem Comparison.apply_of_comparable {a b : Value} (ha : a.Comparable) (hb : b.Comparable) (op : Comparison) :
    op.apply a b = .ok (.bool (op.accepts (a.order b))) := by
  rw [op.apply_of_numbers ha.1 hb.1, Value.compare?_eq ha hb]
  rfl

theorem follows_order (registry : Nat) {a b : Value} (ha : a.Comparable) (hb : b.Comparable) :
    Follows registry a b (a.order b) :=
  follows_of (Comparison.apply_of_comparable ha hb) (Value.equal_eq ha hb)

/-- A number that is no NaN. -/
abbrev Number : Type :=
  { v : Value // v.Comparable }

theorem consistent_numbers (registry : Nat) : Consistent registry (Subtype.val : Number → Value) :=
  consistent_of (fun a b => follows_order registry a.2 b.2) (fun a b => a.1.order_swap b.1) Value.order_lt_trans

/-- The outer two are different integers beyond `2 ^ 53`, and the middle one is a float. -/
def Straddled (a b c : Value) : Prop :=
  a.isInteger = true ∧ b.isInteger = false ∧ c.isInteger = true ∧ a.whole ≠ c.whole ∧
    2 ^ 53 ≤ a.whole.natAbs ∧ 2 ^ 53 ≤ c.whole.natAbs

theorem equal_trans_numbers (registry : Nat) (a b c : Number) (hab : Answers registry "=" a b true)
    (hbc : Answers registry "=" b c true) : Answers registry "=" a c true ∨ Straddled a b c := by
  rw [(follows_order registry a.2 b.2).equal_iff] at hab
  rw [(follows_order registry b.2 c.2).equal_iff] at hbc
  rw [(follows_order registry a.2 c.2).equal_iff]
  exact Value.order_eq_trans hab hbc

/-- Numbers are compared by their value, unless an integer beyond `2 ^ 53` meets a float. -/
theorem follows_amount (registry : Nat) {a b : Number} (h : Value.Exact a b) :
    Follows registry a b (compare (Value.amount a) (Value.amount b)) :=
  Value.order_eq_compare_amount a.2 b.2 h ▸ follows_order registry a.2 b.2

/-! ## Texts -/

namespace Comparison

theorem orderTexts_eq_lt {s t : String} : orderTexts s t = .lt ↔ Text.precedes s t = true := by
  rw [orderTexts]
  split
  · simp [*]
  · split <;> simp [*]

theorem orderTexts_eq_eq {s t : String} : orderTexts s t = .eq ↔ s = t := by
  constructor
  · intro h
    by_contra hne
    rw [orderTexts] at h
    cases hst : Text.precedes s t with
    | true => simp [hst] at h
    | false => simp [hst, Text.precedes_of_not hne hst] at h
  · rintro rfl
    have hself : Text.precedes s s = false := Bool.eq_false_iff.mpr fun h => Text.ne_of_precedes h rfl
    simp [orderTexts, hself]

theorem orderTexts_swap (s t : String) : (orderTexts s t).swap = orderTexts t s := by
  rw [orderTexts, orderTexts]
  cases hst : Text.precedes s t with
  | true => simp [Text.precedes_asymm hst]
  | false => cases Text.precedes t s <;> simp

end Comparison

theorem follows_orderTexts (registry : Nat) (s t : String) :
    Follows registry (.str s) (.str t) (Comparison.orderTexts s t) := by
  refine follows_of (fun _ => rfl) ?_
  change (s == t) = _
  rw [Bool.eq_iff_iff, beq_iff_eq, beq_iff_eq, Comparison.orderTexts_eq_eq]

theorem consistent_texts (registry : Nat) : Consistent registry Value.str := by
  refine consistent_of (follows_orderTexts registry) Comparison.orderTexts_swap ?_
  intro s t u hst htu
  rw [Comparison.orderTexts_eq_lt] at *
  exact Text.precedes_trans hst htu

theorem equalTransitive_texts (registry : Nat) : EqualTransitive registry Value.str := by
  intro s t u hst htu
  rw [(follows_orderTexts registry _ _).equal_iff, Comparison.orderTexts_eq_eq] at *
  exact hst.trans htu

/-! ## Both kinds together -/

/-- The comparisons describe one order on numbers and one on texts. Equality is transitive on texts, and on numbers but for
integers that straddle a float. Away from those, numbers are compared by value. -/
theorem comparisons_consistent (registry : Nat) :
    Consistent registry (Subtype.val : Number → Value) ∧ Consistent registry Value.str ∧
      EqualTransitive registry Value.str ∧
      (∀ a b c : Number, Answers registry "=" a b true → Answers registry "=" b c true →
        Answers registry "=" a c true ∨ Straddled a b c) ∧
      (∀ a b : Number, Value.Exact a b → Follows registry a b (compare (Value.amount a) (Value.amount b))) :=
  ⟨consistent_numbers registry, consistent_texts registry, equalTransitive_texts registry, equal_trans_numbers registry,
    fun _ _ => follows_amount registry⟩

/-- The largest integer below `2 ^ 53` is less than that float. -/
theorem comparisons_consistent_below :
    Value.Exact (.int 9007199254740991) (.float (Binary64.ofInt64 9007199254740992)) ∧
      Follows 0 (.int 9007199254740991) (.float (Binary64.ofInt64 9007199254740992)) .lt := by
  have hexact : Value.Exact (.int 9007199254740991) (.float (Binary64.ofInt64 9007199254740992)) :=
    .inr ⟨by decide, by decide⟩
  have hfollows := (comparisons_consistent 0).2.2.2.2 ⟨.int 9007199254740991, Value.comparable_of_isInteger rfl⟩
    ⟨.float (Binary64.ofInt64 9007199254740992), rfl, Binary64.isNaN_ofInt64 9007199254740992⟩ hexact
  have hlt : compare (Value.amount (.int 9007199254740991))
      (Value.amount (.float (Binary64.ofInt64 9007199254740992))) = .lt := by
    decide +kernel
  exact ⟨hexact, hlt ▸ hfollows⟩

/-- The float `2 ^ 53` equals two integers that differ. -/
theorem not_equalTransitive_numbers : ¬ EqualTransitive 0 (Subtype.val : Number → Value) := by
  intro h
  let low : Number := ⟨.int 9007199254740992, Value.comparable_of_isInteger rfl⟩
  let high : Number := ⟨.int 9007199254740993, Value.comparable_of_isInteger rfl⟩
  let middle : Number := ⟨.float (Binary64.ofInt64 9007199254740992), rfl, Binary64.isNaN_ofInt64 9007199254740992⟩
  have hhigh : Answers 0 "=" high middle true := (follows_order 0 high.2 middle.2).equal_iff.mpr (by decide +kernel)
  have hlow : Answers 0 "=" middle low true := (follows_order 0 middle.2 low.2).equal_iff.mpr (by decide +kernel)
  have heq := (follows_order 0 high.2 low.2).equal_iff.mp (h high middle low hhigh hlow)
  exact absurd heq (by decide +kernel)

end FormLang
