import FormLang.Builtin.Apply

/-!
# What operations return

An operation returns a number, a boolean being one too, or hands back one of its arguments (`Operation.apply_result`). So
no text and no callable comes out of an operation that did not go in.
-/

namespace FormLang

/-- The operation returns a number if it returns at all. -/
def Numeric (x : Except Fault Value) : Prop :=
  ∀ v, x = .ok v → v.isNumber = true

namespace Numeric

theorem error (f : Fault) : Numeric (.error f) :=
  fun _ h => by cases h

theorem ok {v : Value} (h : v.isNumber = true) : Numeric (.ok v) := by
  intro w hw
  cases hw
  exact h

theorem int (n : Int64) : Numeric (.ok (.int n)) := ok rfl
theorem float (f : Float) : Numeric (.ok (.float f)) := ok rfl
theorem bool (b : Bool) : Numeric (.ok (.bool b)) := ok rfl

end Numeric

theorem Value.isNumber_ofFloat (negative : Bool) (f : Float) : (Value.ofFloat negative f).isNumber = true := by
  unfold Value.ofFloat
  split <;> rfl

theorem isNumber_of_checkOperands {op : String} {args : List Value} (h : checkOperands op args = .ok ()) :
    ∀ v ∈ args, v.isNumber = true := by
  intro v hv
  unfold checkOperands at h
  split at h
  · rename_i hfind
    simpa using List.find?_eq_none.mp hfind v hv
  · split at h <;> cases h

/-! ## Arithmetic -/

namespace Arithmetic

theorem numeric_combine (op : Arithmetic) (acc next : Value) : Numeric (op.combine acc next) := by
  unfold combine
  split
  · split
    · exact .int _
    · exact .error _
  · exact .ok (Value.isNumber_ofFloat _ _)

theorem numeric_foldFrom (op : Arithmetic) {acc : Value} (hacc : acc.isNumber = true) (vs : List Value) :
    Numeric (op.foldFrom acc vs) := by
  induction vs generalizing acc with
  | nil => exact .ok hacc
  | cons v vs ih =>
    rw [foldFrom]
    split
    · rename_i next hnext
      exact ih (numeric_combine op acc v next hnext)
    · exact .error _

theorem numeric_fold (op : Arithmetic) (args : List Value) : Numeric (op.fold args) := by
  unfold fold
  split
  · exact .error _
  · rename_i hcheck
    split
    · exact .error _
    · rename_i v vs
      have hv := isNumber_of_checkOperands hcheck v (by simp)
      refine numeric_foldFrom op ?_ vs
      cases v <;> exact hv

theorem numeric_apply (op : Arithmetic) (args : List Value) : Numeric (op.apply args) := by
  unfold apply
  split <;> exact numeric_fold _ _

end Arithmetic

theorem numeric_divideFrom (integral : Bool) (acc : Value) (vs : List Value) :
    Numeric (divideFrom integral acc vs) := by
  induction vs generalizing acc with
  | nil => exact .ok (Value.isNumber_ofFloat _ _)
  | cons v vs ih =>
    rw [divideFrom]
    split
    · exact .error _
    · exact ih _

theorem numeric_quotient (args : List Value) : Numeric (quotient args) := by
  unfold quotient
  split
  · exact .error _
  · split
    · exact .error _
    · exact numeric_divideFrom _ _ _
    · exact numeric_divideFrom _ _ _

theorem Comparison.numeric_apply (op : Comparison) (a b : Value) : Numeric (op.apply a b) := by
  unfold Comparison.apply
  split
  · exact .bool _
  · split
    · exact .error _
    · split <;> exact .bool _

theorem numeric_absolute (args : List Value) : Numeric (absolute args) := by
  unfold absolute
  split
  · exact .error _
  · split
    · exact .error _
    · split
      · split
        · exact .int _
        · exact .error _
      · exact .float _

theorem Extreme.search_mem (e : Extreme) (best : Value) (vs : List Value) : e.search best vs ∈ best :: vs := by
  induction vs generalizing best with
  | nil => simp [search]
  | cons v vs ih =>
    rw [search]
    have h := ih (if e.improves (v.compare? best) then v else best)
    rcases List.mem_cons.mp h with heq | hmem
    · rw [heq]
      split <;> simp
    · simp [hmem]

theorem Extreme.apply_mem {e : Extreme} {args : List Value} {v : Value} (h : e.apply args = .ok v) : v ∈ args := by
  unfold Extreme.apply at h
  split at h
  · cases h
  · split at h
    · cases h
    · cases h
      exact search_mem e _ _

theorem numeric_floatToInteger (name : String) (d : Binary64.Direction) (f : Float) :
    Numeric (floatToInteger name d f) := by
  unfold floatToInteger
  split
  · exact .error _
  · split
    · exact .error _
    · simp only
      split
      · exact .int _
      · exact .error _

theorem numeric_roundNumber (args : List Value) : Numeric (roundNumber args) := by
  unfold roundNumber
  split
  · exact .error _
  · split
    · exact .error _
    · split
      · exact .int _
      · exact numeric_floatToInteger _ _ _
    · split
      · exact .error _
      · split
        · split
          · exact .int _
          · exact .error _
        · exact .ok (Value.isNumber_ofFloat _ _)

/-! ## Functions of floats and of integers -/

theorem numeric_checkResult (name : String) (args : List Float) (negative : Bool) (out : Float) :
    Numeric (checkResult name args negative out) := by
  unfold checkResult
  split
  · exact .error _
  · split
    · exact .error _
    · exact .ok (Value.isNumber_ofFloat _ _)

theorem Unary.numeric_apply (u : Unary) (args : List Value) : Numeric (u.apply args) := by
  unfold Unary.apply
  split
  · exact .error _
  · exact .error _
  · split
    · exact .error _
    · exact numeric_checkResult _ _ _ _

theorem Binary.numeric_apply (b : Binary) (args : List Value) : Numeric (b.apply args) := by
  unfold Binary.apply
  split
  · exact .error _
  · exact numeric_checkResult _ _ _ _
  · exact .error _

theorem numeric_raisePower (args : List Value) : Numeric (raisePower args) := by
  unfold raisePower
  split
  · exact .error _
  · split
    · exact .error _
    · exact numeric_checkResult _ _ _ _
  · exact .error _

theorem numeric_logarithm (args : List Value) : Numeric (logarithm args) := by
  unfold logarithm
  split
  · exact .error _
  · exact .error _
  · split
    · exact .error _
    · split
      · split
        · exact .error _
        · exact .ok (Value.isNumber_ofFloat _ _)
      · exact .float _

theorem Classifier.numeric_apply (c : Classifier) (args : List Value) : Numeric (c.apply args) := by
  unfold Classifier.apply
  split
  · exact .error _
  · exact .error _
  · exact .bool _

theorem numeric_convertToInteger (d : Binary64.Direction) (args : List Value) :
    Numeric (convertToInteger d args) := by
  unfold convertToInteger
  split
  · exact .error _
  · split
    · exact .int _
    · split
      · exact numeric_floatToInteger _ _ _
      · exact .error _

theorem numeric_factorialOf (args : List Value) : Numeric (factorialOf args) := by
  unfold factorialOf
  split
  · exact .error _
  · split
    · exact .error _
    · split
      · exact .int _
      · exact .error _

theorem numeric_gcdOf (args : List Value) : Numeric (gcdOf args) := by
  unfold gcdOf
  split
  · exact .error _
  · split
    · exact .error _
    · exact .int _

theorem numeric_isqrtOf (args : List Value) : Numeric (isqrtOf args) := by
  unfold isqrtOf
  split
  · exact .error _
  · split
    · exact .error _
    · exact .int _

/-! ## All operations -/

/-- **An operation returns a number or one of its arguments.** -/
theorem Operation.apply_result {op : Operation} {args : List Value} {v : Value} (h : op.apply args = .ok v) :
    v ∈ args ∨ v.isNumber = true := by
  cases op with
  | extreme e => exact .inl (Extreme.apply_mem h)
  | first =>
    simp only [apply] at h
    split at h
    · cases h
      exact .inl (by simp)
    · cases h
  | arithmetic op => exact .inr (op.numeric_apply args v h)
  | divide => exact .inr (numeric_quotient args v h)
  | compare op =>
    simp only [apply] at h
    split at h
    · exact .inr (op.numeric_apply _ _ v h)
    · cases h
  | equal =>
    simp only [apply] at h
    split at h <;> cases h
    exact .inr rfl
  | unequal =>
    simp only [apply] at h
    split at h <;> cases h
    exact .inr rfl
  | abs => exact .inr (numeric_absolute args v h)
  | round => exact .inr (numeric_roundNumber args v h)
  | not =>
    simp only [apply] at h
    split at h <;> cases h
    exact .inr rfl
  | power => exact .inr (numeric_raisePower args v h)
  | log => exact .inr (numeric_logarithm args v h)
  | unary f => exact .inr (f.numeric_apply args v h)
  | binary f => exact .inr (f.numeric_apply args v h)
  | classify c => exact .inr (c.numeric_apply args v h)
  | toInteger d => exact .inr (numeric_convertToInteger d args v h)
  | factorial => exact .inr (numeric_factorialOf args v h)
  | gcd => exact .inr (numeric_gcdOf args v h)
  | isqrt => exact .inr (numeric_isqrtOf args v h)
  | fail message => cases h
  | raise code message => cases h

end FormLang
