import FormLang.Registry

/-!
# Which faults operations have

An operation that is given the arguments it reads fails over the kind of an argument or over the arithmetic, and in no
other way (`Operation.ordinary_apply`). Every built-in of the default registry asks for as many arguments as its operation
reads (`Registry.sound_of_mem_defaults`), so none of its calls can miss one.
-/

namespace FormLang

/-- The operation fails with a type error or an arithmetic error if it fails at all. -/
def Ordinary {α : Type} (x : Except Fault α) : Prop :=
  ∀ f, x = .error f → f.code = .type ∨ f.code = .arithmetic

namespace Ordinary

variable {α : Type}

theorem ok (a : α) : Ordinary (.ok a) :=
  fun _ h => by cases h

theorem ofType {f : Fault} (hf : f.code = .type) : Ordinary (.error f : Except Fault α) := by
  intro g hg
  cases hg
  exact .inl hf

theorem ofArithmetic {f : Fault} (hf : f.code = .arithmetic) : Ordinary (.error f : Except Fault α) := by
  intro g hg
  cases hg
  exact .inr hf

/-- A failure that is handed on is as ordinary as it was. -/
theorem error_of {β : Type} {x : Except Fault α} {f : Fault} (hx : Ordinary x) (h : x = .error f) :
    Ordinary (.error f : Except Fault β) := by
  intro g hg
  cases hg
  exact hx f h

end Ordinary

/-! ## Arithmetic and comparison -/

theorem ordinary_checkOperands (op : String) (args : List Value) : Ordinary (checkOperands op args) := by
  unfold checkOperands
  split
  · exact .ok _
  · split <;> exact .ofType rfl

namespace Arithmetic

theorem ordinary_combine (op : Arithmetic) (acc next : Value) : Ordinary (op.combine acc next) := by
  unfold combine
  split
  · split
    · exact .ok _
    · exact .ofArithmetic rfl
  · exact .ok _

theorem ordinary_foldFrom (op : Arithmetic) (acc : Value) (vs : List Value) : Ordinary (op.foldFrom acc vs) := by
  induction vs generalizing acc with
  | nil => exact .ok _
  | cons v vs ih =>
    rw [foldFrom]
    split
    · exact ih _
    · rename_i hcombine
      exact (ordinary_combine op acc v).error_of hcombine

theorem ordinary_fold (op : Arithmetic) {args : List Value} (hargs : 1 ≤ args.length) : Ordinary (op.fold args) := by
  unfold fold
  split
  · rename_i hcheck
    exact (ordinary_checkOperands _ _).error_of hcheck
  · split
    · exact absurd hargs (by decide)
    · exact ordinary_foldFrom _ _ _

theorem ordinary_apply (op : Arithmetic) {args : List Value} (hargs : 1 ≤ args.length) : Ordinary (op.apply args) := by
  unfold apply
  split
  · exact ordinary_fold _ (Nat.le_add_left 1 1)
  · exact ordinary_fold _ hargs

end Arithmetic

theorem ordinary_divideFrom (integral : Bool) (acc : Value) (vs : List Value) :
    Ordinary (divideFrom integral acc vs) := by
  induction vs generalizing acc with
  | nil => exact .ok _
  | cons v vs ih =>
    rw [divideFrom]
    split
    · exact .ofArithmetic rfl
    · exact ih _

theorem ordinary_quotient {args : List Value} (hargs : 1 ≤ args.length) : Ordinary (quotient args) := by
  unfold quotient
  split
  · rename_i hcheck
    exact (ordinary_checkOperands _ _).error_of hcheck
  · split
    · exact absurd hargs (by decide)
    · exact ordinary_divideFrom _ _ _
    · exact ordinary_divideFrom _ _ _

theorem Comparison.ordinary_apply (op : Comparison) (a b : Value) : Ordinary (op.apply a b) := by
  unfold Comparison.apply
  split
  · exact .ok _
  · split
    · exact .ofType rfl
    · split <;> exact .ok _

theorem ordinary_absolute {args : List Value} (hargs : 1 ≤ args.length) : Ordinary (absolute args) := by
  unfold absolute
  split
  · rename_i hcheck
    exact (ordinary_checkOperands _ _).error_of hcheck
  · split
    · exact absurd hargs (by decide)
    · split
      · split
        · exact .ok _
        · exact .ofArithmetic rfl
      · exact .ok _

theorem Extreme.ordinary_apply (e : Extreme) {args : List Value} (hargs : 1 ≤ args.length) : Ordinary (e.apply args) := by
  unfold Extreme.apply
  split
  · rename_i hcheck
    exact (ordinary_checkOperands _ _).error_of hcheck
  · split
    · exact absurd hargs (by decide)
    · exact .ok _

theorem ordinary_floatToInteger (name : String) (d : Binary64.Direction) (f : Float) :
    Ordinary (floatToInteger name d f) := by
  unfold floatToInteger
  split
  · exact .ofArithmetic rfl
  · split
    · exact .ofArithmetic rfl
    · simp only
      split
      · exact .ok _
      · exact .ofArithmetic rfl

theorem ordinary_roundNumber {args : List Value} (hargs : 1 ≤ args.length) : Ordinary (roundNumber args) := by
  unfold roundNumber
  split
  · rename_i hcheck
    exact (ordinary_checkOperands _ _).error_of hcheck
  · split
    · exact absurd hargs (by decide)
    · split
      · exact .ok _
      · exact ordinary_floatToInteger _ _ _
    · split
      · exact .ofType rfl
      · split
        · split
          · exact .ok _
          · exact .ofArithmetic rfl
        · exact .ok _

/-! ## Functions of floats and of integers -/

theorem ordinary_toFloats (name : String) (args : List Value) : Ordinary (toFloats name args) := by
  induction args with
  | nil => exact .ok _
  | cons v vs ih =>
    rw [toFloats]
    split
    · exact .ofType rfl
    · split
      · exact .ok _
      · rename_i hrest
        exact ih.error_of hrest

theorem length_of_toFloats {name : String} {args : List Value} {fs : List Float} (h : toFloats name args = .ok fs) :
    fs.length = args.length := by
  induction args generalizing fs with
  | nil =>
    cases h
    rfl
  | cons v vs ih =>
    rw [toFloats] at h
    split at h
    · cases h
    · split at h
      · rename_i hrest
        cases h
        rw [List.length_cons, ih hrest, List.length_cons]
      · cases h

theorem ordinary_checkResult (name : String) (args : List Float) (negative : Bool) (out : Float) :
    Ordinary (checkResult name args negative out) := by
  unfold checkResult
  split
  · exact .ofArithmetic rfl
  · split
    · exact .ofArithmetic rfl
    · exact .ok _

theorem Unary.ordinary_apply (u : Unary) {args : List Value} (hargs : 1 ≤ args.length) : Ordinary (u.apply args) := by
  unfold Unary.apply
  split
  · rename_i hfloats
    exact (ordinary_toFloats _ _).error_of hfloats
  · rename_i hfloats
    rw [← length_of_toFloats hfloats] at hargs
    exact absurd hargs (by decide)
  · split
    · exact .ofArithmetic rfl
    · exact ordinary_checkResult _ _ _ _

theorem Binary.ordinary_apply (b : Binary) {args : List Value} (hargs : 2 ≤ args.length) : Ordinary (b.apply args) := by
  unfold Binary.apply
  split
  · rename_i hfloats
    exact (ordinary_toFloats _ _).error_of hfloats
  · exact ordinary_checkResult _ _ _ _
  · rename_i fs hshort hfloats
    rw [← length_of_toFloats hfloats] at hargs
    match fs with
    | x :: y :: rest => exact absurd rfl (hshort x y rest)

theorem ordinary_raisePower {args : List Value} (hargs : 2 ≤ args.length) : Ordinary (raisePower args) := by
  unfold raisePower
  split
  · rename_i hfloats
    exact (ordinary_toFloats _ _).error_of hfloats
  · split
    · exact .ofArithmetic rfl
    · exact ordinary_checkResult _ _ _ _
  · rename_i fs hshort hfloats
    rw [← length_of_toFloats hfloats] at hargs
    match fs with
    | x :: y :: rest => exact absurd rfl (hshort x y rest)

theorem ordinary_logarithm {args : List Value} (hargs : 1 ≤ args.length) : Ordinary (logarithm args) := by
  unfold logarithm
  split
  · rename_i hfloats
    exact (ordinary_toFloats _ _).error_of hfloats
  · rename_i hfloats
    rw [← length_of_toFloats hfloats] at hargs
    exact absurd hargs (by decide)
  · split
    · exact .ofArithmetic rfl
    · split
      · split
        · exact .ofArithmetic rfl
        · exact .ok _
      · exact .ok _

theorem Classifier.ordinary_apply (c : Classifier) {args : List Value} (hargs : 1 ≤ args.length) :
    Ordinary (c.apply args) := by
  unfold Classifier.apply
  split
  · rename_i hfloats
    exact (ordinary_toFloats _ _).error_of hfloats
  · rename_i hfloats
    rw [← length_of_toFloats hfloats] at hargs
    exact absurd hargs (by decide)
  · exact .ok _

theorem ordinary_convertToInteger (d : Binary64.Direction) {args : List Value} (hargs : 1 ≤ args.length) :
    Ordinary (convertToInteger d args) := by
  unfold convertToInteger
  split
  · exact absurd hargs (by decide)
  · split
    · exact .ok _
    · split
      · exact ordinary_floatToInteger _ _ _
      · exact .ofType rfl

theorem ordinary_natural (name : String) (v : Value) : Ordinary (natural name v) := by
  unfold natural
  split
  · exact .ofType rfl
  · split
    · exact .ofArithmetic rfl
    · exact .ok _

theorem ordinary_factorialOf {args : List Value} (hargs : 1 ≤ args.length) : Ordinary (factorialOf args) := by
  unfold factorialOf
  split
  · exact absurd hargs (by decide)
  · split
    · rename_i hnatural
      exact (ordinary_natural _ _).error_of hnatural
    · split
      · exact .ok _
      · exact .ofArithmetic rfl

theorem ordinary_gcdFrom (acc : UInt64) (vs : List Value) : Ordinary (gcdFrom acc vs) := by
  induction vs generalizing acc with
  | nil => exact .ok _
  | cons v vs ih =>
    rw [gcdFrom]
    split
    · exact .ofType rfl
    · exact ih _

theorem ordinary_gcdOf (args : List Value) : Ordinary (gcdOf args) := by
  unfold gcdOf
  split
  · rename_i hgcd
    exact (ordinary_gcdFrom _ _).error_of hgcd
  · split
    · exact .ofArithmetic rfl
    · exact .ok _

theorem ordinary_isqrtOf {args : List Value} (hargs : 1 ≤ args.length) : Ordinary (isqrtOf args) := by
  unfold isqrtOf
  split
  · exact absurd hargs (by decide)
  · split
    · rename_i hnatural
      exact (ordinary_natural _ _).error_of hnatural
    · exact .ok _

/-! ## All operations -/

namespace Operation

/-- The number of arguments that an operation reads in any case. -/
def reads : Operation → Nat
  | .compare _ | .equal | .unequal | .power | .binary _ => 2
  | .gcd | .fail _ | .raise _ _ => 0
  | _ => 1

/-- The operations of the language, without those that fail as a host tells them to. -/
def isOwn : Operation → Bool
  | .fail _ | .raise _ _ => false
  | _ => true

/-- **An operation of the language that has its arguments fails over types or arithmetic only.** -/
theorem ordinary_apply {op : Operation} (hown : op.isOwn = true) {args : List Value} (hargs : op.reads ≤ args.length) :
    Ordinary (op.apply args) := by
  cases op with
  | arithmetic op => exact op.ordinary_apply hargs
  | divide => exact ordinary_quotient hargs
  | compare op =>
    match args, hargs with
    | a :: b :: _, _ => exact op.ordinary_apply a b
  | equal | unequal =>
    match args, hargs with
    | a :: b :: _, _ => exact .ok _
  | abs => exact ordinary_absolute hargs
  | extreme e => exact e.ordinary_apply hargs
  | round => exact ordinary_roundNumber hargs
  | not | first =>
    match args, hargs with
    | v :: _, _ => exact .ok _
  | power => exact ordinary_raisePower hargs
  | log => exact ordinary_logarithm hargs
  | unary f => exact f.ordinary_apply hargs
  | binary f => exact f.ordinary_apply hargs
  | classify c => exact c.ordinary_apply hargs
  | toInteger d => exact ordinary_convertToInteger d hargs
  | factorial => exact ordinary_factorialOf hargs
  | gcd => exact ordinary_gcdOf args
  | isqrt => exact ordinary_isqrtOf hargs
  | fail message => cases hown
  | raise code message => cases hown

end Operation

/-! ## The default registry -/

/-- The built-in asks for the arguments that its operation reads, and the operation is one of the language. -/
def Builtin.isSound (b : Builtin) : Bool :=
  b.operation.reads ≤ b.least && b.operation.isOwn

theorem Builtin.ordinary_apply {b : Builtin} (hsound : b.isSound = true) {args : List Value}
    (htakes : b.takes args.length = true) : Ordinary (b.operation.apply args) := by
  rw [isSound, Bool.and_eq_true, decide_eq_true_eq] at hsound
  rw [takes, Bool.and_eq_true, decide_eq_true_eq] at htakes
  exact Operation.ordinary_apply hsound.2 (Nat.le_trans hsound.1 htakes.1)

namespace Registry

/-- Whether an entry is a number or a sound built-in. -/
def isSoundEntry (p : String × Value) : Bool :=
  match p.2 with
  | .builtin b => b.isSound
  | v => v.isNumber

theorem all_isSoundEntry_defaults (registry : Nat) : (defaults registry).entries.all isSoundEntry = true := rfl

theorem sound_of_mem_defaults {registry : Nat} {name : String} {b : Builtin}
    (h : (name, .builtin b) ∈ (defaults registry).entries) : b.isSound = true :=
  List.all_eq_true.mp (all_isSoundEntry_defaults registry) _ h

end Registry

end FormLang
