import FormLang.Builtin.Apply
import FormLang.Proofs.Binary64.SquareRoot

/-!
# No operation divides by zero

Division is total, so an operation that divided by zero would go on with some number. Here each operation has a strict twin
that ends where it would divide by zero (`Strict.apply`), and the twin is shown to end with the result of the operation
(`Strict.apply_eq`). The divisions are those of words and those of floats that the operations themselves make; functions of
floats such as logarithms are taken as they are.

Most divisors are checked right before the division. The others need an argument: a power of ten fits into a word, and an
estimate of a square root is never negative (`lowerRoot_nonneg`), so that its successor is not zero.
-/

namespace FormLang

namespace Strict

/-! ## Divisions -/

/-- The end of a computation that would divide by zero. -/
inductive Stopped where
  | zeroDivisor

/-- A computation that stops before a division by zero. -/
abbrev Checked (α : Type) := Except Stopped α

def divide (a b : Int64) : Checked Int64 :=
  if b = 0 then .error .zeroDivisor else .ok (a / b)

def divideNat (a b : UInt64) : Checked UInt64 :=
  if b = 0 then .error .zeroDivisor else .ok (a / b)

def remainder (a b : UInt64) : Checked UInt64 :=
  if b = 0 then .error .zeroDivisor else .ok (a % b)

def divideFloat (x y : Float) : Checked Float :=
  if y == 0 then .error .zeroDivisor else .ok (x / y)

theorem divide_eq (a : Int64) {b : Int64} (hb : b ≠ 0) : divide a b = .ok (a / b) :=
  if_neg hb

theorem divideNat_eq (a : UInt64) {b : UInt64} (hb : b ≠ 0) : divideNat a b = .ok (a / b) :=
  if_neg hb

theorem remainder_eq (a : UInt64) {b : UInt64} (hb : b ≠ 0) : remainder a b = .ok (a % b) :=
  if_neg hb

theorem divideFloat_eq (x : Float) {y : Float} (hy : (y == 0) = false) : divideFloat x y = .ok (x / y) := by
  rw [divideFloat, hy]
  rfl

/-! ## Arithmetic -/

/-- As `Word.multiply?`. -/
def multiply? (a b : Int64) : Checked (Option Int64) :=
  if a == 0 || b == 0 then .ok (some 0)
  else if (a == -1 && b == Int64.minValue) || (b == -1 && a == Int64.minValue) then .ok none
  else do
    let q ← divide (a * b) b
    return if q == a then some (a * b) else none

theorem multiply?_eq (a b : Int64) : multiply? a b = .ok (Word.multiply? a b) := by
  unfold multiply? Word.multiply?
  split
  · rfl
  · rename_i hzero
    split
    · rfl
    · have hb : b ≠ 0 := by
        rintro rfl
        simp at hzero
      rw [divide_eq _ hb]
      rfl

/-- As `Arithmetic.onWords`. -/
def onWords : Arithmetic → Int64 → Int64 → Checked (Option Int64)
  | .add, x, y => .ok (Word.add? x y)
  | .subtract, x, y => .ok (Word.subtract? x y)
  | .multiply, x, y => multiply? x y

theorem onWords_eq (op : Arithmetic) (x y : Int64) : onWords op x y = .ok (op.onWords x y) := by
  cases op with
  | multiply => exact multiply?_eq x y
  | add | subtract => rfl

/-- As `Arithmetic.combine`. -/
def combine (op : Arithmetic) (acc next : Value) : Checked (Except Fault Value) :=
  match acc.integers? next with
  | some (x, y) => do
    match ← onWords op x y with
    | some n => return .ok (.int n)
    | none => return .error .overflow
  | none =>
    .ok (.ok (.ofFloat (nanSign acc next) (op.onFloats (acc.toFloat?.getD 0) (next.toFloat?.getD 0))))

theorem combine_eq (op : Arithmetic) (acc next : Value) : combine op acc next = .ok (op.combine acc next) := by
  unfold combine Arithmetic.combine
  rcases acc.integers? next with _ | ⟨x, y⟩
  · rfl
  · simp only [onWords_eq]
    cases op.onWords x y <;> rfl

/-- As `Arithmetic.foldFrom`. -/
def foldFrom (op : Arithmetic) (acc : Value) : List Value → Checked (Except Fault Value)
  | [] => .ok (.ok acc)
  | v :: vs => do
    match ← combine op acc v with
    | .ok next => foldFrom op next vs
    | .error e => return .error e

theorem foldFrom_eq (op : Arithmetic) (acc : Value) (vs : List Value) :
    foldFrom op acc vs = .ok (op.foldFrom acc vs) := by
  induction vs generalizing acc with
  | nil => rfl
  | cons v vs ih =>
    rw [foldFrom, Arithmetic.foldFrom, combine_eq]
    cases op.combine acc v with
    | ok next => exact ih next
    | error e => rfl

/-- As `Arithmetic.fold`. -/
def fold (op : Arithmetic) (args : List Value) : Checked (Except Fault Value) :=
  match checkOperands op.symbol args with
  | .error e => .ok (.error e)
  | .ok () =>
    match args with
    | [] => .ok (.error .missingArgument)
    | v :: vs => foldFrom op (Arithmetic.unbool v) vs

theorem fold_eq (op : Arithmetic) (args : List Value) : fold op args = .ok (op.fold args) := by
  unfold fold Arithmetic.fold
  cases checkOperands op.symbol args with
  | error e => rfl
  | ok _ =>
    cases args with
    | nil => rfl
    | cons v vs => exact foldFrom_eq op _ vs

/-- As `Arithmetic.apply`. -/
def arithmetic (op : Arithmetic) (args : List Value) : Checked (Except Fault Value) :=
  match op, args with
  | .subtract, [v] => fold .subtract [.int 0, v]
  | op, args => fold op args

theorem arithmetic_eq (op : Arithmetic) (args : List Value) : arithmetic op args = .ok (op.apply args) := by
  unfold arithmetic Arithmetic.apply
  match op, args with
  | .subtract, [v] => exact fold_eq _ _
  | .subtract, [] | .subtract, _ :: _ :: _ | .add, _ | .multiply, _ => exact fold_eq _ _

/-- As `divideFrom`. -/
def divideFrom (integral : Bool) (acc : Value) : List Value → Checked (Except Fault Value)
  | [] => .ok (.ok (.ofFloat acc.isNegativeNaN (acc.toFloat?.getD 0)))
  | v :: vs =>
    let d := v.toFloat?.getD 0
    if d == 0 then .ok (.error (.divisionByZero (v.isInteger && integral)))
    else do
      let q ← divideFloat (acc.toFloat?.getD 0) d
      divideFrom integral (.ofFloat (nanSign acc v) q) vs

theorem divideFrom_eq (integral : Bool) (acc : Value) (vs : List Value) :
    divideFrom integral acc vs = .ok (FormLang.divideFrom integral acc vs) := by
  induction vs generalizing acc with
  | nil => rfl
  | cons v vs ih =>
    rw [divideFrom, FormLang.divideFrom]
    split
    · rfl
    · rename_i hzero
      rw [divideFloat_eq _ (by simpa using hzero)]
      exact ih _

/-- As `quotient`. -/
def quotient (args : List Value) : Checked (Except Fault Value) :=
  match checkOperands "/" args with
  | .error e => .ok (.error e)
  | .ok () =>
    match args with
    | [] => .ok (.error .missingArgument)
    | [v] => divideFrom true (.int 1) [v]
    | v :: vs => divideFrom v.isInteger v vs

theorem quotient_eq (args : List Value) : quotient args = .ok (FormLang.quotient args) := by
  unfold quotient FormLang.quotient
  cases checkOperands "/" args with
  | error e => rfl
  | ok _ =>
    match args with
    | [] => rfl
    | [v] => exact divideFrom_eq _ _ _
    | v :: w :: vs => exact divideFrom_eq _ _ _

/-! ## Rounding -/

/-- As `Word.roundMagnitude?`. -/
def roundMagnitude? (m p : UInt64) : Checked (Option UInt64) := do
  let q ← divideNat m p
  let r ← remainder m p
  let parity ← remainder q 2
  let most ← divideNat 18446744073709551615 p
  let q := if p - r < r || (r == p - r && parity == 1) then q + 1 else q
  return if q != 0 && most < q then none else some (q * p)

theorem roundMagnitude?_eq (m : UInt64) {p : UInt64} (hp : p ≠ 0) :
    roundMagnitude? m p = .ok (Word.roundMagnitude? m p) := by
  have htwo : (2 : UInt64) ≠ 0 := by decide
  rw [roundMagnitude?, divideNat_eq m hp, remainder_eq m hp, divideNat_eq _ hp]
  simp only [bind, Except.bind, remainder_eq _ htwo]
  rfl

/-- As `Word.round?`. -/
def round? (n digits : Int64) : Checked (Option Int64) :=
  if 0 ≤ digits then .ok (some n)
  else if digits < -19 then .ok (some 0)
  else do
    match ← roundMagnitude? (Word.magnitude n) (10 ^ (-digits).toInt.toNat) with
    | none => return none
    | some out =>
      return if n < 0 then if 9223372036854775808 < out then none else some (-out).toInt64
        else if 9223372036854775807 < out then none
        else some out.toInt64

/-- A power of ten with at most twenty digits is a word. -/
theorem tenPow_ne_zero {digits : Int64} (hneg : ¬ 0 ≤ digits) (hleast : ¬ digits < -19) :
    (10 : UInt64) ^ (-digits).toInt.toNat ≠ 0 := by
  have hall : ∀ k < 20, (10 : UInt64) ^ k ≠ 0 := by decide
  rw [Int64.le_iff_toInt_le] at hneg
  rw [Int64.lt_iff_toInt_lt] at hleast
  have hzero : (0 : Int64).toInt = 0 := rfl
  have hnineteen : (-19 : Int64).toInt = -19 := rfl
  have hopposite : (-digits).toInt = -digits.toInt := by
    rw [Int64.toInt_neg]
    exact Int.bmod_eq_of_le (by omega) (by omega)
  exact hall _ (by omega)

theorem round?_eq (n digits : Int64) : round? n digits = .ok (Word.round? n digits) := by
  unfold round? Word.round?
  split
  · rfl
  · rename_i hneg
    split
    · rfl
    · rename_i hleast
      rw [roundMagnitude?_eq _ (tenPow_ne_zero hneg hleast)]
      simp only [bind, Except.bind]
      cases Word.roundMagnitude? (Word.magnitude n) (10 ^ (-digits).toInt.toNat) with
      | none => rfl
      | some out => rfl

/-- As `roundFloat`. -/
def roundFloat (f : Float) (digits : Int64) : Checked Float :=
  let scale := Binary64.power 10 (Binary64.ofInt64 digits)
  if Binary64.isInfinite scale || scale == 0 then .ok f
  else divideFloat (Binary64.whole .toEven (f * scale)) scale

theorem roundFloat_eq (f : Float) (digits : Int64) : roundFloat f digits = .ok (FormLang.roundFloat f digits) := by
  unfold roundFloat FormLang.roundFloat
  simp only
  split
  · rfl
  · rename_i hscale
    rw [Bool.or_eq_true, not_or, Bool.not_eq_true, Bool.not_eq_true] at hscale
    exact divideFloat_eq _ hscale.2

/-- As `roundNumber`. -/
def roundNumber (args : List Value) : Checked (Except Fault Value) :=
  match checkOperands "round" args with
  | .error e => .ok (.error e)
  | .ok () =>
    match args with
    | [] => .ok (.error .missingArgument)
    | [v] =>
      match v.toInt64? with
      | some n => .ok (.ok (.int n))
      | none => .ok (floatToInteger "round" .toEven (v.toFloat?.getD 0))
    | v :: d :: _ =>
      match d.toInt64? with
      | none => .ok (.error (.digits d.kind))
      | some digits =>
        match v.toInt64? with
        | some n => do
          match ← round? n digits with
          | some m => return .ok (.int m)
          | none => return .error .overflow
        | none => do
          let f ← roundFloat (v.toFloat?.getD 0) digits
          return .ok (.ofFloat v.isNegativeNaN f)

theorem roundNumber_eq (args : List Value) : roundNumber args = .ok (FormLang.roundNumber args) := by
  unfold roundNumber FormLang.roundNumber
  cases checkOperands "round" args with
  | error e => rfl
  | ok _ =>
    match args with
    | [] => rfl
    | [v] =>
      simp only
      cases v.toInt64? <;> rfl
    | v :: d :: _ =>
      simp only
      cases d.toInt64? with
      | none => rfl
      | some digits =>
        cases v.toInt64? with
        | some n =>
          simp only [round?_eq, bind, Except.bind]
          cases Word.round? n digits <;> rfl
        | none =>
          simp only [roundFloat_eq]
          rfl

/-! ## Functions of integers -/

/-- As `Word.factorialFrom`. -/
def factorialFrom (acc : Int64) (i : Nat) : (factors : Nat) → Checked (Option Int64)
  | 0 => .ok (some acc)
  | k + 1 => do
    match ← multiply? acc (Int64.ofNat i) with
    | some next => factorialFrom next (i + 1) k
    | none => return none

theorem factorialFrom_eq (acc : Int64) (i factors : Nat) :
    factorialFrom acc i factors = .ok (Word.factorialFrom acc i factors) := by
  induction factors generalizing acc i with
  | zero => rfl
  | succ k ih =>
    rw [factorialFrom, Word.factorialFrom, multiply?_eq]
    cases Word.multiply? acc (Int64.ofNat i) with
    | some next => exact ih next (i + 1)
    | none => rfl

/-- As `factorialOf`. -/
def factorialOf (args : List Value) : Checked (Except Fault Value) :=
  match args with
  | [] => .ok (.error .missingArgument)
  | v :: _ =>
    match natural "factorial" v with
    | .error e => .ok (.error e)
    | .ok n => do
      match ← factorialFrom 1 2 (n.toInt.toNat - 1) with
      | some m => return .ok (.int m)
      | none => return .error .overflow

theorem factorialOf_eq (args : List Value) : factorialOf args = .ok (FormLang.factorialOf args) := by
  unfold factorialOf FormLang.factorialOf Word.factorial?
  cases args with
  | nil => rfl
  | cons v vs =>
    simp only [factorialFrom_eq]
    cases natural "factorial" v with
    | error e => rfl
    | ok n =>
      simp only [bind, Except.bind]
      cases Word.factorialFrom 1 2 (n.toInt.toNat - 1) <;> rfl

theorem toNat_lt_of_remainder {a b r : UInt64} (h : remainder a b = .ok r) : r.toNat < b.toNat := by
  unfold remainder at h
  split at h
  · cases h
  · rename_i hb
    cases h
    have hpos : 0 < b.toNat := Nat.pos_of_ne_zero fun hzero => hb (UInt64.toNat_inj.mp hzero)
    rw [UInt64.toNat_mod]
    exact Nat.mod_lt _ hpos

/-- As `Word.gcd`. -/
def gcd (a b : UInt64) : Checked UInt64 :=
  if b = 0 then .ok a
  else
    match _h : remainder a b with
    | .error e => .error e
    | .ok r => gcd b r
termination_by b.toNat
decreasing_by exact toNat_lt_of_remainder ‹_›

theorem gcd_eq (a b : UInt64) : gcd a b = .ok (Word.gcd a b) := by
  induction a, b using Word.gcd.induct with
  | case1 a => rw [gcd, Word.gcd, if_pos rfl, if_pos rfl]
  | case2 a b hb ih =>
    rw [gcd, Word.gcd, if_neg hb, if_neg hb]
    split
    · rename_i e he
      rw [remainder_eq a hb] at he
      cases he
    · rename_i r hr
      rw [remainder_eq a hb] at hr
      cases hr
      exact ih

/-- As `gcdFrom`. -/
def gcdFrom (acc : UInt64) : List Value → Checked (Except Fault UInt64)
  | [] => .ok (.ok acc)
  | v :: vs =>
    match v.toInt64? with
    | none => .ok (.error (.notInteger "gcd" v.kind))
    | some n => do
      let g ← gcd acc (Word.magnitude n)
      gcdFrom g vs

theorem gcdFrom_eq (acc : UInt64) (vs : List Value) : gcdFrom acc vs = .ok (FormLang.gcdFrom acc vs) := by
  induction vs generalizing acc with
  | nil => rfl
  | cons v vs ih =>
    rw [gcdFrom, FormLang.gcdFrom]
    cases v.toInt64? with
    | none => rfl
    | some n =>
      simp only [gcd_eq]
      exact ih _

/-- As `gcdOf`. -/
def gcdOf (args : List Value) : Checked (Except Fault Value) := do
  match ← gcdFrom 0 args with
  | .error e => return .error e
  | .ok g => return if 9223372036854775807 < g then .error .overflow else .ok (.int g.toInt64)

theorem gcdOf_eq (args : List Value) : gcdOf args = .ok (FormLang.gcdOf args) := by
  rw [gcdOf, FormLang.gcdOf, gcdFrom_eq]
  cases FormLang.gcdFrom 0 args <;> rfl

/-! ## Square roots -/

/-- As `Word.lowerRoot`. -/
def lowerRoot (n r : Int64) : Checked Int64 :=
  if _h : 0 < r then
    match divide n r with
    | .error e => .error e
    | .ok q => if q < r then lowerRoot n (r - 1) else .ok r
  else .ok r
termination_by r.toInt.toNat
decreasing_by
  have h : 0 < r := ‹_›
  have hpos := Int64.lt_iff_toInt_lt.mp h
  rw [Int64.toInt_zero] at hpos
  rw [Word.toInt_sub_one h]
  omega

theorem lowerRoot_eq (n r : Int64) : lowerRoot n r = .ok (Word.lowerRoot n r) := by
  induction r using Word.lowerRoot.induct n with
  | case1 r h ih =>
    have hr : r ≠ 0 := by
      rintro rfl
      exact absurd h.1 (by decide)
    rw [lowerRoot, Word.lowerRoot, dif_pos h, dif_pos h.1, divide_eq n hr]
    simp only [if_pos h.2, ih]
  | case2 r h =>
    rw [lowerRoot, Word.lowerRoot, dif_neg h]
    by_cases hpos : 0 < r
    · have hr : r ≠ 0 := by
        rintro rfl
        exact absurd hpos (by decide)
      have hq : ¬ n / r < r := fun hlt => h ⟨hpos, hlt⟩
      rw [dif_pos hpos, divide_eq n hr]
      simp only [if_neg hq]
    · rw [dif_neg hpos]

/-- Lowering stops at zero. -/
theorem lowerRoot_nonneg (n : Int64) {r : Int64} (hr : 0 ≤ r) : 0 ≤ Word.lowerRoot n r := by
  induction r using Word.lowerRoot.induct n with
  | case1 r h ih =>
    rw [Word.lowerRoot, dif_pos h]
    refine ih ?_
    have hpos := Int64.lt_iff_toInt_lt.mp h.1
    rw [Int64.toInt_zero] at hpos
    rw [Int64.le_iff_toInt_le, Int64.toInt_zero, Word.toInt_sub_one h.1]
    omega
  | case2 r h =>
    rw [Word.lowerRoot, dif_neg h]
    exact hr

/-- As `Word.raiseRoot`, with the division before any test. -/
def raiseRoot (n r : Int64) : Checked Int64 :=
  match divide n (r + 1) with
  | .error e => .error e
  | .ok q => if h : r < n ∧ r + 1 ≤ q then raiseRoot n (r + 1) else .ok r
termination_by (n.toInt - r.toInt).toNat
decreasing_by
  have hlt := Int64.lt_iff_toInt_lt.mp h.1
  rw [Word.toInt_add_one h.1]
  omega

theorem add_one_ne_zero {r : Int64} (hr : 0 ≤ r) : r + 1 ≠ 0 := by
  intro hzero
  have hminus : r = -1 := by
    rw [← Int64.add_sub_cancel r 1, hzero]
    rfl
  rw [hminus] at hr
  exact absurd hr (by decide)

theorem raiseRoot_eq (n : Int64) {r : Int64} (hr : 0 ≤ r) : raiseRoot n r = .ok (Word.raiseRoot n r) := by
  induction r using Word.raiseRoot.induct n with
  | case1 r h ih =>
    have hnext : 0 ≤ r + 1 := by
      have hr' := Int64.le_iff_toInt_le.mp hr
      rw [Int64.toInt_zero] at hr'
      rw [Int64.le_iff_toInt_le, Int64.toInt_zero, Word.toInt_add_one h.1]
      omega
    rw [raiseRoot, Word.raiseRoot, dif_pos h, divide_eq n (add_one_ne_zero hr)]
    simp only [dif_pos h, ih hnext]
  | case2 r h =>
    rw [raiseRoot, Word.raiseRoot, dif_neg h, divide_eq n (add_one_ne_zero hr)]
    simp only [dif_neg h]

/-- As `isqrtOf`. -/
def isqrtOf (args : List Value) : Checked (Except Fault Value) :=
  match args with
  | [] => .ok (.error .missingArgument)
  | v :: _ =>
    match natural "isqrt" v with
    | .error e => .ok (.error e)
    | .ok n => do
      let low ← lowerRoot n (Binary64.toWord (Binary64.ofInt64 n).sqrt)
      let root ← raiseRoot n low
      return .ok (.int root)

theorem isqrtOf_eq (args : List Value) : isqrtOf args = .ok (FormLang.isqrtOf args) := by
  unfold isqrtOf FormLang.isqrtOf Word.isqrt Word.isqrtFrom
  cases args with
  | nil => rfl
  | cons v vs =>
    simp only [lowerRoot_eq]
    cases natural "isqrt" v with
    | error e => rfl
    | ok n =>
      have hlow := lowerRoot_nonneg n (Binary64.toWord_sqrt_nonneg (Binary64.ofInt64 n))
      simp only [bind, Except.bind, raiseRoot_eq n hlow]
      rfl

/-! ## Functions of floats -/

/-- As `logarithm`. -/
def logarithm (args : List Value) : Checked (Except Fault Value) :=
  match toFloats "log" args with
  | .error e => .ok (.error e)
  | .ok [] => .ok (.error .missingArgument)
  | .ok (x :: xs) =>
    if (x :: xs).any fun y => !Binary64.isNaN y && y ≤ 0 then .ok (.error (.domain "log"))
    else
      match xs with
      | [b] =>
        if b.log == 0 then .ok (.error .logBase)
        else do
          let q ← divideFloat x.log b.log
          return .ok (.ofFloat (!Binary64.isNaN x && !Binary64.isNaN b) q)
      | _ => .ok (.ok (.float x.log))

theorem logarithm_eq (args : List Value) : logarithm args = .ok (FormLang.logarithm args) := by
  unfold logarithm FormLang.logarithm
  rcases toFloats "log" args with e | _ | ⟨x, _ | ⟨b, _ | ⟨c, more⟩⟩⟩
  · rfl
  · rfl
  · dsimp only
    split <;> rfl
  · dsimp only
    split
    · rfl
    · split
      · rfl
      · rename_i hbase
        rw [divideFloat_eq _ (by simpa using hbase)]
        rfl
  · dsimp only
    split <;> rfl

/-- As `Unary.eval`. -/
def eval : Unary → Float → Checked Float
  | .degrees, x => divideFloat (x * 180) Binary64.pi
  | .radians, x => divideFloat (x * Binary64.pi) 180
  | u, x => .ok (u.eval x)

theorem eval_eq (u : Unary) (x : Float) : eval u x = .ok (u.eval x) := by
  cases u with
  | degrees => exact divideFloat_eq _ (by decide +kernel)
  | radians => exact divideFloat_eq _ (by decide +kernel)
  | _ => rfl

/-- As `Unary.apply`. -/
def unary (u : Unary) (args : List Value) : Checked (Except Fault Value) :=
  match toFloats u.name args with
  | .error e => .ok (.error e)
  | .ok [] => .ok (.error .missingArgument)
  | .ok (x :: xs) =>
    if !Binary64.isNaN x && !u.inDomain x then .ok (.error (.domain u.name))
    else do
      let out ← eval u x
      return checkResult u.name (x :: xs) (u.keepsSign && args.head?.any Value.isNegativeNaN) out

theorem unary_eq (u : Unary) (args : List Value) : unary u args = .ok (u.apply args) := by
  unfold unary Unary.apply
  match toFloats u.name args with
  | .error e => rfl
  | .ok [] => rfl
  | .ok (x :: xs) =>
    simp only [eval_eq]
    split <;> rfl

/-! ## All operations -/

/-- The result of an operation, unless it would divide by zero. -/
def apply (op : Operation) (args : List Value) : Checked (Except Fault Value) :=
  match op with
  | .arithmetic op => arithmetic op args
  | .divide => quotient args
  | .round => roundNumber args
  | .log => logarithm args
  | .unary u => unary u args
  | .factorial => factorialOf args
  | .gcd => gcdOf args
  | .isqrt => isqrtOf args
  | op => .ok (op.apply args)

/-- **No operation divides by zero**, whatever its arguments. -/
theorem apply_eq (op : Operation) (args : List Value) : apply op args = .ok (op.apply args) := by
  cases op with
  | arithmetic op => exact arithmetic_eq op args
  | divide => exact quotient_eq args
  | round => exact roundNumber_eq args
  | log => exact logarithm_eq args
  | unary u => exact unary_eq u args
  | factorial => exact factorialOf_eq args
  | gcd => exact gcdOf_eq args
  | isqrt => exact isqrtOf_eq args
  | _ => rfl

end Strict

end FormLang
