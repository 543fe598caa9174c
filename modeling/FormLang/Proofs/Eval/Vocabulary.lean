import FormLang.Proofs.Builtin.Result
import FormLang.Proofs.Eval.Plan

/-!
# Vocabularies

An expression is over a vocabulary if all its symbols belong to it, and a function is if its parameters and its body are.
Evaluation never leaves a vocabulary: what an expression asks for is over it again (`Plan.over_of`), and what an operation
returns is over it if the arguments are (`over_of_apply`).
-/

namespace FormLang

mutual

/-- Every symbol of the expression belongs to the vocabulary. -/
def Expr.Over (N : String → Prop) : Expr → Prop
  | .symbol name => N name
  | .list items => Expr.OverAll N items
  | .int _ | .float _ | .hole => True

def Expr.OverAll (N : String → Prop) : List Expr → Prop
  | [] => True
  | e :: es => e.Over N ∧ Expr.OverAll N es

end

/-- The parameters and the body of a function belong to the vocabulary. Other values mention no names. -/
def Value.Over (N : String → Prop) : Value → Prop
  | .function f => (∀ p ∈ f.params, N p) ∧ f.body.Over N
  | _ => True

variable {N : String → Prop}

theorem Expr.overAll_iff (es : List Expr) : Expr.OverAll N es ↔ ∀ e ∈ es, e.Over N := by
  induction es with
  | nil => simp [Expr.OverAll]
  | cons e es ih => simp [Expr.OverAll, ih]

theorem Expr.over_list_iff (es : List Expr) : (Expr.list es).Over N ↔ ∀ e ∈ es, e.Over N := by
  rw [Expr.Over, Expr.overAll_iff]

mutual

theorem Expr.over_of_forall (h : ∀ x, N x) : ∀ e : Expr, e.Over N
  | .symbol name => h name
  | .list items => Expr.overAll_of_forall h items
  | .int _ | .float _ | .hole => trivial

theorem Expr.overAll_of_forall (h : ∀ x, N x) : ∀ es : List Expr, Expr.OverAll N es
  | [] => trivial
  | e :: es => ⟨Expr.over_of_forall h e, Expr.overAll_of_forall h es⟩

end

theorem Value.over_of_forall (h : ∀ x, N x) (v : Value) : v.Over N := by
  cases v with
  | function f => exact ⟨fun p _ => h p, Expr.over_of_forall h f.body⟩
  | _ => trivial

theorem Value.over_of_isNumber {v : Value} (h : v.isNumber = true) : v.Over N := by
  cases v with
  | function f => cases h
  | _ => trivial

theorem Operation.over_of_apply {op : Operation} {args : List Value} {v : Value} (hargs : ∀ a ∈ args, a.Over N)
    (h : op.apply args = .ok v) : v.Over N := by
  rcases op.apply_result h with hmem | hnum
  · exact hargs v hmem
  · exact Value.over_of_isNumber hnum

/-! ## Format texts -/

namespace FormatText

theorem mem_of_gather {isFirst : Bool} {done : List String} {ops : List Expr} {words : List String} {rest : List Expr}
    (h : gather isFirst done ops = .ok (words, rest)) : ∀ e ∈ rest, e ∈ ops := by
  induction ops generalizing isFirst done with
  | nil => cases h
  | cons op ops ih =>
    rw [gather] at h
    split at h
    · cases h
      exact fun e he => by simp [he]
    · exact fun e he => by simp [ih h e he]

/-- What follows a format text are operands. -/
theorem mem_of_split {ops : List Expr} {words : List String} {rest : List Expr} (h : split ops = .ok (words, rest)) :
    ∀ e ∈ rest, e ∈ ops := by
  cases ops with
  | nil =>
    cases h
    simp
  | cons op ops =>
    rw [split] at h
    split at h
    · exact mem_of_gather h
    · split at h
      · cases h
      · cases h
        exact fun e he => by simp [he]

end FormatText

/-! ## Plans -/

namespace Eval.Plan

def Over (N : String → Prop) : Plan → Prop
  | .answer r => ∀ v, r = .ok v → v.Over N
  | .look name => N name
  | .branch cond yes no => cond.Over N ∧ yes.Over N ∧ no.Over N
  | .define d => N d.name ∧ (∀ p ∈ d.params, N p) ∧ d.body.Over N
  | .fill _ arg => arg.Over N
  | .apply head ops => head.Over N ∧ ∀ e ∈ ops, e.Over N

theorem over_answer_error (err : EvalError) : Over N (.answer (.error err)) :=
  fun _ h => by cases h

theorem over_ofIf {ops : List Expr} (h : ∀ e ∈ ops, e.Over N) : (ofIf ops).Over N := by
  unfold ofIf
  split
  · exact ⟨h _ (by simp), h _ (by simp), h _ (by simp)⟩
  · exact over_answer_error _

theorem over_ofDefun {ops : List Expr} (h : ∀ e ∈ ops, e.Over N) : (ofDefun ops).Over N := by
  unfold ofDefun
  cases hd : Definition.ofOperands ops with
  | error err => exact over_answer_error _
  | ok d =>
    obtain ⟨rfl, -⟩ := (Definition.ofOperands_eq_ok_iff ops d).mp hd
    have hparams := (Expr.over_list_iff _).mp (h (.list (d.params.map .symbol)) (by simp))
    refine ⟨h (.symbol d.name) (by simp), fun p hp => ?_, h d.body (by simp)⟩
    exact hparams (.symbol p) (List.mem_map_of_mem hp)

theorem over_ofFormat {ops : List Expr} (h : ∀ e ∈ ops, e.Over N) : (ofFormat ops).Over N := by
  cases ops with
  | nil => exact over_answer_error _
  | cons dest ops =>
    rw [ofFormat]
    split
    · exact over_answer_error _
    · intro v hv
      cases hv
      trivial
    · rename_i words arg hsplit
      exact h arg (by simp [FormatText.mem_of_split hsplit arg (by simp)])
    · exact over_answer_error _

/-- What an expression asks for is over its vocabulary. -/
theorem over_of {e : Expr} (h : e.Over N) : (of e).Over N := by
  match e with
  | .int _ | .float _ =>
    intro v hv
    cases hv
    trivial
  | .symbol name => exact h
  | .list [] | .hole => exact over_answer_error _
  | .list (head :: ops) =>
    rw [Expr.over_list_iff] at h
    have hops : ∀ e ∈ ops, e.Over N := fun e he => h e (by simp [he])
    rw [of]
    rcases Keyword.ofHead? head with _ | _ | _ | _
    · exact ⟨h head (by simp), hops⟩
    · exact over_ofIf hops
    · exact over_ofDefun hops
    · exact over_ofFormat hops

end Eval.Plan

end FormLang
