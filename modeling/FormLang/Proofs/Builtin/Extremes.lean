import FormLang.Proofs.Builtin.Comparison

/-!
# The largest and the smallest argument

The search for an extreme goes through the arguments once and keeps the best so far. With integers and floats mixed, equality
of numbers is not transitive, so "at least as good as all before it" is not kept from one step to the next. What is kept is that
no argument so far is ranked strictly beyond the best one, because being strictly beyond is transitive (`Extremal.next`).

Integers are compared exactly. There the argument found is the first of the extreme ones (`First.next`).
-/

namespace FormLang.Extreme

/-- How a value is ordered to one that it is beyond. -/
def side : Extreme → Ordering
  | .largest => .gt
  | .smallest => .lt

/-- The first value is ranked strictly beyond the second. -/
def Beats (e : Extreme) (a b : Value) : Prop :=
  a.compare? b = some e.side

/-- One of the values, and none of them is ranked beyond it. -/
def Extremal (e : Extreme) (vs : List Value) (r : Value) : Prop :=
  r ∈ vs ∧ ∀ v ∈ vs, ¬ e.Beats v r

/-- The better of the best so far and the next value. -/
def next (e : Extreme) (best v : Value) : Value :=
  if e.improves (v.compare? best) then v else best

theorem search_cons (e : Extreme) (best v : Value) (vs : List Value) : e.search best (v :: vs) = e.search (e.next best v) vs :=
  rfl

theorem improves_iff {e : Extreme} {o : Option Ordering} : e.improves o = true ↔ o = some e.side := by
  cases e <;> exact beq_iff_eq

theorem next_of_beats {e : Extreme} {best v : Value} (h : e.Beats v best) : e.next best v = v :=
  if_pos (improves_iff.mpr h)

theorem next_of_not_beats {e : Extreme} {best v : Value} (h : ¬ e.Beats v best) : e.next best v = best :=
  if_neg (mt improves_iff.mp h)

/-! ## What is beyond -/

section beats

variable {e : Extreme} {a b c : Value}

theorem beats_iff (ha : a.Comparable) (hb : b.Comparable) : e.Beats a b ↔ a.order b = e.side := by
  rw [Beats, Value.compare?_eq ha hb, Option.some_inj]

theorem Beats.trans (ha : a.Comparable) (hb : b.Comparable) (hc : c.Comparable) (hab : e.Beats a b) (hbc : e.Beats b c) :
    e.Beats a c := by
  rw [beats_iff ha hb] at hab
  rw [beats_iff hb hc] at hbc
  rw [beats_iff ha hc]
  cases e with
  | smallest => exact Value.order_lt_trans hab hbc
  | largest =>
    change _ = Ordering.gt at *
    rw [← Value.order_swap, Ordering.swap_eq_gt] at *
    exact Value.order_lt_trans hbc hab

theorem not_beats_self (ha : a.Comparable) : ¬ e.Beats a a := by
  rw [beats_iff ha ha]
  intro h
  have hswap := a.order_swap a
  rw [h] at hswap
  cases e <;> cases hswap

theorem beats_iff_of_integers (ha : a.isInteger = true) (hb : b.isInteger = true) :
    e.Beats a b ↔ compare a.whole b.whole = e.side := by
  rw [beats_iff (Value.comparable_of_isInteger ha) (Value.comparable_of_isInteger hb), Value.order_of_integers ⟨ha, hb⟩]

/-- Of integers, what is beyond one value is beyond all that are not. -/
theorem beats_of_not_beats (ha : a.isInteger = true) (hb : b.isInteger = true) (hc : c.isInteger = true) (hab : e.Beats a b)
    (hcb : ¬ e.Beats c b) : e.Beats a c := by
  rw [beats_iff_of_integers ha hb] at hab
  rw [beats_iff_of_integers hc hb] at hcb
  rw [beats_iff_of_integers ha hc]
  cases e with
  | largest =>
    rw [side, Int.compare_eq_gt] at *
    omega
  | smallest =>
    rw [side, Int.compare_eq_lt] at *
    omega

end beats

/-! ## The search -/

/-- What holds of the first value and is kept by each step holds at the end of the search. -/
theorem search_induction (e : Extreme) {P : Value → Prop} {I : List Value → Value → Prop} {v : Value} {vs : List Value}
    (hfirst : I [v] v) (hstep : ∀ seen best w, P w → I seen best → I (seen ++ [w]) (e.next best w)) (hvs : ∀ w ∈ vs, P w) :
    I (v :: vs) (e.search v vs) := by
  have hrun : ∀ seen best, I seen best → I (seen ++ vs) (e.search best vs) := by
    induction vs with
    | nil =>
      intro seen best h
      simpa [search] using h
    | cons w vs ih =>
      intro seen best h
      rw [search_cons, List.append_cons]
      exact ih (fun u hu => hvs u (.tail _ hu)) _ _ (hstep seen best w (hvs w (.head _)) h)
  exact hrun [v] v hfirst

theorem forall_mem_snoc {P : Value → Prop} {seen : List Value} {v : Value} (hseen : ∀ w ∈ seen, P w) (hv : P v) :
    ∀ w ∈ seen ++ [v], P w := by
  intro w hw
  rcases List.mem_append.mp hw with hw | hw
  · exact hseen w hw
  · exact List.mem_singleton.mp hw ▸ hv

section step

variable {e : Extreme} {seen : List Value} {best v : Value}

theorem Extremal.next (hseen : ∀ w ∈ seen, w.Comparable) (hv : v.Comparable) (h : e.Extremal seen best) :
    e.Extremal (seen ++ [v]) (e.next best v) := by
  obtain ⟨hmem, hbest⟩ := h
  by_cases hbeats : e.Beats v best
  · rw [next_of_beats hbeats]
    refine ⟨by simp, forall_mem_snoc (fun w hw hwv => ?_) (not_beats_self hv)⟩
    exact hbest w hw (hwv.trans (hseen w hw) hv (hseen best hmem) hbeats)
  · rw [next_of_not_beats hbeats]
    exact ⟨List.mem_append_left _ hmem, forall_mem_snoc hbest hbeats⟩

/-- The value stands in the list and is beyond all that stand before it. -/
def First (e : Extreme) (vs : List Value) (r : Value) : Prop :=
  ∃ before after, vs = before ++ r :: after ∧ ∀ v ∈ before, e.Beats r v

theorem First.next (hseen : ∀ w ∈ seen, w.isInteger = true) (hv : v.isInteger = true) (hbest : e.Extremal seen best)
    (h : e.First seen best) : e.First (seen ++ [v]) (e.next best v) := by
  by_cases hbeats : e.Beats v best
  · rw [next_of_beats hbeats]
    exact ⟨seen, [], rfl, fun w hw => beats_of_not_beats hv (hseen best hbest.1) (hseen w hw) hbeats (hbest.2 w hw)⟩
  · rw [next_of_not_beats hbeats]
    obtain ⟨before, after, rfl, hbefore⟩ := h
    exact ⟨before, after ++ [v], by simp, hbefore⟩

end step

section search

variable (e : Extreme) {v : Value} {vs : List Value}

theorem extremal_singleton (hv : v.Comparable) : e.Extremal [v] v := by
  refine ⟨.head _, fun w hw => ?_⟩
  rw [List.mem_singleton.mp hw]
  exact not_beats_self hv

theorem extremal_search (h : ∀ w ∈ v :: vs, w.Comparable) : e.Extremal (v :: vs) (e.search v vs) := by
  obtain ⟨hv, hvs⟩ := List.forall_mem_cons.mp h
  refine (e.search_induction (I := fun seen best => (∀ w ∈ seen, w.Comparable) ∧ e.Extremal seen best) ?_ ?_ hvs).2
  · exact ⟨by simpa using hv, e.extremal_singleton hv⟩
  · intro seen best w hw ⟨hseen, hbest⟩
    exact ⟨forall_mem_snoc hseen hw, hbest.next hseen hw⟩

theorem first_search (h : ∀ w ∈ v :: vs, w.isInteger = true) : e.First (v :: vs) (e.search v vs) := by
  obtain ⟨hv, hvs⟩ := List.forall_mem_cons.mp h
  refine (e.search_induction
    (I := fun seen best => (∀ w ∈ seen, w.isInteger = true) ∧ e.Extremal seen best ∧ e.First seen best) ?_ ?_ hvs).2.2
  · exact ⟨by simpa using hv, e.extremal_singleton (Value.comparable_of_isInteger hv), [], [], rfl, by simp⟩
  · intro seen best w hw ⟨hseen, hbest, hfirst⟩
    have hcomparable : ∀ u ∈ seen, u.Comparable := fun u hu => Value.comparable_of_isInteger (hseen u hu)
    exact ⟨forall_mem_snoc hseen hw, hbest.next hcomparable (Value.comparable_of_isInteger hw), hfirst.next hseen hw hbest⟩

end search

theorem returns_search (registry : Nat) (e : Extreme) {v : Value} {vs : List Value}
    (h : ∀ w ∈ v :: vs, w.isNumber = true) : Returns registry e.name (v :: vs) (e.search v vs) := by
  have happly : e.apply (v :: vs) = .ok (e.search v vs) := by
    rw [apply, checkOperands_eq_ok _ h]
  cases e with
  | largest => exact returns_of_apply rfl (by simp [Builtin.takes]) happly
  | smallest => exact returns_of_apply rfl (by simp [Builtin.takes]) happly

/-- The largest and the smallest of some numbers is one of them, as it is, and none is ranked beyond it. Of integers it is the
first such one. -/
theorem extreme_returned (registry : Nat) (e : Extreme) (args : List Value) (hne : args ≠ [])
    (hargs : ∀ v ∈ args, v.Comparable) :
    ∃ r, Returns registry e.name args r ∧ e.Extremal args r ∧
      ((∀ v ∈ args, v.isInteger = true) →
        ∃ before after, args = before ++ r :: after ∧ ∀ v ∈ before, ¬ e.Extremal args v) := by
  obtain ⟨v, vs, rfl⟩ := List.exists_cons_of_ne_nil hne
  have hbest := e.extremal_search hargs
  refine ⟨_, returns_search registry e fun w hw => (hargs w hw).1, hbest, fun hints => ?_⟩
  obtain ⟨before, after, heq, hbefore⟩ := e.first_search hints
  exact ⟨before, after, heq, fun w hw hextreme => hextreme.2 _ hbest.1 (hbefore w hw)⟩

/-- Two different integers, a float that both are equal to, and a truth value. -/
def straddling : List Value :=
  [.int 9007199254740992, .float (Binary64.ofInt64 9007199254740992), .int 9007199254740993, .bool true]

theorem comparable_straddling : ∀ v ∈ straddling, v.Comparable := by
  intro v hv
  simp only [straddling, List.mem_cons, List.not_mem_nil, or_false] at hv
  rcases hv with rfl | rfl | rfl | rfl
  · exact Value.comparable_of_isInteger rfl
  · exact ⟨rfl, Binary64.isNaN_ofInt64 9007199254740992⟩
  · exact Value.comparable_of_isInteger rfl
  · exact Value.comparable_of_isInteger rfl

/-- Both extremes of the mixed values, and the first of two equal integers. -/
theorem extreme_returned_straddling :
    (∀ e : Extreme, ∃ r, Returns 0 e.name straddling r ∧ e.Extremal straddling r) ∧
      ∃ r, Returns 0 "max" [.int 0, .bool true, .int 1] r ∧ largest.Extremal [.int 0, .bool true, .int 1] r ∧
        ∃ before after, [.int 0, .bool true, .int 1] = before ++ r :: after ∧
          ∀ v ∈ before, ¬ largest.Extremal [.int 0, .bool true, .int 1] v := by
  have hints : ∀ v ∈ [Value.int 0, .bool true, .int 1], v.isInteger = true := by
    simp [Value.isInteger]
  constructor
  · intro e
    obtain ⟨r, hreturns, hextreme, -⟩ := extreme_returned 0 e straddling (by simp [straddling]) comparable_straddling
    exact ⟨r, hreturns, hextreme⟩
  · obtain ⟨r, hreturns, hextreme, hfirst⟩ := extreme_returned 0 .largest [.int 0, .bool true, .int 1] (by simp)
      fun v hv => Value.comparable_of_isInteger (hints v hv)
    exact ⟨r, hreturns, hextreme, hfirst hints⟩

end FormLang.Extreme
