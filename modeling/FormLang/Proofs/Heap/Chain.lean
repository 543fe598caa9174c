import Mathlib.Logic.Relation
import FormLang.Proofs.Heap
import FormLang.Proofs.Text.Order

/-!
# Chains of scopes

A heap of scopes is built by opening scopes and binding names in them (`Heap.Built`). In each such heap every link leads to an
earlier scope and every scope binds each name once (`Heap.WellFormed`).

The scopes around a scope form a chain, and different chains may share their outer part. A name is looked up in the nearest
scope of the chain that binds it (`get?_eq_some_iff`). So a name bound in one scope is seen from exactly those scopes whose
chain leads there past no other scope that binds it (`get?_bind_of_sees`), and every other look-up is what it was
(`get?_bind_of_not_sees`).
-/

namespace FormLang

/-! ## Names of bindings -/

namespace Bindings

/-- The names that are bound. -/
def domain (b : Bindings) : List String :=
  b.map Prod.fst

theorem domain_insert (b : Bindings) (x : String) (v : Value) :
    (b.insert x v).domain = if x ∈ b.domain then b.domain else b.domain ++ [x] := by
  induction b with
  | nil => rfl
  | cons p rest ih =>
    obtain ⟨y, w⟩ := p
    have hcons (b : Bindings) (w : Value) : domain ((y, w) :: b) = y :: b.domain := rfl
    rw [Bindings.insert]
    by_cases hy : y = x
    · rw [if_pos hy, ← hy, hcons, hcons, if_pos (.head _)]
    · rw [if_neg hy, hcons, hcons, ih]
      by_cases hmem : x ∈ domain rest <;> simp [hmem, Ne.symm hy]

theorem nodup_insert {b : Bindings} (h : b.domain.Nodup) (x : String) (v : Value) : (b.insert x v).domain.Nodup := by
  rw [domain_insert]
  split
  · exact h
  case isFalse hmem =>
    refine List.nodup_append.mpr ⟨h, by simp, ?_⟩
    intro y hy z hz
    rw [List.mem_singleton.mp hz]
    exact fun heq => hmem (heq ▸ hy)

theorem nodup_insertAll {b : Bindings} (h : b.domain.Nodup) (pairs : List (String × Value)) :
    (b.insertAll pairs).domain.Nodup := by
  induction pairs generalizing b with
  | nil => exact h
  | cons p pairs ih => exact ih (nodup_insert h p.1 p.2)

theorem isSome_lookup_iff {b : Bindings} {x : String} : (b.lookup x).isSome = true ↔ x ∈ b.domain := by
  simp only [List.lookup_isSome_iff, domain, List.mem_map, beq_iff_eq, eq_comm (a := x)]

end Bindings

namespace Heap

/-! ## Building a heap -/

/-- What is done to a heap of scopes. -/
inductive Action where
  | new (outer : Option ScopeId)
  | newWith (outer : Option ScopeId) (names : List String) (values : List Value)
  | child (s : ScopeId)
  | bind (s : ScopeId) (name : String) (v : Value)
  | bindAll (s : ScopeId) (names : List String) (values : List Value)

namespace Action

/-- The heap that an action leaves, whether it fails or not. -/
def after (h : Heap) : Action → Heap
  | .new outer => h.push outer
  | .newWith outer names values => (h.pushWith outer names values).1
  | .child s => h.push (some s)
  | .bind s name v => h.bind s name v
  | .bindAll s names values => (h.bindAll s names values).1

/-- The scopes that the action names are there. -/
def Refers (h : Heap) : Action → Prop
  | .new outer | .newWith outer _ _ => ∀ s ∈ outer, s < h.size
  | .child s | .bind s _ _ | .bindAll s _ _ => s < h.size

end Action

/-- A heap built from nothing by actions on the scopes there are. -/
inductive Built : Heap → Prop
  | empty : Built empty
  | step {h : Heap} (a : Action) (hrefers : a.Refers h) (hbuilt : Built h) : Built (a.after h)

/-- Every link leads to an earlier scope, and every scope binds each name once. -/
structure WellFormed (h : Heap) : Prop where
  ordered : h.Ordered
  distinct : ∀ s, (h.bindings s).domain.Nodup

namespace WellFormed

theorem of_empty : WellFormed empty where
  ordered s o ho := by
    rw [outer?_of_size_le empty (Nat.zero_le s)] at ho
    cases ho
  distinct s := by
    rw [bindings_of_size_le empty (Nat.zero_le s)]
    exact .nil

variable {h : Heap}

theorem push (hwell : h.WellFormed) {outer : Option ScopeId} (houter : ∀ s ∈ outer, s < h.size) :
    (h.push outer).WellFormed where
  ordered := hwell.ordered.pushInside houter
  distinct s := by
    rcases Nat.lt_trichotomy s h.size with hs | rfl | hs
    · rw [bindings_push_of_lt h outer hs]
      exact hwell.distinct s
    · rw [bindings_push_size]
      exact .nil
    · rw [bindings_of_size_le _ (by rw [size_push]; exact hs)]
      exact .nil

theorem bindPairs (hwell : h.WellFormed) {s : ScopeId} (hs : s < h.size) (pairs : List (String × Value)) :
    (h.bindPairs s pairs).WellFormed where
  ordered := hwell.ordered.bindPairs s pairs
  distinct t := by
    by_cases ht : t = s
    · rw [ht, bindings_bindPairs_self h hs]
      exact Bindings.nodup_insertAll (hwell.distinct s) pairs
    · rw [bindings_bindPairs_of_ne h ht]
      exact hwell.distinct t

end WellFormed

/-! ### Names and values in pairs -/

section pairing

variable (h : Heap) (s : ScopeId) (outer : Option ScopeId) {names : List String} {values : List Value}

theorem bindAll_of_length_eq (hlength : names.length = values.length) :
    h.bindAll s names values = (h.bindPairs s (names.zip values), .ok ()) := by
  rw [bindAll, if_pos hlength]

theorem bindAll_of_length_ne (hlength : names.length ≠ values.length) :
    h.bindAll s names values = (h, .error (.pairing names.length values.length)) := by
  rw [bindAll, if_neg hlength]

theorem pop_push : (h.push outer).pop = h := by
  refine eq_of_scopes_of_functions ?_ rfl
  rw [pop, push, Array.pop_push]

theorem pushWith_of_length_eq (hlength : names.length = values.length) :
    h.pushWith outer names values = ((h.push outer).bindPairs h.size (names.zip values), .ok h.size) := by
  rw [pushWith, bindAll_of_length_eq _ _ hlength]

/-- A scope whose names cannot be bound is dropped again. -/
theorem pushWith_of_length_ne (hlength : names.length ≠ values.length) :
    h.pushWith outer names values = (h, .error (.pairing names.length values.length)) := by
  rw [pushWith, bindAll_of_length_ne _ _ hlength]
  simp only [pop_push]

end pairing

theorem Action.wellFormed_after {h : Heap} {a : Action} (hrefers : a.Refers h) (hwell : h.WellFormed) :
    (a.after h).WellFormed := by
  cases a with
  | new outer => exact hwell.push hrefers
  | newWith outer names values =>
    rw [after]
    by_cases hlength : names.length = values.length
    · rw [pushWith_of_length_eq h outer hlength]
      exact (hwell.push hrefers).bindPairs (by simp) _
    · rw [pushWith_of_length_ne h outer hlength]
      exact hwell
  | child s => exact hwell.push fun o ho => by rwa [← Option.mem_some.mp ho]
  | bind s name v => exact hwell.bindPairs hrefers _
  | bindAll s names values =>
    rw [after]
    by_cases hlength : names.length = values.length
    · rw [bindAll_of_length_eq h s hlength]
      exact hwell.bindPairs hrefers _
    · rw [bindAll_of_length_ne h s hlength]
      exact hwell

theorem Built.wellFormed {h : Heap} (hbuilt : h.Built) : h.WellFormed := by
  induction hbuilt with
  | empty => exact .of_empty
  | step a hrefers _ ih => exact a.wellFormed_after hrefers ih

/-! ## The scopes of a chain -/

/-- The second scope is the one around the first. -/
def Link (h : Heap) (s o : ScopeId) : Prop :=
  h.outer? s = some o

/-- The second scope is the first or lies around it. -/
def OnChain (h : Heap) : ScopeId → ScopeId → Prop :=
  Relation.ReflTransGen h.Link

/-- The second scope is on the chain of the first, and no nearer scope of the chain binds the name. -/
def Sees (h : Heap) (x : String) (t s : ScopeId) : Prop :=
  h.OnChain t s ∧ ∀ u, h.OnChain t u → Relation.TransGen h.Link u s → h.getLocal? u x = none

section chain

variable {h : Heap} (hord : h.Ordered)

include hord

theorem Ordered.lt_of_transGen {s t : ScopeId} (hst : Relation.TransGen h.Link s t) : t < s := by
  induction hst with
  | single hlink => exact hord _ _ hlink
  | tail _ hlink ih => exact Nat.lt_trans (hord _ _ hlink) ih

theorem Ordered.acyclic (s : ScopeId) : ¬ Relation.TransGen h.Link s s :=
  fun hcycle => Nat.lt_irrefl s (hord.lt_of_transGen hcycle)

theorem Ordered.sees_self (x : String) (s : ScopeId) : h.Sees x s s :=
  ⟨.refl, fun _ hchain hlinks => absurd (.trans_right hchain hlinks) (hord.acyclic s)⟩

end chain

theorem Sees.outward {h : Heap} {x : String} {t o s : ScopeId} (hnone : h.getLocal? t x = none) (ho : h.outer? t = some o)
    (hsees : h.Sees x o s) : h.Sees x t s := by
  refine ⟨.head ho hsees.1, fun u hu hlinks => ?_⟩
  rcases hu.cases_head with rfl | ⟨o', ho', hu⟩
  · exact hnone
  · obtain rfl : o = o' := Option.some.inj (ho.symm.trans ho')
    exact hsees.2 u hu hlinks

/-- A scope sees itself, and past itself what the scope around it sees. -/
theorem Ordered.sees_iff {h : Heap} (hord : h.Ordered) {x : String} {t s : ScopeId} :
    h.Sees x t s ↔ t = s ∨ (h.getLocal? t x = none ∧ ∃ o, h.outer? t = some o ∧ h.Sees x o s) := by
  constructor
  · rintro ⟨hchain, hnearer⟩
    rcases hchain.cases_head with rfl | ⟨o, ho, hchain⟩
    · exact .inl rfl
    · refine .inr ⟨hnearer t .refl (.head' ho hchain), o, ho, hchain, fun u hu => hnearer u (.head ho hu)⟩
  · rintro (rfl | ⟨hnone, o, ho, hsees⟩)
    · exact hord.sees_self x t
    · exact hsees.outward hnone ho

/-! ## Look-up -/

section lookup

variable {h : Heap} (hord : h.Ordered)

include hord

theorem Ordered.get?_of_local {t : ScopeId} {x : String} {v : Value} (hlocal : h.getLocal? t x = some v) :
    h.get? t x = some v := by
  rw [getLocal?] at hlocal
  rw [hord.get?_eq, hlocal]
  rfl

theorem Ordered.get?_of_outer {t o : ScopeId} {x : String} (hlocal : h.getLocal? t x = none) (ho : h.outer? t = some o) :
    h.get? t x = h.get? o x := by
  rw [getLocal?] at hlocal
  rw [hord.get?_eq, hlocal, ho]
  rfl

theorem Ordered.get?_of_root {t : ScopeId} {x : String} (hlocal : h.getLocal? t x = none) (ho : h.outer? t = none) :
    h.get? t x = none := by
  rw [getLocal?] at hlocal
  rw [hord.get?_eq, hlocal, ho]
  rfl

/-- A name has the value that it is bound to in the nearest scope that binds it. -/
theorem Ordered.get?_eq_some_iff (t : ScopeId) (x : String) (v : Value) :
    h.get? t x = some v ↔ ∃ s, h.Sees x t s ∧ h.getLocal? s x = some v := by
  constructor
  · intro hget
    induction t using Nat.strongRecOn with
    | ind t ih =>
      cases hlocal : h.getLocal? t x with
      | some w =>
        rw [hord.get?_of_local hlocal] at hget
        exact ⟨t, hord.sees_self x t, hlocal.trans hget⟩
      | none =>
        cases ho : h.outer? t with
        | none =>
          rw [hord.get?_of_root hlocal ho] at hget
          cases hget
        | some o =>
          rw [hord.get?_of_outer hlocal ho] at hget
          obtain ⟨s, hsees, hs⟩ := ih o (hord t o ho) hget
          exact ⟨s, hsees.outward hlocal ho, hs⟩
  · rintro ⟨s, hsees, hs⟩
    induction t using Nat.strongRecOn with
    | ind t ih =>
      rcases hord.sees_iff.mp hsees with rfl | ⟨hlocal, o, ho, hsees⟩
      · exact hord.get?_of_local hs
      · rw [hord.get?_of_outer hlocal ho]
        exact ih o (hord t o ho) hsees

/-- A name has a value as soon as a scope of the chain binds it. -/
theorem Ordered.has_iff {t : ScopeId} {x : String} : h.has t x = true ↔ ∃ s, h.OnChain t s ∧ h.hasLocal s x = true := by
  constructor
  · intro hhas
    obtain ⟨v, hv⟩ := Option.isSome_iff_exists.mp hhas
    obtain ⟨s, hsees, hs⟩ := (hord.get?_eq_some_iff t x v).mp hv
    exact ⟨s, hsees.1, Option.isSome_iff_exists.mpr ⟨v, hs⟩⟩
  · rintro ⟨s, hchain, hs⟩
    have hsome : ∀ t v, h.getLocal? t x = some v → h.has t x = true := by
      intro t v hlocal
      rw [has, hord.get?_of_local hlocal]
      rfl
    -- From the binding scope inwards, each scope binds the name itself or takes it from the one around it.
    induction hchain using Relation.ReflTransGen.head_induction_on with
    | refl =>
      obtain ⟨v, hv⟩ := Option.isSome_iff_exists.mp hs
      exact hsome s v hv
    | @head t o ho _ ih =>
      cases hlocal : h.getLocal? t x with
      | some v => exact hsome t v hlocal
      | none => rwa [has, hord.get?_of_outer hlocal ho]

end lookup

theorem find_eq_ok_iff {h : Heap} {t : ScopeId} {x : String} {v : Value} : h.find t x = .ok v ↔ h.get? t x = some v := by
  rw [find]
  cases h.get? t x <;> simp

theorem find_eq_error_iff {h : Heap} {t : ScopeId} {x : String} {e : EvalError} :
    h.find t x = .error e ↔ h.get? t x = none ∧ e = .unbound x := by
  rw [find]
  cases h.get? t x <;> simp [eq_comm]

theorem mem_names_iff {h : Heap} {s : ScopeId} {x : String} : x ∈ h.names s ↔ h.hasLocal s x = true :=
  Text.mem_sort.trans Bindings.isSome_lookup_iff.symm

theorem WellFormed.ascending_names {h : Heap} (hwell : h.WellFormed) (s : ScopeId) : Text.Ascending (h.names s) :=
  Text.ascending_sort (hwell.distinct s)

/-! ## Binding one name -/

section bind

variable {h : Heap} {s t : ScopeId} {x y : String} {v : Value}

theorem getLocal?_bind_self (hs : s < h.size) : (h.bind s x v).getLocal? s y = if y = x then some v else h.getLocal? s y := by
  rw [getLocal?, bind, bindings_bindPairs_self h hs]
  exact Bindings.lookup_insert _ x y v

theorem getLocal?_bind_of_ne (hne : t ≠ s) : (h.bind s x v).getLocal? t y = h.getLocal? t y := by
  rw [getLocal?, bind, bindings_bindPairs_of_ne h hne, getLocal?]

theorem outer?_bind : (h.bind s x v).outer? t = h.outer? t :=
  outer?_bindPairs h s t [(x, v)]

theorem Ordered.get?_bind_of_sees (hord : h.Ordered) (hs : s < h.size) (hsees : h.Sees x t s) :
    (h.bind s x v).get? t x = some v := by
  have hord' : (h.bind s x v).Ordered := hord.bindPairs s [(x, v)]
  induction t using Nat.strongRecOn with
  | ind t ih =>
    by_cases ht : t = s
    · rw [ht]
      exact hord'.get?_of_local (by rw [getLocal?_bind_self hs, if_pos rfl])
    · rcases hord.sees_iff.mp hsees with rfl | ⟨hlocal, o, ho, hsees⟩
      · exact absurd rfl ht
      · rw [hord'.get?_of_outer ((getLocal?_bind_of_ne ht).trans hlocal) (outer?_bind.trans ho)]
        exact ih o (hord t o ho) hsees

theorem Ordered.get?_bind_of_not_sees (hord : h.Ordered) (hs : s < h.size) (hnot : ¬ (y = x ∧ h.Sees x t s)) :
    (h.bind s x v).get? t y = h.get? t y := by
  have hord' : (h.bind s x v).Ordered := hord.bindPairs s [(x, v)]
  induction t using Nat.strongRecOn with
  | ind t ih =>
    have hlocal : (h.bind s x v).getLocal? t y = h.getLocal? t y := by
      by_cases ht : t = s
      · have hne : y ≠ x := fun hyx => hnot ⟨hyx, ht ▸ hord.sees_self x t⟩
        rw [ht, getLocal?_bind_self hs, if_neg hne]
      · exact getLocal?_bind_of_ne ht
    cases hbefore : h.getLocal? t y with
    | some w => rw [hord.get?_of_local hbefore, hord'.get?_of_local (hlocal.trans hbefore)]
    | none =>
      cases ho : h.outer? t with
      | none => rw [hord.get?_of_root hbefore ho, hord'.get?_of_root (hlocal.trans hbefore) (outer?_bind.trans ho)]
      | some o =>
        rw [hord.get?_of_outer hbefore ho, hord'.get?_of_outer (hlocal.trans hbefore) (outer?_bind.trans ho)]
        refine ih o (hord t o ho) fun ⟨hyx, hsees⟩ => hnot ⟨hyx, ?_⟩
        exact hsees.outward (hyx ▸ hbefore) ho

end bind

/-! ## Binding several names -/

/-- Binds the pairs one after the other. -/
def bindEach (h : Heap) (s : ScopeId) (pairs : List (String × Value)) : Heap :=
  pairs.foldl (fun h p => h.bind s p.1 p.2) h

theorem bindPairs_nil (h : Heap) (s : ScopeId) : h.bindPairs s [] = h :=
  eq_of_scopes_of_functions (scopes_bindPairs_nil h s) rfl

theorem bindPairs_bind (h : Heap) (s : ScopeId) (x : String) (v : Value) (pairs : List (String × Value)) :
    (h.bind s x v).bindPairs s pairs = h.bindPairs s ((x, v) :: pairs) := by
  refine eq_of_scopes_of_functions (Array.ext_getElem? fun t => ?_) rfl
  rw [bind, scopes_bindPairs, scopes_bindPairs, scopes_bindPairs]
  by_cases hst : s = t
  · rw [if_pos hst, if_pos hst, if_pos hst, Option.map_map]
    rfl
  · rw [if_neg hst, if_neg hst, if_neg hst]

theorem bindPairs_eq_bindEach (h : Heap) (s : ScopeId) (pairs : List (String × Value)) :
    h.bindPairs s pairs = h.bindEach s pairs := by
  induction pairs generalizing h with
  | nil => exact bindPairs_nil h s
  | cons p pairs ih =>
    rw [← bindPairs_bind, ih]
    rfl

/-! ## All laws together -/

/-- The laws of scopes that see the nearest binding of a name. -/
structure NearestBinding (h : Heap) : Prop where
  acyclic : ∀ s, ¬ Relation.TransGen h.Link s s
  get : ∀ t x v, h.get? t x = some v ↔ ∃ s, h.Sees x t s ∧ h.getLocal? s x = some v
  bind_seen : ∀ s t x v, s < h.size → h.Sees x t s → (h.bind s x v).get? t x = some v
  bind_unseen : ∀ s t x y v, s < h.size → ¬ (y = x ∧ h.Sees x t s) → (h.bind s x v).get? t y = h.get? t y
  bindAll : ∀ s (names : List String) (values : List Value), names.length = values.length →
    h.bindAll s names values = (h.bindEach s (names.zip values), .ok ())
  newWith : ∀ outer (names : List String) (values : List Value), names.length = values.length →
    h.pushWith outer names values = ((h.push outer).bindEach h.size (names.zip values), .ok h.size)
  /-- The last pair of a name counts. -/
  last : ∀ s pairs x, s < h.size → (h.bindEach s pairs).getLocal? s x = (pairs.reverse.lookup x).or (h.getLocal? s x)
  /-- Unequal numbers of names and values are an error of arity that leaves the heap as it is. -/
  mismatch : ∀ s outer (names : List String) (values : List Value), names.length ≠ values.length → ∃ e : EvalError,
    e.code = .arity ∧ h.bindAll s names values = (h, .error e) ∧ h.pushWith outer names values = (h, .error e)
  has : ∀ t x, (h.has t x = true ↔ ∃ v, h.get? t x = some v) ∧
    (h.has t x = true ↔ ∃ s, h.OnChain t s ∧ h.hasLocal s x = true)
  hasLocal : ∀ s x, h.hasLocal s x = true ↔ ∃ v, h.getLocal? s x = some v
  find : ∀ t x v, h.find t x = .ok v ↔ h.get? t x = some v
  find_unbound : ∀ t x e, h.find t x = .error e ↔ h.get? t x = none ∧ e = .unbound x
  names : ∀ s, Text.Ascending (h.names s) ∧ (h.names s).Nodup ∧ ∀ x, x ∈ h.names s ↔ h.hasLocal s x = true

/-- **A name has the value of its nearest binding.** In every heap that is built by opening scopes and binding names, no chain
of scopes is a cycle, and a name is looked up in the nearest scope of the chain that binds it. Binding a name changes the
look-ups that end in its scope and no other. Names and values in pairs are bound from left to right, or not at all if there are
more of the one than of the other. -/
theorem nearestBinding_of_built (h : Heap) (hbuilt : h.Built) : h.NearestBinding where
  acyclic := hbuilt.wellFormed.ordered.acyclic
  get := hbuilt.wellFormed.ordered.get?_eq_some_iff
  bind_seen _ _ _ _ hs := hbuilt.wellFormed.ordered.get?_bind_of_sees hs
  bind_unseen _ _ _ _ _ hs := hbuilt.wellFormed.ordered.get?_bind_of_not_sees hs
  bindAll s _ _ hlength := by rw [← bindPairs_eq_bindEach, bindAll_of_length_eq h s hlength]
  newWith outer _ _ hlength := by rw [← bindPairs_eq_bindEach, pushWith_of_length_eq h outer hlength]
  last s pairs x hs := by
    rw [← bindPairs_eq_bindEach]
    exact h.getLocal?_bindPairs_self hs pairs x
  mismatch s outer _ _ hlength :=
    ⟨_, rfl, bindAll_of_length_ne h s hlength, pushWith_of_length_ne h outer hlength⟩
  has _ _ := ⟨Option.isSome_iff_exists, hbuilt.wellFormed.ordered.has_iff⟩
  hasLocal _ _ := Option.isSome_iff_exists
  find _ _ _ := find_eq_ok_iff
  find_unbound _ _ _ := find_eq_error_iff
  names s := by
    have hascending := hbuilt.wellFormed.ascending_names s
    exact ⟨hascending, hascending.imp Text.ne_of_precedes, fun _ => mem_names_iff⟩

/-- Two scopes inside a third, one of which binds a name. -/
def siblings : Heap :=
  (((empty.push none).push (some 0)).push (some 0)).bind 2 "x" (.int 1)

theorem built_siblings : siblings.Built :=
  .step (.bind 2 "x" (.int 1)) (by decide : 2 < 3) <| .step (.child 0) (by decide : 0 < 2) <|
    .step (.child 0) (by decide : 0 < 1) <| .step (.new none) (fun _ h => nomatch h) .empty

/-- A name bound in the outer scope is seen from the scope that does not bind it, and not from the one that does. -/
theorem nearestBinding_of_built_siblings :
    siblings.Built ∧ (siblings.bind 0 "x" (.int 2)).get? 1 "x" = some (.int 2) ∧
      (siblings.bind 0 "x" (.int 2)).get? 2 "x" = siblings.get? 2 "x" := by
  have hlaws := nearestBinding_of_built siblings built_siblings
  have hord := built_siblings.wellFormed.ordered
  have hseen : siblings.Sees "x" 1 0 := (hord.sees_self "x" 0).outward (by decide +kernel) (by decide +kernel)
  have hunseen : ¬ siblings.Sees "x" 2 0 := by
    intro hsees
    rcases hord.sees_iff.mp hsees with heq | ⟨hnone, -⟩
    · cases heq
    · exact absurd hnone (by decide +kernel)
  exact ⟨built_siblings, hlaws.bind_seen 0 1 "x" (.int 2) (by decide) hseen,
    hlaws.bind_unseen 0 2 "x" "x" (.int 2) (by decide) fun h => hunseen h.2⟩

end Heap

end FormLang
