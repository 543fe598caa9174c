import FormLang.Scope

/-!
# Heaps of scopes

What the operations on a heap do, said through two views: the bindings of each single scope, and the value that a name
has along a chain. The second view needs chains that end, so it is about heaps whose links all lead to earlier scopes
(`Heap.Ordered`); every heap that is built by opening scopes inside existing ones is of this kind.

* `bindPairs` touches the scope it names and no other (`scopes_bindPairs_of_ne`).
* A scope that is opened, bound in and closed again leaves no trace (`scopes_pop_bindPairs_push`).
* Binding in a scope, and opening an empty scope inside it, change what is visible from there as one would expect
  (`get?_bindPairs_self`, `get?_push_size`).
-/

namespace FormLang

/-! ## Bindings -/

namespace Bindings

theorem lookup_cons (b : Bindings) (x y : String) (v : Value) :
    ((x, v) :: b).lookup y = if y = x then some v else b.lookup y := by
  rw [List.lookup_cons]
  by_cases h : y = x
  · simp [h]
  · have hb : (y == x) = false := beq_false_of_ne h
    rw [hb, if_neg h]

theorem lookup_insert (b : Bindings) (x y : String) (v : Value) :
    (b.insert x v).lookup y = if y = x then some v else b.lookup y := by
  induction b with
  | nil => exact lookup_cons [] x y v
  | cons p rest ih =>
    obtain ⟨z, w⟩ := p
    rw [Bindings.insert, lookup_cons]
    by_cases hz : z = x
    · rw [if_pos hz, lookup_cons]
      by_cases h : y = x <;> simp [h, hz]
    · rw [if_neg hz, lookup_cons, ih]
      by_cases hy : y = z
      · simp [hy, hz]
      · simp [hy]

@[simp] theorem insertAll_nil (b : Bindings) : b.insertAll [] = b := rfl

/-- After some pairs are bound the last of them for a name counts, and without one what was bound before. -/
theorem lookup_insertAll (b : Bindings) (pairs : List (String × Value)) (x : String) :
    (b.insertAll pairs).lookup x = (pairs.reverse.lookup x).or (b.lookup x) := by
  induction pairs generalizing b with
  | nil => simp
  | cons p rest ih =>
    obtain ⟨y, v⟩ := p
    have hstep : b.insertAll ((y, v) :: rest) = (b.insert y v).insertAll rest := rfl
    rw [hstep, ih, lookup_insert, List.reverse_cons, List.lookup_append]
    rw [Option.or_assoc, lookup_cons]
    by_cases h : x = y <;> simp [h]

end Bindings

namespace Heap

theorem eq_of_scopes_of_functions {h h' : Heap} (hscopes : h.scopes = h'.scopes)
    (hfunctions : h.functions = h'.functions) : h = h' := by
  cases h
  cases h'
  cases hscopes
  cases hfunctions
  rfl

/-! ## Single scopes -/

@[simp] theorem size_push (h : Heap) (o : Option ScopeId) : (h.push o).size = h.size + 1 := by
  simp [push, size]

@[simp] theorem size_bindPairs (h : Heap) (s : ScopeId) (pairs : List (String × Value)) :
    (h.bindPairs s pairs).size = h.size := by
  simp [bindPairs, size]

theorem scopes_bindPairs (h : Heap) (s t : ScopeId) (pairs : List (String × Value)) :
    (h.bindPairs s pairs).scopes[t]? =
      if s = t then h.scopes[t]?.map fun sc => { sc with bindings := sc.bindings.insertAll pairs }
      else h.scopes[t]? := by
  simp [bindPairs, Array.getElem?_modify]

theorem scopes_bindPairs_of_ne (h : Heap) {s t : ScopeId} (hne : t ≠ s) (pairs : List (String × Value)) :
    (h.bindPairs s pairs).scopes[t]? = h.scopes[t]? := by
  rw [scopes_bindPairs, if_neg (Ne.symm hne)]

@[simp] theorem scopes_bindPairs_nil (h : Heap) (s : ScopeId) : (h.bindPairs s []).scopes = h.scopes := by
  refine Array.ext_getElem? fun t => ?_
  rw [scopes_bindPairs]
  by_cases hst : s = t
  · rw [if_pos hst]
    cases h.scopes[t]? <;> rfl
  · rw [if_neg hst]

theorem bindings_bindPairs_self (h : Heap) {s : ScopeId} (hs : s < h.size) (pairs : List (String × Value)) :
    (h.bindPairs s pairs).bindings s = (h.bindings s).insertAll pairs := by
  have hget : h.scopes[s]? = some h.scopes[s] := Array.getElem?_eq_getElem hs
  simp [bindings, scopes_bindPairs, hget]

theorem getLocal?_bindPairs_self (h : Heap) {s : ScopeId} (hs : s < h.size) (pairs : List (String × Value))
    (x : String) : (h.bindPairs s pairs).getLocal? s x = (pairs.reverse.lookup x).or (h.getLocal? s x) := by
  rw [getLocal?, bindings_bindPairs_self h hs, Bindings.lookup_insertAll, getLocal?]

theorem scopes_bindPairs_congr {h h' : Heap} (heq : h'.scopes = h.scopes) (s : ScopeId)
    (pairs : List (String × Value)) : (h'.bindPairs s pairs).scopes = (h.bindPairs s pairs).scopes := by
  rw [bindPairs, bindPairs, heq]

theorem outer?_bindPairs (h : Heap) (s t : ScopeId) (pairs : List (String × Value)) :
    (h.bindPairs s pairs).outer? t = h.outer? t := by
  rw [outer?, outer?, scopes_bindPairs]
  by_cases hst : s = t
  · rw [if_pos hst]
    cases h.scopes[t]? <;> rfl
  · rw [if_neg hst]

/-- A scope that is opened, bound in and closed again leaves no trace. -/
theorem scopes_pop_bindPairs_push (h : Heap) (o : Option ScopeId) (pairs : List (String × Value)) :
    ((h.push o).bindPairs h.size pairs).pop.scopes = h.scopes := by
  refine Array.ext_getElem? fun t => ?_
  have hsize : ((h.push o).bindPairs h.size pairs).scopes.size = h.size + 1 := by
    have h2 := size_bindPairs (h.push o) h.size pairs
    rwa [size_push] at h2
  rw [pop, Array.getElem?_pop, hsize, Nat.add_sub_cancel]
  by_cases ht : t < h.size
  · rw [if_pos ht, scopes_bindPairs_of_ne _ (Nat.ne_of_lt ht), push, Array.getElem?_push_lt ht]
    exact (Array.getElem?_eq_getElem ht).symm
  · rw [if_neg ht]
    exact (Array.getElem?_eq_none (Nat.le_of_not_lt ht)).symm

theorem bindings_push_of_lt (h : Heap) (o : Option ScopeId) {s : Nat} (hs : s < h.size) :
    (h.push o).bindings s = h.bindings s := by
  have hne : s ≠ h.scopes.size := Nat.ne_of_lt hs
  simp [bindings, push, Array.getElem?_push, hne]

theorem outer?_push_of_lt (h : Heap) (o : Option ScopeId) {s : Nat} (hs : s < h.size) :
    (h.push o).outer? s = h.outer? s := by
  have hne : s ≠ h.scopes.size := Nat.ne_of_lt hs
  simp [outer?, push, Array.getElem?_push, hne]

@[simp] theorem bindings_push_size (h : Heap) (o : Option ScopeId) : (h.push o).bindings h.size = [] := by
  simp [bindings, push, size]

@[simp] theorem outer?_push_size (h : Heap) (o : Option ScopeId) : (h.push o).outer? h.size = o := by
  simp [outer?, push, size]

theorem outer?_of_size_le (h : Heap) {s : Nat} (hs : h.size ≤ s) : h.outer? s = none := by
  rw [outer?, Array.getElem?_eq_none hs, Option.bind_none]

theorem bindings_of_size_le (h : Heap) {s : Nat} (hs : h.size ≤ s) : h.bindings s = [] := by
  rw [bindings, Array.getElem?_eq_none hs, Option.map_none, Option.getD_none]

theorem bindings_bindPairs_of_ne (h : Heap) {s t : ScopeId} (hne : t ≠ s) (pairs : List (String × Value)) :
    (h.bindPairs s pairs).bindings t = h.bindings t := by
  rw [bindings, bindings, scopes_bindPairs_of_ne h hne]

/-! ## Chains -/

/-- Every link leads to an earlier scope, so every chain ends. -/
def Ordered (h : Heap) : Prop :=
  ∀ s o : Nat, h.outer? s = some o → o < s

theorem Ordered.of_scopes_eq {h h' : Heap} (heq : h'.scopes = h.scopes) (hord : h.Ordered) : h'.Ordered := by
  intro s o ho
  rw [outer?, heq] at ho
  exact hord s o ho

/-- A single scope without an outer one. -/
theorem ordered_root : (empty.push none).Ordered := by
  intro s o ho
  rcases Nat.eq_zero_or_pos s with rfl | hs
  · cases ho
  · rw [outer?_of_size_le _ hs] at ho
    cases ho

theorem Ordered.pushInside {h : Heap} (hord : h.Ordered) {outer : Option ScopeId} (houter : ∀ s ∈ outer, s < h.size) :
    (h.push outer).Ordered := by
  intro t o ho
  rcases Nat.lt_trichotomy t h.size with ht | ht | ht
  · rw [outer?_push_of_lt h _ ht] at ho
    exact hord t o ho
  · subst ht
    rw [outer?_push_size] at ho
    exact houter o ho
  · rw [outer?_of_size_le _ (by rw [size_push]; exact ht)] at ho
    cases ho

theorem Ordered.push {h : Heap} (hord : h.Ordered) {s : Nat} (hs : s < h.size) :
    (h.push (some s)).Ordered :=
  hord.pushInside fun o ho => by rwa [← Option.mem_some.mp ho]

theorem Ordered.bindPairs {h : Heap} (hord : h.Ordered) (s : Nat) (pairs : List (String × Value)) :
    (h.bindPairs s pairs).Ordered := by
  intro t o ho
  rw [outer?_bindPairs] at ho
  exact hord t o ho

theorem lookupFrom_succ (h : Heap) (x : String) (n : Nat) (s : Nat) :
    lookupFrom h.scopes x (n + 1) s =
      ((h.bindings s).lookup x).or ((h.outer? s).bind (lookupFrom h.scopes x n)) := by
  rw [lookupFrom, bindings, outer?]
  cases h.scopes[s]? with
  | none => rfl
  | some sc =>
    simp only [Option.map_some, Option.getD_some, Option.bind_some]
    cases sc.bindings.lookup x with
    | some v => rfl
    | none => cases sc.outer <;> rfl

/-- Steps beyond the number of a scope find nothing more. -/
theorem Ordered.lookupFrom_eq {h : Heap} (hord : h.Ordered) (x : String) {n n' : Nat} {s : Nat}
    (hn : s < n) (hn' : s < n') : lookupFrom h.scopes x n s = lookupFrom h.scopes x n' s := by
  induction n generalizing s n' with
  | zero => omega
  | succ n ih =>
    obtain ⟨k, rfl⟩ : ∃ k, n' = k + 1 := ⟨n' - 1, by omega⟩
    rw [lookupFrom_succ, lookupFrom_succ]
    cases ho : h.outer? s with
    | none => rfl
    | some o =>
      have hlt := hord s o ho
      rw [Option.bind_some, Option.bind_some,
        ih (Nat.lt_of_lt_of_le hlt (Nat.le_of_lt_succ hn)) (Nat.lt_of_lt_of_le hlt (Nat.le_of_lt_succ hn'))]

/-- A name has the value that the scope itself gives it, else the one it has in the outer scope. -/
theorem Ordered.get?_eq {h : Heap} (hord : h.Ordered) (s : Nat) (x : String) :
    h.get? s x = ((h.bindings s).lookup x).or ((h.outer? s).bind fun o => h.get? o x) := by
  by_cases hs : s < h.size
  · obtain ⟨k, hk⟩ : ∃ k, h.size = k + 1 := ⟨h.size - 1, by omega⟩
    rw [get?, hk, lookupFrom_succ]
    cases ho : h.outer? s with
    | none => rfl
    | some o =>
      have hlt := hord s o ho
      have hk' : s ≤ k := by omega
      rw [Option.bind_some, Option.bind_some, get?,
        hord.lookupFrom_eq x (Nat.lt_of_lt_of_le hlt hk') (Nat.lt_trans hlt hs)]
  · have hnone : h.scopes[s]? = none := Array.getElem?_eq_none (Nat.le_of_not_lt hs)
    have hget : h.get? s x = none := by
      rw [get?]
      cases h.size with
      | zero => rfl
      | succ n => rw [lookupFrom, hnone]
    rw [hget, outer?_of_size_le h (Nat.le_of_not_lt hs), bindings, hnone]
    rfl

theorem get?_of_scopes_eq {h h' : Heap} (heq : h'.scopes = h.scopes) (s : Nat) (x : String) :
    h'.get? s x = h.get? s x := by
  rw [get?, get?, size, size, heq]

/-- What is visible from a scope depends on the scopes up to it only. -/
theorem Ordered.get?_congr {h h' : Heap} (hord : h.Ordered) (hord' : h'.Ordered) (x : String) (s : Nat)
    (heq : ∀ t ≤ s, h'.bindings t = h.bindings t ∧ h'.outer? t = h.outer? t) : h'.get? s x = h.get? s x := by
  induction s using Nat.strongRecOn with
  | ind s ih =>
    obtain ⟨hb, ho⟩ := heq s (Nat.le_refl s)
    rw [hord.get?_eq, hord'.get?_eq, hb, ho]
    cases hout : h.outer? s with
    | none => rfl
    | some o =>
      have hlt := hord s o hout
      rw [Option.bind_some, Option.bind_some, ih o hlt fun t ht => heq t (by omega)]

theorem Ordered.get?_push_of_lt {h : Heap} (hord : h.Ordered) {s t : Nat} (hs : s < h.size) (ht : t < h.size)
    (x : String) : (h.push (some s)).get? t x = h.get? t x :=
  hord.get?_congr (hord.push hs) x t fun _ hu =>
    ⟨bindings_push_of_lt h _ (Nat.lt_of_le_of_lt hu ht), outer?_push_of_lt h _ (Nat.lt_of_le_of_lt hu ht)⟩

/-- From an empty scope one sees what is visible from the scope around it. -/
theorem Ordered.get?_push_size {h : Heap} (hord : h.Ordered) {s : Nat} (hs : s < h.size) (x : String) :
    (h.push (some s)).get? h.size x = h.get? s x := by
  rw [(hord.push hs).get?_eq, bindings_push_size, outer?_push_size, Option.bind_some,
    hord.get?_push_of_lt hs hs]
  rfl

/-- Names bound in a scope hide what was visible from it before, the last pair of a name first. -/
theorem Ordered.get?_bindPairs_self {h : Heap} (hord : h.Ordered) {s : Nat} (hs : s < h.size)
    (pairs : List (String × Value)) (x : String) :
    (h.bindPairs s pairs).get? s x = (pairs.reverse.lookup x).or (h.get? s x) := by
  rw [(hord.bindPairs s pairs).get?_eq, bindings_bindPairs_self h hs, outer?_bindPairs,
    Bindings.lookup_insertAll, Option.or_assoc, hord.get?_eq s x]
  cases ho : h.outer? s with
  | none => rfl
  | some o =>
    have hlt := hord s o ho
    have hsame : (h.bindPairs s pairs).get? o x = h.get? o x := by
      refine hord.get?_congr (hord.bindPairs s pairs) x o fun t ht => ⟨?_, outer?_bindPairs h s t pairs⟩
      exact bindings_bindPairs_of_ne h (by omega : t ≠ s) pairs
    rw [Option.bind_some, Option.bind_some, hsame]

end Heap

end FormLang
