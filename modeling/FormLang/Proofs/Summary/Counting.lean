import FormLang.Proofs.Text.Order
import FormLang.Summary

/-!
# What a summary counts

A summary goes through the records of a trace and keeps counts. `Summary.Reports` says what each of its fields is for the
events seen so far; `Reports.add` is one more record and `reports_ofEntries` all of them.

Two of the fields need an invariant of their own. A tally finds the count of a name again because its names ascend
(`Tally.Counts`). The calls in progress go up and down with the events (`Nesting.next`), and a call is never closed that
was not opened as long as the events are guarded (`Guarded`).
-/

namespace FormLang

/-! ## Tallies -/

namespace Tally

/-- The sum of all counts. -/
def total (t : Tally) : Nat :=
  (t.map (·.2)).foldr (· + ·) 0

theorem total_append (t u : Tally) : total (t ++ u) = t.total + u.total := by
  induction t with
  | nil => exact (Nat.zero_add _).symm
  | cons x t ih =>
    have hcons : ∀ v : Tally, total (x :: v) = x.2 + v.total := fun v => rfl
    rw [List.cons_append, hcons, hcons, ih, Nat.add_assoc]

/-- The names ascend, so that none is there twice. -/
def Ascending (t : Tally) : Prop :=
  t.Pairwise fun x y => Text.precedes x.1 y.1 = true

/-- Counting a name raises its count, or enters it where it belongs. -/
theorem add_eq {t : Tally} (h : t.Ascending) (name : String) :
    ∃ (before old after : Tally) (n : Nat), t = before ++ (old ++ after) ∧ (old = [(name, n)] ∨ old = [] ∧ n = 0) ∧
      (∀ x ∈ before, Text.precedes x.1 name = true) ∧ (∀ x ∈ after, Text.precedes name x.1 = true) ∧
      t.add name = before ++ (name, n + 1) :: after := by
  induction t with
  | nil => exact ⟨[], [], [], 0, rfl, .inr ⟨rfl, rfl⟩, by simp, by simp, rfl⟩
  | cons x rest ih =>
    obtain ⟨other, n⟩ := x
    obtain ⟨hother, hrest⟩ := List.pairwise_cons.mp h
    rw [add]
    by_cases heq : name = other
    · subst heq
      exact ⟨[], [(name, n)], rest, n, rfl, .inl rfl, by simp, hother, by rw [if_pos rfl]; rfl⟩
    · rw [if_neg heq]
      cases hlt : Text.precedes name other with
      | true =>
        refine ⟨[], [], (other, n) :: rest, 0, rfl, .inr ⟨rfl, rfl⟩, by simp, ?_, rfl⟩
        rw [List.forall_mem_cons]
        exact ⟨hlt, fun y hy => Text.precedes_trans hlt (hother y hy)⟩
      | false =>
        obtain ⟨before, old, after, k, ht, hold, hbefore, hafter, hadd⟩ := ih hrest
        refine ⟨(other, n) :: before, old, after, k, by rw [ht]; rfl, hold, ?_, hafter, by rw [hadd]; rfl⟩
        rw [List.forall_mem_cons]
        exact ⟨Text.precedes_of_not heq hlt, hbefore⟩

/-- The tally of some names: those that occur, in ascending order, each with the number of times that it occurs. -/
structure Counts (t : Tally) (names : List String) : Prop where
  ascending : t.Ascending
  mem_iff : ∀ name n, (name, n) ∈ t ↔ name ∈ names ∧ n = names.count name
  sum : t.total = names.length

theorem counts_nil : Counts [] [] :=
  ⟨.nil, by simp, rfl⟩

theorem Counts.add {t : Tally} {names : List String} (h : t.Counts names) (name : String) :
    (t.add name).Counts (names ++ [name]) := by
  obtain ⟨before, old, after, n, rfl, hold, hbefore, hafter, hadd⟩ := add_eq h.ascending name
  have hold_mem : ∀ x ∈ old, x = (name, n) := by
    rcases hold with rfl | ⟨rfl, -⟩ <;> simp
  have hnotBefore : ∀ k, (name, k) ∉ before := fun k hk => Text.ne_of_precedes (hbefore _ hk) rfl
  have hnotAfter : ∀ k, (name, k) ∉ after := fun k hk => Text.ne_of_precedes (hafter _ hk) rfl
  have hcount : n = names.count name := by
    rcases hold with rfl | ⟨rfl, rfl⟩
    · exact ((h.mem_iff name n).mp (by simp)).2
    · -- the name is not there, so it has not occurred
      refine (List.count_eq_zero_of_not_mem fun hmem => ?_).symm
      have hthere := (h.mem_iff name _).mpr ⟨hmem, rfl⟩
      rw [List.nil_append, List.mem_append] at hthere
      exact hthere.elim (hnotBefore _) (hnotAfter _)
  rw [hadd]
  constructor
  · obtain ⟨hfirst, hlast, -⟩ := List.pairwise_append.mp h.ascending
    have hlast' := (List.pairwise_append.mp hlast).2.1
    refine List.pairwise_append.mpr ⟨hfirst, List.pairwise_cons.mpr ⟨hafter, hlast'⟩, fun x hx => ?_⟩
    rw [List.forall_mem_cons]
    exact ⟨hbefore x hx, fun y hy => Text.precedes_trans (hbefore x hx) (hafter y hy)⟩
  · intro x k
    by_cases hx : x = name
    · subst hx
      have hnew : (x, k) ∈ before ++ (x, n + 1) :: after ↔ k = n + 1 := by
        simp [hnotBefore, hnotAfter]
      rw [hnew, hcount]
      simp
    · have hnew : (x, k) ∈ before ++ (name, n + 1) :: after ↔ (x, k) ∈ before ++ (old ++ after) := by
        have hnotOld : (x, k) ∉ old := fun hmem => hx (congrArg Prod.fst (hold_mem _ hmem))
        simp [hx, hnotOld]
      rw [hnew, h.mem_iff, List.count_append, List.mem_append]
      simp [hx, Ne.symm hx]
  · have hsum := h.sum
    have hsumOld : total old = n := by
      rcases hold with rfl | ⟨rfl, rfl⟩ <;> rfl
    have hcons : total ((name, n + 1) :: after) = n + 1 + total after := rfl
    rw [total_append, total_append, hsumOld] at hsum
    rw [total_append, hcons, List.length_append, List.length_singleton]
    omega

theorem Counts.addSome {t : Tally} {names : List String} (h : t.Counts names) (name : Option String) :
    (t.addSome name).Counts (names ++ name.toList) := by
  cases name with
  | none =>
    rw [Option.toList_none, List.append_nil]
    exact h
  | some name => exact h.add name

end Tally

/-! ## What events say -/

namespace Event

/-- The expression of a statement that begins. -/
def started? : Event → Option String
  | .evalStart expr => some expr
  | _ => none

/-- The name of a function whose body begins. -/
def called? : Event → Option String
  | .callStart f _ => some f
  | _ => none

def defined? : Event → Option String
  | .defined f _ => some f
  | _ => none

/-- The code of a statement that has failed. -/
def failed? : Event → Option String
  | .failed code _ => some code.text
  | _ => none

end Event

theorem EventKind.ofName?_name (k : EventKind) : ofName? k.name = some k := by
  cases k <;> decide

/-- The calls in progress after some events, and the most that there have been. -/
structure Nesting where
  active : Nat
  most : Nat

namespace Nesting

def none : Nesting :=
  ⟨0, 0⟩

def next (n : Nesting) : Event → Nesting
  | .callStart .. => ⟨n.active + 1, max n.most (n.active + 1)⟩
  | .callEnd .. => ⟨n.active - 1, n.most⟩
  | .evalStart _ | .evalEnd _ | .defined .. | .failed .. => n

end Nesting

/-- The end of a call comes only while a call is in progress. -/
def Guarded (n : Nesting) : List Event → Prop
  | [] => True
  | e :: rest => (e.kind = .callEnd → 0 < n.active) ∧ Guarded (n.next e) rest

theorem guarded_append {n : Nesting} {es es' : List Event} :
    Guarded n (es ++ es') ↔ Guarded n es ∧ Guarded (es.foldl Nesting.next n) es' := by
  induction es generalizing n with
  | nil => exact ⟨fun h => ⟨trivial, h⟩, fun h => h.2⟩
  | cons e es ih =>
    rw [List.cons_append, Guarded, ih, Guarded, and_assoc]
    rfl

/-! ## Summaries of events -/

/-- A record as it is read back from its line. -/
def Record.entry (r : Record) (time : String) : Entry :=
  ⟨time, r.runId, r.event.name, r.event.data⟩

namespace Summary

/-- Adding a record, said for all kinds of events at once. -/
theorem add_entry (s : Summary) (r : Record) (time : String) :
    s.add (r.entry time) =
      { runId := if s.runId = "" then r.runId else s.runId
        totalEvents := s.totalEvents + 1
        evaluations := s.evaluations + r.event.started?.toList.length
        calls := s.calls + r.event.called?.toList.length
        callsByName := s.callsByName.addSome r.event.called?
        active := (Nesting.next ⟨s.active, s.maxActive⟩ r.event).active
        maxActive := (Nesting.next ⟨s.active, s.maxActive⟩ r.event).most
        defined := r.event.defined?.toList ++ s.defined
        failures := s.failures + r.event.failed?.toList.length
        failuresByCode := s.failuresByCode.addSome r.event.failed?
        startTime := if s.startTime = "" then time else s.startTime
        endTime := time } := by
  have hkind : EventKind.ofName? (r.entry time).event = some r.event.kind := EventKind.ofName?_name r.event.kind
  rw [add, hkind]
  obtain ⟨runId, e⟩ := r
  cases e <;> rfl

/-- What a summary says of a run with the given identifier, of which it has seen the given events. -/
structure Reports (s : Summary) (runId : String) (es : List Event) : Prop where
  totalEvents : s.totalEvents = es.length
  run : s.runId = if es = [] then "" else runId
  evaluations : s.evaluations = (es.filterMap Event.started?).length
  calls : s.calls = (es.filterMap Event.called?).length
  callsByName : s.callsByName.Counts (es.filterMap Event.called?)
  definitions : s.definitions = es.filterMap Event.defined?
  failures : s.failures = (es.filterMap Event.failed?).length
  failuresByCode : s.failuresByCode.Counts (es.filterMap Event.failed?)
  nesting : ⟨s.active, s.maxActive⟩ = es.foldl Nesting.next .none

theorem reports_empty (runId : String) : empty.Reports runId [] :=
  ⟨rfl, rfl, rfl, rfl, Tally.counts_nil, rfl, rfl, Tally.counts_nil, rfl⟩

theorem filterMap_concat {α β : Type} (f : α → Option β) (xs : List α) (x : α) :
    (xs ++ [x]).filterMap f = xs.filterMap f ++ (f x).toList := by
  rw [List.filterMap_append]
  cases hx : f x <;> simp [hx]

/-- **One record**: its event is added to those that the summary reports. -/
theorem Reports.add {s : Summary} {es : List Event} (r : Record) (h : s.Reports r.runId es) (time : String) :
    (s.add (r.entry time)).Reports r.runId (es ++ [r.event]) := by
  rw [add_entry]
  constructor
  · rw [List.length_append, ← h.totalEvents]
    rfl
  · rw [if_neg (List.append_ne_nil_of_right_ne_nil _ (List.cons_ne_nil _ _))]
    simp only [h.run]
    by_cases hes : es = [] <;> simp [hes]
  · rw [filterMap_concat, List.length_append, ← h.evaluations]
  · rw [filterMap_concat, List.length_append, ← h.calls]
  · rw [filterMap_concat]
    exact h.callsByName.addSome _
  · rw [filterMap_concat, ← h.definitions, Summary.definitions, Summary.definitions, List.reverse_append]
    cases r.event <;> rfl
  · rw [filterMap_concat, List.length_append, ← h.failures]
  · rw [filterMap_concat]
    exact h.failuresByCode.addSome _
  · rw [List.foldl_append, ← h.nesting]
    rfl

/-- **All records**: a summary reports the events of the records that it goes through. -/
theorem Reports.addAll {s : Summary} {runId : String} {es : List Event} (h : s.Reports runId es)
    {stamped : List (Record × String)} (hrun : ∀ x ∈ stamped, x.1.runId = runId) :
    ((stamped.map fun x => x.1.entry x.2).foldl Summary.add s).Reports runId (es ++ stamped.map (·.1.event)) := by
  induction stamped generalizing s es with
  | nil =>
    rw [List.map_nil, List.map_nil, List.append_nil]
    exact h
  | cons x rest ih =>
    obtain ⟨r, time⟩ := x
    rw [List.forall_mem_cons] at hrun
    obtain ⟨rfl, hrest⟩ := hrun
    have hstep := ih (h.add r time) hrest
    rw [List.append_assoc] at hstep
    exact hstep

theorem reports_ofEntries {runId : String} {stamped : List (Record × String)}
    (hrun : ∀ x ∈ stamped, x.1.runId = runId) :
    (ofEntries (stamped.map fun x => x.1.entry x.2)).Reports runId (stamped.map (·.1.event)) :=
  (reports_empty runId).addAll hrun

end Summary

end FormLang
