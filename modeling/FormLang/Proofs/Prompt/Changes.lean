import FormLang.Prompt.Basic
import FormLang.Proofs.Heap.Chain
import FormLang.Proofs.Session.Errors
import FormLang.Proofs.Session.Failure
import FormLang.Proofs.Session.Lines
import FormLang.Proofs.Value.Text

/-!
# What a session has changed

The prompt lists the bindings of the global scope that print otherwise than in a fresh one. Calls leave their parameters bound,
so any name of the default registry may be bound to any value. Whatever differs from the default is listed, in ascending order
and once, unless it prints the same (`env_lists_changes`). Numbers and callables never print alike, but a text can spell a
number or a built-in. So a name that is bound to such a text is missing from the list (`not_env_lists_all_changes`).
-/

namespace FormLang

/-! ## The global scope -/

theorem Heap.WellFormed.of_scopes_eq {h h' : Heap} (heq : h'.scopes = h.scopes) (hwell : h.WellFormed) : h'.WellFormed where
  ordered := hwell.ordered.of_scopes_eq heq
  distinct s := by
    rw [bindings, heq]
    exact hwell.distinct s

namespace Session

/-- The global scope is outermost, and every scope binds each name once. -/
structure Rooted (s : Session) : Prop where
  wellFormed : s.heap.WellFormed
  outermost : s.heap.outer? globalScope = none
  lt_size : globalScope < s.heap.size

namespace Rooted

variable {s : Session} (h : s.Rooted)

include h

theorem evaluate (text : String) : (s.evaluate text).1.Rooted := by
  cases hparse : Expr.parse s.limit (Token.ofText text) with
  | error err =>
    rw [evaluate_of_error hparse]
    exact h
  | ok e =>
    have hscopes := scopes_evaluate hparse
    refine ⟨(h.wellFormed.bindPairs h.lt_size _).of_scopes_eq hscopes, ?_, ?_⟩
    · rw [Heap.outer?, hscopes]
      exact (Heap.outer?_bindPairs ..).trans h.outermost
    · rw [Heap.size, hscopes, ← Heap.size, Heap.size_bindPairs]
      exact h.lt_size

theorem after (texts : List String) : (s.after texts).Rooted :=
  after_induction (P := Rooted) (fun _ text hs => evaluate hs text) h texts

theorem get?_eq (name : String) : s.get? name = s.heap.getLocal? globalScope name := by
  rw [get?]
  cases hlocal : s.heap.getLocal? globalScope name with
  | some v => exact h.wellFormed.ordered.get?_of_local hlocal
  | none => exact h.wellFormed.ordered.get?_of_root hlocal h.outermost

end Rooted

theorem rooted_global (limit : Int) (runId : String) (tracing : Bool) : (start .global limit runId tracing).Rooted := by
  have hroot : (Heap.empty.push none).WellFormed := Heap.WellFormed.of_empty.push fun s hs => by cases hs
  have hsize : globalScope < (Heap.empty.push none).size := by decide
  refine ⟨hroot.bindPairs hsize _, ?_, ?_⟩
  · exact (Heap.outer?_bindPairs (Heap.empty.push none) 0 globalScope _).trans (Heap.outer?_push_size Heap.empty none)
  · exact (Heap.size_bindPairs (Heap.empty.push none) 0 _).ge.trans_lt' hsize

end Session

/-! ## Names on one line -/

/-- What an expression binds has the name of a definition or of a parameter. -/
theorem Eval.isName_of_mem_effect {limit : Nat} {m : Machine} (hm : m.heap.Holds (functionLaw limit).value) {e : Expr}
    (he : (functionLaw limit).expr e) (s : ScopeId) : ∀ p ∈ effect .caller limit m e s, Expr.IsName p.1 := by
  intro p hp
  by_cases hdefines : ∃ d, Defines limit m e d
  · obtain ⟨d, hd⟩ := hdefines
    obtain ⟨-, rfl, hparams⟩ := id hd
    rw [effect_of_defines .caller hd, List.mem_singleton] at hp
    subst hp
    exact (Definition.wellFormed hparams he.1 he.2 m).names d.name List.mem_cons_self
  · by_cases henters : ∃ f args, Enters limit m e s f args
    · obtain ⟨f, args, hf⟩ := henters
      rw [effect_of_enters hf] at hp
      obtain ⟨-, head, ops, m₁, -, rfl, -, hhead, -⟩ := hf
      have hrec : SoundEvaluator (functionLaw limit) (eval limit) := fun s hm he => (functionLaw_kept limit).eval hm he s
      have hsound := hrec.inChild (m := m.enter) hm ((functionLaw_kept limit).item he List.mem_cons_self) s
      rw [hhead] at hsound
      exact ((hsound.value _ rfl).2 f rfl).names p.1 (List.mem_cons_of_mem _ (List.of_mem_zip hp).1)
    · rw [effect_eq_nil .caller hdefines fun _ => henters] at hp
      cases hp

namespace Session

/-- The texts and the names of the session are on one line. -/
structure Plain (s : Session) : Prop where
  rooted : s.Rooted
  lined : s.Lined
  names : ∀ p ∈ s.heap.bindings globalScope, Text.OneLine p.1

namespace Plain

variable {s : Session} (h : s.Plain)

include h

theorem evaluate (text : String) : (s.evaluate text).1.Plain := by
  refine ⟨h.rooted.evaluate text, (h.lined.sound_evaluate text).1, ?_⟩
  cases hparse : Expr.parse s.limit (Token.ofText text) with
  | error err =>
    rw [evaluate_of_error hparse]
    exact h.names
  | ok e =>
    have hfunctions : s.heap.Holds (functionLaw (effectiveLimit s.limit)).value := fun t sc hsc p hp => (h.lined t sc hsc p hp).1
    rw [Heap.bindings, scopes_evaluate hparse]
    intro p hp
    have hbindings := Heap.bindings_bindPairs_self s.heap h.rooted.lt_size
      (Eval.effect .caller (effectiveLimit s.limit) s.machine e globalScope)
    rw [Heap.bindings] at hbindings
    rw [hbindings] at hp
    rcases Bindings.mem_insertAll hp with hp | hp
    · exact (Eval.isName_of_mem_effect hfunctions (Expr.fromWords_of_parse hparse) globalScope p hp).oneLine
    · exact h.names p hp

theorem after (texts : List String) : (s.after texts).Plain :=
  after_induction (P := Plain) (fun _ text hs => evaluate hs text) h texts

end Plain

theorem plain_global (limit : Int) (runId : String) (tracing : Bool) : (start .global limit runId tracing).Plain := by
  refine ⟨rooted_global limit runId tracing, lined_global limit runId tracing, fun p hp => ?_⟩
  have hbindings : Heap.global.bindings globalScope = _ :=
    Heap.bindings_bindPairs_self (Heap.empty.push none) (s := globalScope) (by decide) (Registry.defaults 0).entries
  have hp : p ∈ Heap.global.bindings globalScope := hp
  rw [hbindings] at hp
  rcases Bindings.mem_insertAll hp with hp | hp
  · exact Registry.oneLine_of_mem_defaults hp
  · cases hp

end Session

/-! ## Defaults -/

/-- Where no name occurs twice the order of look-ups does not matter. -/
theorem Bindings.lookup_eq_some_iff_mem {b : Bindings} (h : b.domain.Nodup) {x : String} {v : Value} :
    b.lookup x = some v ↔ (x, v) ∈ b := by
  refine ⟨mem_of_lookup_eq_some, fun hmem => ?_⟩
  cases hlookup : b.lookup x with
  | none =>
    have hdomain := (isSome_lookup_iff (b := b) (x := x)).mpr (List.mem_map_of_mem hmem)
    rw [hlookup] at hdomain
    cases hdomain
  | some w =>
    have hpair := List.inj_on_of_nodup_map h (mem_of_lookup_eq_some hlookup) hmem rfl
    exact congrArg (fun p : String × Value => some p.2) hpair

/-- A fresh global scope binds the default registry. -/
theorem Heap.get?_global (name : String) : Heap.global.get? globalScope name = (Registry.defaults 0).get? name := by
  have hnodup : Bindings.domain (Registry.defaults 0).entries |>.Nodup := Registry.nodup_defaults 0
  have hreverse : Bindings.domain (Registry.defaults 0).entries.reverse |>.Nodup := by
    rw [Bindings.domain, List.map_reverse]
    exact List.nodup_reverse.mpr hnodup
  have hlocal : Heap.global.getLocal? globalScope name = (Registry.defaults 0).entries.reverse.lookup name :=
    (getLocal?_bindPairs_self (Heap.empty.push none) (by decide) _ name).trans Option.or_none
  have hget : Heap.global.get? globalScope name = (Registry.defaults 0).entries.reverse.lookup name :=
    ((Session.rooted_global 0 "" false).get?_eq name).trans hlocal
  rw [hget, Registry.get?]
  ext v
  rw [Bindings.lookup_eq_some_iff_mem hreverse, Bindings.lookup_eq_some_iff_mem hnodup, List.mem_reverse]

namespace Session

/-- The binding of a name, if it prints otherwise than the default. -/
def change? (s : Session) (name : String) : Option (String × Value) :=
  (s.get? name).bind fun v =>
    if ((Registry.defaults 0).get? name).map Value.text = some v.text then none else some (name, v)

theorem changed_eq (s : Session) : s.changed = s.names.filterMap s.change? := by
  rw [changed]
  congr 1
  funext name
  rw [change?, Heap.get?_global]
  cases s.get? name with
  | none => rfl
  | some v =>
    cases (Registry.defaults 0).get? name with
    | none => rfl
    | some w => simp

theorem change?_eq_some_iff {s : Session} {x name : String} {v : Value} : s.change? x = some (name, v) ↔
    x = name ∧ s.get? name = some v ∧ ((Registry.defaults 0).get? name).map Value.text ≠ some v.text := by
  rw [change?, Option.bind_eq_some_iff]
  constructor
  · rintro ⟨v', hget, hx⟩
    obtain ⟨htext, hpair⟩ := Option.ite_none_left_eq_some.mp hx
    cases hpair
    exact ⟨rfl, hget, htext⟩
  · rintro ⟨rfl, hget, htext⟩
    exact ⟨v, hget, if_neg htext⟩

namespace Rooted

variable {s : Session} (h : s.Rooted)

include h

/-- The listed bindings are those that print otherwise than the default. -/
theorem mem_changed_iff {name : String} {v : Value} :
    (name, v) ∈ s.changed ↔ s.heap.getLocal? globalScope name = some v ∧
      ((Registry.defaults 0).get? name).map Value.text ≠ some v.text := by
  rw [changed_eq, List.mem_filterMap, ← h.get?_eq]
  constructor
  · rintro ⟨x, -, hx⟩
    exact (change?_eq_some_iff.mp hx).2
  · intro hv
    refine ⟨name, ?_, change?_eq_some_iff.mpr ⟨rfl, hv⟩⟩
    rw [names, Heap.mem_names_iff, Heap.hasLocal, ← h.get?_eq, hv.1]
    rfl

theorem ascending_changed : Text.Ascending (s.changed.map (·.1)) := by
  have hnames : Text.Ascending s.names := h.wellFormed.ascending_names globalScope
  rw [Text.Ascending, List.pairwise_map, changed_eq, List.pairwise_filterMap]
  refine hnames.imp fun hab p hp q hq => ?_
  rwa [← (change?_eq_some_iff.mp hp).1, ← (change?_eq_some_iff.mp hq).1]

end Rooted

end Session

/-! ## The listing -/

/-- The value is told apart from the default by what it prints. -/
def Value.PrintsOtherwise (v w : Value) : Prop :=
  v ≠ w ∧ v ≠ .str w.text ∧ ¬ (v = .negativeNaN ∧ w = .float Binary64.notANumber)

/-- The command to list changes prints them and leaves the prompt as it was. -/
theorem Prompt.step_env (s : Session) (fresh : String) (pretty : Bool) :
    (Prompt.start s fresh pretty).step (.line ":env") =
      (Prompt.start s fresh pretty, ⟨fresh, s.changes, "", none⟩, none) := by
  have hcommand : isCommand ":env" = true := by decide +kernel
  have htrim : Text.trim ":env" = ":env" := by decide +kernel
  have hcolon : Text.startsWith ":" ":env" = true := by decide +kernel
  have hof : PromptCommand.ofText ":env" = .showChanges := by decide +kernel
  have haccept : Gatherer.empty.accept (.line ":env") = (.statement ":env", .empty) := by
    rw [Gatherer.accept, hcommand, htrim]
    rfl
  have hstart : (Prompt.start s fresh pretty).gatherer = .empty := rfl
  rw [step, hstart, haccept]
  simp only [hcolon, if_true, hof]
  rfl

namespace Session

section listing

variable {s : Session} (hplain : s.Plain) (hnative : s.Native)

include hplain hnative

theorem native_of_getLocal? {name : String} {v : Value} (hv : s.heap.getLocal? globalScope name = some v) : v.Native := by
  rw [← hplain.rooted.get?_eq] at hv
  exact Heap.Holds.of_lookupFrom hnative hv

/-- The lines of the listing are those of the changed bindings. -/
theorem lines_changes : Text.lines s.changes = (s.changed.map fun b => b.1 ++ " = " ++ b.2.text) ++ [""] := by
  have hbound : ∀ b ∈ s.changed, s.heap.getLocal? globalScope b.1 = some b.2 :=
    fun b hb => (hplain.rooted.mem_changed_iff.mp hb).1
  have hlisted : s.changes = String.join ((s.changed.map fun b => b.1 ++ " = " ++ b.2.text).map printLine) := by
    rw [changes, List.map_map]
    congr 1
    refine List.map_congr_left fun b hb => ?_
    have hvoid := (native_of_getLocal? hplain hnative (hbound b hb)).ne_void
    obtain ⟨name, v⟩ := b
    cases v with
    | void => exact absurd rfl hvoid
    | _ => rfl
  rw [hlisted]
  refine Text.lines_join_printLine (List.forall_mem_map.mpr fun b hb => ?_)
  have hname : Text.OneLine b.1 := hplain.names _ (mem_of_lookup_eq_some (hbound b hb))
  have hvalue : Text.OneLine b.2.text := hplain.lined.oneLine_get? ((hplain.rooted.get?_eq b.1).trans (hbound b hb))
  exact (hname.append (by decide)).append hvalue

/-- A bound value has another text than the default exactly if it prints otherwise. -/
theorem text_ne_iff {name : String} {v : Value} (hv : s.heap.getLocal? globalScope name = some v) :
    ((Registry.defaults 0).get? name).map Value.text ≠ some v.text ↔
      ∀ w, (Registry.defaults 0).get? name = some w → v.PrintsOtherwise w := by
  have hvalue := native_of_getLocal? hplain hnative hv
  cases hseed : (Registry.defaults 0).get? name with
  | none => simp
  | some w =>
    have htext := Value.text_eq_text_iff hvalue (mem_of_lookup_eq_some hseed)
    rw [eq_comm] at htext
    simp only [Option.map_some, ne_eq, Option.some.injEq, htext, forall_eq', Value.PrintsOtherwise, not_or]

end listing

end Session

/-- **The prompt lists what the session has changed, as far as it prints otherwise.** Whatever statements were evaluated, the
command prints a line for each binding of the global scope whose name is not in the default registry or whose value differs from
the default, in ascending order of names and each name once, and prints nothing else. It leaves out a value that differs from
the default but is a text that spells it, or a NaN with the other sign. -/
theorem env_lists_changes (limit : Int) (runId : String) (tracing : Bool) (texts : List String) (fresh : String) (pretty : Bool) :
    let s := (Session.start .global limit runId tracing).after texts
    let p := Prompt.start s fresh pretty
    p.step (.line ":env") = (p, ⟨fresh, s.changes, "", none⟩, none) ∧
    Text.lines s.changes = (s.changed.map fun b => b.1 ++ " = " ++ b.2.text) ++ [""] ∧
    Text.Ascending (s.changed.map (·.1)) ∧
    ∀ name v, (name, v) ∈ s.changed ↔ s.heap.getLocal? globalScope name = some v ∧
      ∀ w, (Registry.defaults 0).get? name = some w → v.PrintsOtherwise w := by
  intro s p
  have hplain : s.Plain := (Session.plain_global limit runId tracing).after texts
  have hnative : s.Native := (Session.native_global limit runId tracing).after texts
  refine ⟨Prompt.step_env s fresh pretty, Session.lines_changes hplain hnative, hplain.rooted.ascending_changed, fun name v => ?_⟩
  rw [hplain.rooted.mem_changed_iff]
  exact and_congr_right fun hv => Session.text_ne_iff hplain hnative hv

/-- A session in which a built-in is rebound to the text that it prints. -/
def respelled : Session :=
  (Session.fresh 0).after ["(defun f (abs) 1)", "(f (format t ~% abs))"]

theorem respelled_abs : (respelled.heap.getLocal? globalScope "abs").map (fun v => (v.kind, v.text)) =
    some (.str, "<built-in function abs>") := by
  decide +kernel

/-- The list misses a change: a built-in that has become a text. -/
theorem not_env_lists_all_changes :
    ¬ ∀ (texts : List String) (name : String) (v : Value),
      (name, v) ∈ ((Session.fresh 0).after texts).changed ↔
        ((Session.fresh 0).after texts).heap.getLocal? globalScope name = some v ∧
          ∀ w, (Registry.defaults 0).get? name = some w → v ≠ w := by
  intro h
  have hseed : ((Registry.defaults 0).get? "abs").map (fun w => (w.kind, w.text)) =
      some (.builtin, "<built-in function abs>") := by decide +kernel
  obtain ⟨v, hv, hbound⟩ := Option.map_eq_some_iff.mp respelled_abs
  obtain ⟨w, hw, hdefault⟩ := Option.map_eq_some_iff.mp hseed
  have hdiffers : ∀ w', (Registry.defaults 0).get? "abs" = some w' → v ≠ w' := by
    rintro w' hw' rfl
    cases hw.symm.trans hw'
    rw [hbound] at hdefault
    cases hdefault
  have hrooted : respelled.Rooted := (Session.rooted_global 0 "" false).after _
  obtain ⟨-, htext⟩ := hrooted.mem_changed_iff.mp ((h _ "abs" v).mpr ⟨hv, hdiffers⟩)
  rw [hw, Option.map_some, (Prod.mk.inj hdefault).2, (Prod.mk.inj hbound).2] at htext
  exact htext rfl

end FormLang
