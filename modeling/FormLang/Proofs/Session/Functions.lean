import FormLang.Proofs.Eval.Nesting
import FormLang.Proofs.Expr.Stream
import FormLang.Proofs.Session.Budget
import FormLang.Proofs.Session.Failure
import FormLang.Proofs.Token.Runs

/-!
# The functions of a session

What is read from a text is made from words and nested within the limit, and so are its parts. A function is made from a part
of what was read, so its names are names that can be read and its body is nested less deep than the limit
(`Function.WellFormed`). Calls move functions around but make none, so this is a law that evaluation keeps
(`functionLaw_kept`), and every function that a session holds or returns keeps it. Its body can then be read again from the
text that is printed for it (`functions_read_back`).
-/

namespace FormLang

/-! ## Expressions made from words -/

/-- A name that is read as a symbol. -/
structure Expr.IsName (name : String) : Prop where
  ne_empty : name ≠ ""
  chars : ∀ c ∈ name.toList, Text.isBlank c = false ∧ c ≠ '(' ∧ c ≠ ')'
  symbol : ofToken name = .symbol name

theorem Token.IsWord.chars {w : Token} (h : IsWord w) : ∀ c ∈ w.toList, Text.isBlank c = false ∧ c ≠ '(' ∧ c ≠ ')' := by
  intro c hc
  have hends := ((isWord_iff w).mp h).2 c hc
  rw [EndsRun, not_or, not_or] at hends
  exact ⟨Bool.eq_false_iff.mpr hends.2.2, hends.1, hends.2.1⟩

namespace Expr

theorem mem_leavesAll {items : List Expr} {x a : Expr} (hx : x ∈ items) (ha : a ∈ x.leaves) : a ∈ leavesAll items := by
  induction items with
  | nil => cases hx
  | cons e rest ih =>
    rw [leavesAll, List.mem_append]
    rcases List.mem_cons.mp hx with rfl | hx
    · exact .inl ha
    · exact .inr (ih hx)

namespace FromWords

theorem item {items : List Expr} (h : (Expr.list items).FromWords) {x : Expr} (hx : x ∈ items) : x.FromWords :=
  fun a ha => h a (mem_leavesAll hx ha)

theorem isName {name : String} (h : (Expr.symbol name).FromWords) : IsName name := by
  obtain ⟨w, hword, hread⟩ := h (.symbol name) (List.mem_singleton_self _)
  rcases ofToken_cases w with ⟨n, hn⟩ | ⟨f, hf⟩ | hname
  · cases hn.symm.trans hread
  · cases hf.symm.trans hread
  · cases hname.symm.trans hread
    exact ⟨hword.1, hword.chars, hname⟩

end FromWords

/-- What is read from a text is made from its words, and is nested within the limit. -/
theorem fromWords_of_parse {limit : Int} {text : String} {e : Expr} (h : parse limit (Token.ofText text) = .ok e) :
    e.FromWords ∧ e.nest ≤ effectiveLimit limit := by
  rcases parse_tree_cases limit (Token.ofText text) with ⟨cs, hts, hnest, hok⟩ | ⟨cs, -, -, herr⟩ | ⟨-, err, herr⟩
  · cases hok.symm.trans h
    refine ⟨fromWords_toExpr _ fun w hw => ?_, ?_⟩
    · rw [← hts] at hw
      exact Token.token_cases hw
    · rw [TokenTree.nest_toExpr]
      exact hnest
  · cases herr.symm.trans h
  · cases herr.symm.trans h

/-- The text holds this expression and nothing after it, as a reader with this limit finds. -/
def ReadsFrom (limit : Int) (text : String) (e : Expr) : Prop :=
  (Reader.ofTokens (Token.ofText text) limit).build.1 = .ok e ∧
  (Reader.ofTokens (Token.ofText text) limit).build.2.rest = []

/-- A legible expression is read from its one line exactly if the limit admits how deep it is nested. -/
theorem readsFrom_flat_iff {e : Expr} (h : e.Legible) (limit : Int) :
    ReadsFrom limit e.flat e ↔ e.nest ≤ effectiveLimit limit := by
  obtain ⟨t, hflat, hexpr⟩ := leaves_induction leafCases_tree h
  have hbuilt : (Reader.ofTokens (Token.ofText e.flat) limit).built =
      buildFrom (effectiveLimit limit) 0 (t.flatten ++ []) := by
    rw [List.append_nil, hflat, ofText_flat h.worded]
    rfl
  obtain ⟨_, -, hrest, -⟩ := (Reader.ofTokens (Token.ofText e.flat) limit).exists_used
  have hiff : ReadsFrom limit e.flat e ↔ (buildFrom (effectiveLimit limit) 0 (t.flatten ++ [])).result = .ok e ∧
      (buildFrom (effectiveLimit limit) 0 (t.flatten ++ [])).rest = [] := by
    rw [ReadsFrom, hrest, ← hbuilt]
    rfl
  rw [hiff, ← hexpr, TokenTree.nest_toExpr]
  constructor
  · rintro ⟨hok, -⟩
    rcases Nat.lt_or_ge (effectiveLimit limit) t.nest with hlt | hle
    · rw [buildFrom_flatten_of_lt t (Nat.zero_le _) hlt] at hok
      cases hok
    · exact hle
  · intro hle
    rw [buildFrom_flatten_of_le 0 hle]
    exact ⟨rfl, rfl⟩

end Expr

/-! ## Well-formed functions -/

/-- The parameters differ, all names can be read, and the body could have been read below another form. -/
structure Function.WellFormed (limit : Nat) (f : Function) : Prop where
  params : f.params.Nodup
  names : ∀ name ∈ f.name :: f.params, Expr.IsName name
  body : f.body.FromWords
  nest : f.body.nest < limit

theorem Definition.wellFormed {d : Definition} {limit : Nat} (hparams : d.params.Nodup) (hwords : d.form.FromWords)
    (hnest : d.form.nest ≤ limit) (m : Machine) : (m.nextFunction d).WellFormed limit := by
  have hname : (Expr.symbol d.name).FromWords := hwords.item (by simp)
  have hlist : (Expr.list (d.params.map .symbol)).FromWords := hwords.item (by simp)
  have hbody : d.body ∈ [.symbol "defun", .symbol d.name, .list (d.params.map .symbol), d.body] := by simp
  refine ⟨hparams, fun name hmem => ?_, hwords.item hbody, Nat.lt_of_lt_of_le (Expr.nest_lt_of_mem hbody) hnest⟩
  rcases List.mem_cons.mp hmem with rfl | hmem
  · exact hname.isName
  · exact (hlist.item (List.mem_map_of_mem hmem)).isName

/-- Built-ins are default ones, functions are well formed, and expressions could have been read. -/
def functionLaw (limit : Nat) : Law where
  value v := v.Standard ∧ ∀ f, v = .function f → f.WellFormed limit
  expr e := e.FromWords ∧ e.nest ≤ limit
  error _ := True

theorem functionLaw_kept (limit : Nat) : (functionLaw limit).Kept limit where
  item h hmem := ⟨h.1.item hmem, Nat.le_trans (Nat.le_of_lt (Expr.nest_lt_of_mem hmem)) h.2⟩
  number h := ⟨(budgetLaw_kept limit).number h, fun f hf => by subst hf; cases h⟩
  str _ _ := ⟨trivial, fun f hf => by cases hf⟩
  define {e d} he h m := by
    obtain ⟨rfl, hparams⟩ := (Eval.Plan.of_eq_define_iff e d).mp h
    refine ⟨trivial, fun f hf => ?_⟩
    cases hf
    exact Definition.wellFormed hparams he.1 he.2 m
  body {f} h := ⟨(h.2 f rfl).body, Nat.le_of_lt (h.2 f rfl).nest⟩
  builtin h := (budgetLaw_kept limit).builtin h.1
  ordinary _ := trivial
  hole _ := trivial
  tooDeep := trivial

theorem Heap.functionLaw_global (limit : Nat) : Heap.global.Holds (functionLaw limit).value := by
  refine (Holds.empty.push none).bindPairs 0 fun p hp => ?_
  have hsound := List.all_eq_true.mp (Registry.all_isSoundEntry_defaults 0) p hp
  obtain ⟨name, v⟩ := p
  cases v with
  | builtin b => exact ⟨⟨0, name, hp⟩, fun f hf => by cases hf⟩
  | function f => cases hsound
  | _ => exact ⟨trivial, fun f hf => by cases hf⟩

/-! ## Sessions -/

namespace Session

/-- The functions of the session are well formed under its limit. -/
def WellFormed (s : Session) : Prop :=
  s.heap.Holds (functionLaw (effectiveLimit s.limit)).value

/-- The function is bound in the global scope, or a further statement returns it. -/
def Yields (s : Session) (f : Function) : Prop :=
  (∃ name, s.get? name = some (.function f)) ∨ ∃ text, (s.evaluate text).2 = .ok (.function f)

namespace WellFormed

variable {s : Session} (h : s.WellFormed)

include h

/-- A statement keeps the functions well formed, and its value is no other function. -/
theorem sound_evaluate (text : String) : (s.evaluate text).1.WellFormed ∧
    ∀ v, (s.evaluate text).2 = .ok v → (functionLaw (effectiveLimit s.limit)).value v := by
  have hread : ∀ e, Expr.parse s.limit (Token.ofText text) = .ok e → e.FromWords ∧ e.nest ≤ effectiveLimit s.limit :=
    fun _ hparse => Expr.fromWords_of_parse hparse
  obtain ⟨hheap, hvalue, -⟩ := Session.sound_evaluate (functionLaw_kept _) hread h
  rw [WellFormed, limit_evaluate]
  exact ⟨hheap, hvalue⟩

theorem after (texts : List String) : (s.after texts).WellFormed :=
  after_induction (P := Session.WellFormed) (fun _ text hs => (sound_evaluate hs text).1) h texts

theorem of_yields {f : Function} (hf : s.Yields f) : f.WellFormed (effectiveLimit s.limit) := by
  rcases hf with ⟨name, hget⟩ | ⟨text, hout⟩
  · exact (h.of_lookupFrom hget).2 f rfl
  · exact ((h.sound_evaluate text).2 _ hout).2 f rfl

end WellFormed

theorem wellFormed_global (limit : Int) (runId : String) (tracing : Bool) : (start .global limit runId tracing).WellFormed :=
  Heap.functionLaw_global (effectiveLimit limit)

end Session

/-- **Every function of a session is well formed and can be read back.** In a session over a fresh global scope, after any
statements, a function that is bound or returned has different parameters, names that are read as symbols, and a body that is
nested less deep than the limit. If the floats of the body read back, the body is read from the text that the JSON gives for
it, under the limit of the session and under exactly those other limits that admit its nesting. A plain stream reads with the
default limit of 10000, so where the session has a larger one a plain stream does not read back a body that is nested deeper. -/
theorem functions_read_back (limit : Int) (runId : String) (tracing : Bool) (texts : List String) (f : Function)
    (h : ((Session.start .global limit runId tracing).after texts).Yields f) :
    f.params.Nodup ∧ (∀ name ∈ f.name :: f.params, Expr.IsName name) ∧ f.body.nest < effectiveLimit limit ∧
    ∃ fields text, (Value.function f).toJson = .obj fields ∧ fields.lookup "body" = some (.str text) ∧
      (f.body.FloatsReadBack → Expr.ReadsFrom limit text f.body ∧
        ∀ other : Int, Expr.ReadsFrom other text f.body ↔ f.body.nest ≤ effectiveLimit other) := by
  have hwell := ((Session.wellFormed_global limit runId tracing).after texts).of_yields h
  rw [Session.limit_after] at hwell
  refine ⟨hwell.params, hwell.names, hwell.nest, _, f.body.flat, rfl, rfl, fun hfloats => ?_⟩
  have hiff := Expr.readsFrom_flat_iff (hwell.body.legible hfloats)
  exact ⟨(hiff limit).mpr (Nat.le_of_lt hwell.nest), hiff⟩

/-- A function of two parameters. -/
def scaled : Function where
  id := 0
  name := "scaled"
  params := ["x", "y"]
  body := .list [.symbol "if", .symbol "x", .list [.symbol "*", .float 2.5, .symbol "y"], .list [.symbol "f"]]

theorem floatsReadBack_scaled : scaled.body.FloatsReadBack := by
  intro f hf
  obtain rfl : f = 2.5 := by simpa [scaled, Expr.leaves, Expr.leavesAll] using hf
  rfl

/-- Statements that define the function and pass it to another one. -/
def passing : List String :=
  ["(defun scaled (x y) (if x (* 2.5 y) (f)))", "(defun keep (g) g)", "(keep scaled)"]

/-- Under a limit of three levels, the function is left behind as the parameter of the other one. Its body takes two levels to
read, which one level does not admit. -/
theorem functions_read_back_scaled :
    ((Session.start .global 3 "" false).after passing).get? "g" = some (.function scaled) ∧
    scaled.params.Nodup ∧ scaled.body.nest = 2 ∧ scaled.body.FloatsReadBack ∧
    Expr.ReadsFrom 3 "(if x (* 2.5 y) (f))" scaled.body ∧ ¬ Expr.ReadsFrom 1 "(if x (* 2.5 y) (f))" scaled.body := by
  have hget : ((Session.start .global 3 "" false).after passing).get? "g" = some (.function scaled) := by rfl
  have hnest : scaled.body.nest = 2 := by decide
  obtain ⟨hparams, -, -, fields, text, hjson, hbody, hread⟩ :=
    functions_read_back 3 "" false passing scaled (.inl ⟨"g", hget⟩)
  cases hjson
  cases hbody
  obtain ⟨hsession, hlimits⟩ := hread floatsReadBack_scaled
  refine ⟨hget, hparams, hnest, floatsReadBack_scaled, hsession, fun hone => ?_⟩
  have hle := (hlimits 1).mp hone
  rw [hnest] at hle
  exact absurd hle (by decide)

end FormLang
