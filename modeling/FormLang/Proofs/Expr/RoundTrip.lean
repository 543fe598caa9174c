import FormLang.Proofs.Expr.Parse
import FormLang.Proofs.Expr.Printed

/-!
# Reading what was printed

The tokens of a legible expression flatten a tree that writes it (`exists_node`). An expression that was read from a text is
a list and, as far as its floats read back, legible (`legible_of_ofText`); so what it prints is read as that expression again,
under every limit as the text was (`readings_pretty`): how deep a tree is nested can be seen in the expression that it writes.

An expression that was built otherwise is worded if its names can be written, and what it prints has its tokens. It is legible
if moreover its names and floats read back (`read_printed`).
-/

namespace FormLang

/-! ## Nesting -/

namespace Expr

mutual

/-- How deep lists are nested. -/
def nest : Expr → Nat
  | .list items => 1 + nestAll items
  | _ => 0

def nestAll : List Expr → Nat
  | [] => 0
  | e :: rest => max e.nest (nestAll rest)

end

/-- A token is read as a number, or it is a symbol. -/
theorem ofToken_cases (t : Token) :
    (∃ n, ofToken t = .int n) ∨ (∃ f, ofToken t = .float f) ∨ ofToken t = .symbol t := by
  unfold ofToken
  split
  · exact .inl ⟨_, rfl⟩
  · split
    · exact .inr (.inl ⟨_, rfl⟩)
    · exact .inr (.inr rfl)

theorem nest_ofToken (t : Token) : (ofToken t).nest = 0 := by
  rcases ofToken_cases t with ⟨n, h⟩ | ⟨f, h⟩ | h <;> rw [h, nest] <;> simp

end Expr

namespace TokenTree

mutual

theorem nest_toExpr : ∀ t : TokenTree, t.toExpr.nest = t.nest
  | .leaf t _ => Expr.nest_ofToken t
  | .node cs => by rw [toExpr, Expr.nest, nest, nestAll_toExprs cs]

theorem nestAll_toExprs : ∀ cs : List TokenTree, Expr.nestAll (toExprs cs) = nestAll cs
  | [] => rfl
  | c :: cs => by rw [toExprs, Expr.nestAll, nestAll, nest_toExpr c, nestAll_toExprs cs]

end

end TokenTree

namespace Expr

/-- What is read from a form is settled by the expression that the form writes. -/
theorem parse_node_eq {cs cs' : List TokenTree} (h : (TokenTree.node cs).toExpr = (TokenTree.node cs').toExpr)
    (limit : Int) : parse limit (TokenTree.node cs).flatten = parse limit (TokenTree.node cs').flatten := by
  have hnest : (TokenTree.node cs).nest = (TokenTree.node cs').nest := by
    rw [← TokenTree.nest_toExpr, h, TokenTree.nest_toExpr]
  rcases Nat.lt_or_ge (effectiveLimit limit) (TokenTree.node cs).nest with hlt | hle
  · rw [parse_node_of_lt hlt, parse_node_of_lt (hnest ▸ hlt)]
  · rw [parse_node_of_le hle, parse_node_of_le (hnest ▸ hle), h]

/-! ## Legible expressions have trees -/

theorem node_writes {cs : List TokenTree} {items : List Expr} (hflat : TokenTree.flattenAll cs = tokensAll items)
    (hexprs : TokenTree.toExprs cs = items) :
    (TokenTree.node cs).flatten = (Expr.list items).tokens ∧ (TokenTree.node cs).toExpr = .list items := by
  rw [TokenTree.flatten, hflat, tokens, TokenTree.toExpr, hexprs]
  exact ⟨rfl, rfl⟩

theorem leafCases_tree : LeafCases ReadsBack (fun e => ∃ t : TokenTree, t.flatten = e.tokens ∧ t.toExpr = e)
    (fun es => ∃ cs, TokenTree.flattenAll cs = tokensAll es ∧ TokenTree.toExprs cs = es) where
  leaf a ha htokens := ⟨.leaf a.flat ⟨ha.1.ne_opening, ha.1.ne_closing⟩, htokens.symm, ha.2⟩
  list items := fun ⟨cs, hflat, hexprs⟩ => ⟨.node cs, node_writes hflat hexprs⟩
  noItems := ⟨[], rfl, rfl⟩
  items e rest := by
    rintro ⟨c, hflat, hexpr⟩ ⟨cs, hflats, hexprs⟩
    refine ⟨c :: cs, ?_, ?_⟩
    · rw [TokenTree.flattenAll, hflat, hflats, tokensAll]
    · rw [TokenTree.toExprs, hexpr, hexprs]

/-- The tokens of a legible list flatten a node that writes it. -/
theorem exists_node {items : List Expr} (h : LegibleAll items) :
    ∃ cs, (TokenTree.node cs).flatten = (Expr.list items).tokens ∧ (TokenTree.node cs).toExpr = .list items := by
  obtain ⟨cs, hflat, hexprs⟩ := leavesAll_induction leafCases_tree h
  exact ⟨cs, node_writes hflat hexprs⟩

/-! ## What is read is legible -/

/-- Every float that occurs in the expression is read back from its text. -/
def FloatsReadBack (e : Expr) : Prop :=
  ∀ f, .float f ∈ e.leaves → ofToken (floatText f) = .float f

/-- Every leaf of the expression is what some word is read as. -/
def FromWords (e : Expr) : Prop :=
  ∀ a ∈ e.leaves, ∃ w, Token.IsWord w ∧ ofToken w = a

theorem leaves_ofToken (t : Token) : (ofToken t).leaves = [ofToken t] := by
  rcases ofToken_cases t with ⟨n, h⟩ | ⟨f, h⟩ | h <;> rw [h] <;> rfl

/-- An expression that was made from words is legible, as far as its floats read back. -/
theorem FromWords.legible {e : Expr} (h : e.FromWords) (hfloats : e.FloatsReadBack) : e.Legible := by
  intro a ha
  obtain ⟨w, hword, rfl⟩ := h a ha
  rcases ofToken_cases w with ⟨n, hn⟩ | ⟨f, hf⟩ | hname
  · rw [hn]
    exact readsBack_int n
  · rw [hf] at ha ⊢
    exact ⟨isWord_floatText f, hfloats f ha⟩
  · rw [hname]
    exact ⟨hword, hname⟩

mutual

theorem fromWords_toExpr : ∀ t : TokenTree,
    (∀ w ∈ t.flatten, w = Token.opening ∨ w = Token.closing ∨ Token.IsWord w) → t.toExpr.FromWords
  | .leaf t ht, hwords => by
    rcases hwords t (List.mem_singleton_self t) with hopen | hclose | hword
    · exact absurd hopen ht.1
    · exact absurd hclose ht.2
    · intro a ha
      rw [TokenTree.toExpr, leaves_ofToken, List.mem_singleton] at ha
      exact ⟨t, hword, ha.symm⟩
  | .node cs, hwords => by
    refine fromWords_toExprs cs fun w hw => hwords w ?_
    rw [TokenTree.flatten]
    exact List.mem_cons_of_mem _ (List.mem_append_left _ hw)

theorem fromWords_toExprs : ∀ cs : List TokenTree,
    (∀ w ∈ TokenTree.flattenAll cs, w = Token.opening ∨ w = Token.closing ∨ Token.IsWord w) →
    ∀ a ∈ leavesAll (TokenTree.toExprs cs), ∃ w, Token.IsWord w ∧ ofToken w = a
  | [], _ => by simp [TokenTree.toExprs, leavesAll]
  | c :: cs, hwords => by
    rw [TokenTree.flattenAll, List.forall_mem_append] at hwords
    rw [TokenTree.toExprs, leavesAll, List.forall_mem_append]
    exact ⟨fromWords_toExpr c hwords.1, fromWords_toExprs cs hwords.2⟩

end

/-! ## Texts -/

theorem exists_node_of_ofText {text : String} {e : Expr} (h : ofText text = .ok e) :
    ∃ cs, Token.ofText text = (TokenTree.node cs).flatten ∧ (TokenTree.node cs).toExpr = e := by
  rcases parse_tree_cases 0 (Token.ofText text) with ⟨cs, hts, -, hok⟩ | ⟨cs, -, -, herr⟩ | ⟨-, err, herr⟩
  · exact ⟨cs, hts, Except.ok.inj (hok.symm.trans h)⟩
  · cases herr.symm.trans h
  · cases herr.symm.trans h

theorem legible_of_ofText {text : String} {e : Expr} (h : ofText text = .ok e) (hfloats : e.FloatsReadBack) :
    e.Legible := by
  obtain ⟨cs, hts, rfl⟩ := exists_node_of_ofText h
  refine (fromWords_toExpr _ fun w hw => ?_).legible hfloats
  rw [← hts] at hw
  exact Token.token_cases hw

/-- What a text is read as under each limit. -/
def readings (text : String) (limit : Int) : Except ParseError Expr :=
  parse limit (Token.ofText text)

/-- An expression that was read is printed as a text that reads like the one it came from. -/
theorem readings_pretty {text : String} {e : Expr} (h : ofText text = .ok e) (hfloats : e.FloatsReadBack) :
    readings e.pretty = readings text := by
  have hlegible := legible_of_ofText h hfloats
  obtain ⟨cs, hts, rfl⟩ := exists_node_of_ofText h
  obtain ⟨cs', hflat, hexpr⟩ := exists_node hlegible
  funext limit
  rw [readings, readings, ofText_pretty hlegible.worded, hts, TokenTree.toExpr, ← hflat]
  exact parse_node_eq hexpr limit

/-! ## Expressions built otherwise -/

mutual

theorem list_notMem_leaves (items : List Expr) : ∀ e : Expr, .list items ∉ e.leaves
  | .list es => list_notMem_leavesAll items es
  | .int _ | .float _ | .symbol _ | .hole => by simp [leaves]

theorem list_notMem_leavesAll (items : List Expr) : ∀ es : List Expr, .list items ∉ leavesAll es
  | [] => List.not_mem_nil
  | e :: es => by
    rw [leavesAll, List.mem_append, not_or]
    exact ⟨list_notMem_leaves items e, list_notMem_leavesAll items es⟩

end

/-- Nothing in the expression is a hole, and its names can be written: they are not empty and hold no blanks and no
parentheses. -/
structure Writable (e : Expr) : Prop where
  noHole : .hole ∉ e.leaves
  name : ∀ name, .symbol name ∈ e.leaves →
    name ≠ "" ∧ ∀ c ∈ name.toList, Text.isBlank c = false ∧ c ≠ '(' ∧ c ≠ ')'

/-- Every name that occurs in the expression is read as a symbol. -/
def NamesReadBack (e : Expr) : Prop :=
  ∀ name, .symbol name ∈ e.leaves → ofToken name = .symbol name

theorem Writable.worded {e : Expr} (h : e.Writable) : e.Worded := by
  intro a ha
  cases a with
  | int n => exact Decimal.isWord_ofInt n.toInt
  | float f => exact isWord_floatText f
  | symbol name =>
    obtain ⟨hne, hchars⟩ := h.name name ha
    exact Token.isWord_of_not_blank hne hchars
  | list items => exact absurd ha (list_notMem_leaves items e)
  | hole => exact absurd ha h.noHole

theorem Writable.legible {e : Expr} (h : e.Writable) (hnames : e.NamesReadBack) (hfloats : e.FloatsReadBack) : e.Legible := by
  intro a ha
  refine ⟨h.worded a ha, ?_⟩
  cases a with
  | int n => exact (readsBack_int n).2
  | float f => exact hfloats f ha
  | symbol name => exact hnames name ha
  | list items => exact absurd ha (list_notMem_leaves items e)
  | hole => exact absurd ha h.noHole

/-- A text with the tokens of a legible list is read as that list, if the list is not nested too deep. -/
theorem ofText_eq_ok {items : List Expr} (h : LegibleAll items) (hnest : (Expr.list items).nest ≤ defaultLimit)
    {text : String} (htext : Token.ofText text = (Expr.list items).tokens) : ofText text = .ok (.list items) := by
  obtain ⟨cs, hflat, hexpr⟩ := exists_node h
  rw [← hexpr, TokenTree.nest_toExpr] at hnest
  rw [ofText, htext, ← hflat, ← hexpr]
  exact parse_node_of_le hnest

/-- **Printing then reading gives the expression back.** On one line or over several, an expression that can be written prints
its own tokens. A list that is nested within the default limit and whose names and floats read back is read from both texts. -/
theorem read_printed (e : Expr) (h : e.Writable) :
    Token.ofText e.flat = e.tokens ∧ Token.ofText e.pretty = e.tokens ∧
    ∀ items, e = .list items → e.nest ≤ 10000 → e.NamesReadBack → e.FloatsReadBack →
      ofText e.flat = .ok e ∧ ofText e.pretty = .ok e := by
  refine ⟨ofText_flat h.worded, ofText_pretty h.worded, ?_⟩
  rintro items rfl hnest hnames hfloats
  have hlegible : LegibleAll items := h.legible hnames hfloats
  exact ⟨ofText_eq_ok hlegible hnest (ofText_flat h.worded), ofText_eq_ok hlegible hnest (ofText_pretty h.worded)⟩

/-- A form that is too wide for one line. -/
def wide : Expr :=
  .list [.symbol "+", .int 7, .float 1.5, .list [.symbol "*", .int 1234567890123456, .int 1234567890123457],
    .list [.symbol "-", .int 1234567890123458, .int (-9)], .symbol "rate"]

theorem mem_names_wide {name : String} (h : .symbol name ∈ wide.leaves) : name ∈ ["+", "*", "-", "rate"] := by
  simpa [wide, leaves, leavesAll, or_assoc] using h

theorem writable_wide : wide.Writable where
  noHole := by simp [wide, leaves, leavesAll]
  name name h := by
    have hall : ["+", "*", "-", "rate"].all (fun name =>
        name ≠ "" && name.toList.all fun c => !Text.isBlank c && c ≠ '(' && c ≠ ')') = true := by
      decide
    have hname := List.all_eq_true.mp hall name (mem_names_wide h)
    simpa [and_assoc] using hname

theorem namesReadBack_wide : wide.NamesReadBack := by
  intro name h
  have hcases := mem_names_wide h
  simp only [List.mem_cons, List.not_mem_nil, or_false] at hcases
  rcases hcases with rfl | rfl | rfl | rfl <;> rfl

theorem floatsReadBack_wide : wide.FloatsReadBack := by
  intro f hf
  obtain rfl : f = 1.5 := by simpa [wide, leaves, leavesAll] using hf
  rfl

/-- The form is broken over five lines, and it is read from them as from its one line. -/
theorem read_printed_wide :
    wide.Writable ∧
    wide.pretty = "(+ 7\n  1.5\n  (* 1234567890123456 1234567890123457)\n  (- 1234567890123458 -9)\n  rate)" ∧
    ofText wide.flat = .ok wide ∧ ofText wide.pretty = .ok wide := by
  refine ⟨writable_wide, by decide +kernel, ?_⟩
  obtain ⟨-, -, hread⟩ := read_printed wide writable_wide
  exact hread _ rfl (by decide +kernel) namesReadBack_wide floatsReadBack_wide

end Expr

end FormLang
