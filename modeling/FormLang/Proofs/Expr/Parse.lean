import FormLang.Proofs.Token.Tree

/-!
# Reading follows the grammar

The builder keeps the items of every open form, innermost form first. Inside an open form it takes the next tree as one
item (`buildInside_flatten_of_le`), or it stops inside that tree because the nesting passes the limit
(`buildInside_flatten_of_lt`). Together with the balance check this leaves three outcomes for a token list: it is no form,
or it is the flattening of a node, which is read as it stands or nested too deep (`parse_tree_cases`).
-/

namespace FormLang

namespace Expr

variable {limit : Nat}

theorem buildInside_opening {nesting : Nat} (hdeep : nesting + 1 ≤ limit) (items : List Expr) (outer : List (List Expr))
    (ts : List Token) :
    buildInside limit nesting items outer (Token.opening :: ts) =
      buildInside limit (nesting + 1) [] (items :: outer) ts := by
  cases outer <;> rw [buildInside, if_pos rfl, if_neg (by omega)]

theorem buildInside_opening_of_lt {nesting : Nat} (hdeep : limit < nesting + 1) (items : List Expr)
    (outer : List (List Expr)) (ts : List Token) :
    buildInside limit nesting items outer (Token.opening :: ts) =
      ⟨.error (.tooDeep limit), ts, nesting + 1 - (outer.length + 2)⟩ := by
  cases outer <;> rw [buildInside, if_pos rfl, if_pos hdeep]

theorem buildInside_atom {t : Token} (ht : t ≠ Token.opening ∧ t ≠ Token.closing) (nesting : Nat) (items : List Expr)
    (outer : List (List Expr)) (ts : List Token) :
    buildInside limit nesting items outer (t :: ts) = buildInside limit nesting (ofToken t :: items) outer ts := by
  cases outer <;> rw [buildInside, if_neg ht.1, if_neg ht.2]

theorem buildInside_closing (nesting : Nat) (items around : List Expr) (outer : List (List Expr)) (ts : List Token) :
    buildInside limit nesting items (around :: outer) (Token.closing :: ts) =
      buildInside limit (nesting - 1) (.list items.reverse :: around) outer ts := by
  rw [buildInside, if_neg Token.closing_ne_opening, if_pos rfl]

theorem buildInside_closing_nil (nesting : Nat) (items : List Expr) (ts : List Token) :
    buildInside limit nesting items [] (Token.closing :: ts) = ⟨.ok (.list items.reverse), ts, nesting - 1⟩ := by
  rw [buildInside, if_neg Token.closing_ne_opening, if_pos rfl]

/-! ## Trees inside an open form -/

mutual

/-- A tree that keeps within the limit is the next item. -/
theorem buildInside_flatten_of_le (nesting : Nat) (items : List Expr) (outer : List (List Expr)) (rest : List Token) :
    ∀ t : TokenTree, t.nest + nesting ≤ limit →
      buildInside limit nesting items outer (t.flatten ++ rest) =
        buildInside limit nesting (t.toExpr :: items) outer rest
  | .leaf _ ht, _ => buildInside_atom ht nesting items outer rest
  | .node cs, hnest => by
    rw [TokenTree.nest] at hnest
    rw [TokenTree.flatten, List.cons_append, List.append_assoc, buildInside_opening (by omega),
      buildInside_flattenAll_of_le (nesting + 1) [] (items :: outer) _ cs (by omega), List.singleton_append,
      buildInside_closing, Nat.add_sub_cancel, List.append_nil, List.reverse_reverse, TokenTree.toExpr]

theorem buildInside_flattenAll_of_le (nesting : Nat) (items : List Expr) (outer : List (List Expr)) (rest : List Token) :
    ∀ cs : List TokenTree, TokenTree.nestAll cs + nesting ≤ limit →
      buildInside limit nesting items outer (TokenTree.flattenAll cs ++ rest) =
        buildInside limit nesting ((TokenTree.toExprs cs).reverse ++ items) outer rest
  | [], _ => rfl
  | c :: cs, hnest => by
    rw [TokenTree.nestAll] at hnest
    rw [TokenTree.flattenAll, List.append_assoc, buildInside_flatten_of_le nesting items outer _ c (by omega),
      buildInside_flattenAll_of_le nesting _ outer rest cs (by omega), TokenTree.toExprs, List.reverse_cons,
      List.append_assoc, List.singleton_append]

end

mutual

/-- A tree that passes the limit is not read to its end. -/
theorem buildInside_flatten_of_lt (nesting : Nat) (items : List Expr) (outer : List (List Expr)) (rest : List Token) :
    ∀ t : TokenTree, nesting ≤ limit → limit < t.nest + nesting →
      (buildInside limit nesting items outer (t.flatten ++ rest)).result = .error (.tooDeep limit)
  | .leaf _ _, hopen, hnest => by
    rw [TokenTree.nest] at hnest
    omega
  | .node cs, hopen, hnest => by
    rw [TokenTree.nest] at hnest
    rw [TokenTree.flatten, List.cons_append, List.append_assoc]
    by_cases hdeep : limit < nesting + 1
    · rw [buildInside_opening_of_lt hdeep]
    · rw [buildInside_opening (by omega)]
      exact buildInside_flattenAll_of_lt (nesting + 1) [] (items :: outer) _ cs (by omega) (by omega)

theorem buildInside_flattenAll_of_lt (nesting : Nat) (items : List Expr) (outer : List (List Expr)) (rest : List Token) :
    ∀ cs : List TokenTree, nesting ≤ limit → limit < TokenTree.nestAll cs + nesting →
      (buildInside limit nesting items outer (TokenTree.flattenAll cs ++ rest)).result = .error (.tooDeep limit)
  | [], hopen, hnest => by
    rw [TokenTree.nestAll] at hnest
    omega
  | c :: cs, hopen, hnest => by
    rw [TokenTree.nestAll] at hnest
    rw [TokenTree.flattenAll, List.append_assoc]
    by_cases hfirst : limit < c.nest + nesting
    · exact buildInside_flatten_of_lt nesting items outer _ c hopen hfirst
    · rw [buildInside_flatten_of_le nesting items outer _ c (by omega)]
      exact buildInside_flattenAll_of_lt nesting _ outer rest cs hopen (by omega)

end

/-! ## Whole trees -/

/-- A tree that keeps within the limit is read, and nothing after it. -/
theorem buildFrom_flatten_of_le (nesting : Nat) {t : TokenTree} (hnest : t.nest + nesting ≤ limit) (rest : List Token) :
    buildFrom limit nesting (t.flatten ++ rest) = ⟨.ok t.toExpr, rest, nesting⟩ := by
  cases t with
  | leaf t ht =>
    rw [TokenTree.flatten, List.singleton_append, buildFrom, if_neg ht.1, if_neg ht.2]
    rfl
  | node cs =>
    rw [TokenTree.nest] at hnest
    rw [TokenTree.flatten, List.cons_append, List.append_assoc, buildFrom, if_pos rfl, if_neg (by omega),
      buildInside_flattenAll_of_le (nesting + 1) [] [] _ cs (by omega), List.singleton_append, buildInside_closing_nil,
      Nat.add_sub_cancel, List.append_nil, List.reverse_reverse, TokenTree.toExpr]

theorem buildFrom_flatten_of_lt {nesting : Nat} (t : TokenTree) (hopen : nesting ≤ limit) (hnest : limit < t.nest + nesting)
    (rest : List Token) : (buildFrom limit nesting (t.flatten ++ rest)).result = .error (.tooDeep limit) := by
  cases t with
  | leaf t ht =>
    rw [TokenTree.nest] at hnest
    omega
  | node cs =>
    rw [TokenTree.nest] at hnest
    rw [TokenTree.flatten, List.cons_append, List.append_assoc, buildFrom, if_pos rfl]
    by_cases hfull : limit < nesting + 1
    · rw [if_pos hfull]
    · rw [if_neg hfull]
      exact buildInside_flattenAll_of_lt (nesting + 1) [] [] _ cs (by omega) (by omega)

theorem build_node_of_le {cs : List TokenTree} (hnest : (TokenTree.node cs).nest ≤ limit) :
    build limit (TokenTree.node cs).flatten = (.ok (TokenTree.node cs).toExpr, []) := by
  have hbuilt := buildFrom_flatten_of_le 0 (t := .node cs) hnest []
  rw [List.append_nil] at hbuilt
  rw [build, hbuilt]

theorem build_node_of_lt {cs : List TokenTree} (hnest : limit < (TokenTree.node cs).nest) :
    (build limit (TokenTree.node cs).flatten).1 = .error (.tooDeep limit) := by
  have hbuilt := buildFrom_flatten_of_lt (.node cs) (Nat.zero_le limit) hnest []
  rw [List.append_nil] at hbuilt
  exact hbuilt

theorem parse_node_of_le {limit : Int} {cs : List TokenTree} (hnest : (TokenTree.node cs).nest ≤ effectiveLimit limit) :
    parse limit (TokenTree.node cs).flatten = .ok (TokenTree.node cs).toExpr := by
  rw [parse, Token.checkBalance_flatten, build_node_of_le hnest]

theorem parse_node_of_lt {limit : Int} {cs : List TokenTree} (hnest : effectiveLimit limit < (TokenTree.node cs).nest) :
    parse limit (TokenTree.node cs).flatten = .error (.read (.tooDeep (effectiveLimit limit))) := by
  have hbuild := build_node_of_lt hnest
  rw [parse, Token.checkBalance_flatten]
  revert hbuild
  rcases build (effectiveLimit limit) (TokenTree.node cs).flatten with ⟨r, rest⟩
  rintro rfl
  rfl

/-- What is no form fails the balance check, under any limit. -/
theorem parse_of_not_node {ts : List Token} (h : ¬ ∃ cs, ts = (TokenTree.node cs).flatten) :
    ∃ err, ∀ limit, parse limit ts = .error (.balance err) := by
  rw [← Token.checkBalance_eq_ok_iff] at h
  cases hcheck : Token.checkBalance ts with
  | error err =>
    refine ⟨err, fun limit => ?_⟩
    rw [parse, hcheck]
  | ok u => exact absurd hcheck h

/-- A token list is read as its tree, or it is nested too deep, or it is no form. -/
theorem parse_tree_cases (limit : Int) (ts : List Token) :
    (∃ cs, ts = (TokenTree.node cs).flatten ∧ (TokenTree.node cs).nest ≤ effectiveLimit limit ∧
      parse limit ts = .ok (TokenTree.node cs).toExpr) ∨
    (∃ cs, ts = (TokenTree.node cs).flatten ∧ effectiveLimit limit < (TokenTree.node cs).nest ∧
      parse limit ts = .error (.read (.tooDeep (effectiveLimit limit)))) ∨
    ((¬ ∃ cs, ts = (TokenTree.node cs).flatten) ∧ ∃ err, parse limit ts = .error (.balance err)) := by
  by_cases hnode : ∃ cs, ts = (TokenTree.node cs).flatten
  · obtain ⟨cs, rfl⟩ := hnode
    rcases Nat.lt_or_ge (effectiveLimit limit) (TokenTree.node cs).nest with hlt | hle
    · exact .inr (.inl ⟨cs, rfl, hlt, parse_node_of_lt hlt⟩)
    · exact .inl ⟨cs, rfl, hle, parse_node_of_le hle⟩
  · obtain ⟨err, hparse⟩ := parse_of_not_node hnode
    exact .inr (.inr ⟨hnode, err, hparse limit⟩)

/-- **Parsing accepts exactly the grammar.** A token list is read as the tree that it flattens, if that is a node nested no
deeper than the limit. The balance check refuses what flattens no node, the builder what is nested deeper, and nothing
else is ever refused. -/
theorem parse_eq_iff_tree (limit : Int) (ts : List Token) :
    (∀ e, parse limit ts = .ok e ↔ ∃ cs, ts = (TokenTree.node cs).flatten ∧
      (TokenTree.node cs).nest ≤ effectiveLimit limit ∧ e = (TokenTree.node cs).toExpr) ∧
    ((∃ err, parse limit ts = .error (.balance err)) ↔ ¬ ∃ cs, ts = (TokenTree.node cs).flatten) ∧
    ((∃ err, parse limit ts = .error (.read err) ∧ err.code = .resource) ↔
      ∃ cs, ts = (TokenTree.node cs).flatten ∧ effectiveLimit limit < (TokenTree.node cs).nest) ∧
    (∀ err, parse limit ts = .error (.read err) → err = .tooDeep (effectiveLimit limit)) := by
  have hcases := parse_tree_cases limit ts
  refine ⟨fun e => ⟨fun hparse => ?_, ?_⟩, ⟨fun ⟨err, hparse⟩ => ?_, fun hnode => ?_⟩,
    ⟨fun ⟨err, hparse, _⟩ => ?_, ?_⟩, fun err hparse => ?_⟩
  · rw [hparse] at hcases
    obtain ⟨cs, hts, hle, hok⟩ | ⟨cs, -, -, herr⟩ | ⟨-, err, herr⟩ := hcases
    · exact ⟨cs, hts, hle, Except.ok.inj hok⟩
    · cases herr
    · cases herr
  · rintro ⟨cs, rfl, hle, rfl⟩
    exact parse_node_of_le hle
  · rw [hparse] at hcases
    obtain ⟨cs, -, -, hok⟩ | ⟨cs, -, -, herr⟩ | ⟨hnode, -⟩ := hcases
    · cases hok
    · cases herr
    · exact hnode
  · obtain ⟨err, hparse⟩ := parse_of_not_node hnode
    exact ⟨err, hparse limit⟩
  · rw [hparse] at hcases
    obtain ⟨cs, -, -, hok⟩ | ⟨cs, hts, hlt, -⟩ | ⟨-, err', herr⟩ := hcases
    · cases hok
    · exact ⟨cs, hts, hlt⟩
    · cases herr
  · rintro ⟨cs, rfl, hlt⟩
    exact ⟨_, parse_node_of_lt hlt, rfl⟩
  · rw [hparse] at hcases
    obtain ⟨cs, -, -, hok⟩ | ⟨cs, -, -, herr⟩ | ⟨-, err', herr⟩ := hcases
    · cases hok
    · cases herr
      rfl
    · cases herr

end Expr

end FormLang
