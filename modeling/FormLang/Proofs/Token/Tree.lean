import FormLang.Expr.Reader
import FormLang.Proofs.Token.Depth

/-!
# Token trees

The grammar that reading follows: a token list is a form exactly if it is the flattening of a tree whose root is a node.

`checkBalance_eq_ok_iff`: the balance check accepts the flattenings of nodes and nothing else, although it keeps no more
than the number of open parentheses. Tokens that come back from a depth are cut, from left to right, into as many forests as
there are open parentheses (`forests_of_returns`).
-/

namespace FormLang

/-- A token other than a parenthesis, or a list of trees. -/
inductive TokenTree where
  | leaf (t : Token) (atom : t ≠ Token.opening ∧ t ≠ Token.closing)
  | node (children : List TokenTree)

namespace TokenTree

mutual

/-- The tokens of a tree, with parentheses around those of each node. -/
def flatten : TokenTree → List Token
  | .leaf t _ => [t]
  | .node cs => Token.opening :: (flattenAll cs ++ [Token.closing])

def flattenAll : List TokenTree → List Token
  | [] => []
  | c :: cs => c.flatten ++ flattenAll cs

end

mutual

/-- How deep nodes are nested. -/
def nest : TokenTree → Nat
  | .leaf _ _ => 0
  | .node cs => 1 + nestAll cs

def nestAll : List TokenTree → Nat
  | [] => 0
  | c :: cs => max c.nest (nestAll cs)

end

mutual

/-- The expression that a tree writes. -/
def toExpr : TokenTree → Expr
  | .leaf t _ => Expr.ofToken t
  | .node cs => .list (toExprs cs)

def toExprs : List TokenTree → List Expr
  | [] => []
  | c :: cs => c.toExpr :: toExprs cs

end

end TokenTree

/-! ## The balance check -/

namespace Token

mutual

/-- Inside an open form a tree leaves the number of open parentheses as it was. -/
theorem scanBalance_flatten (position opened : Nat) (rest : List Token) : ∀ t : TokenTree,
    scanBalance position (opened + 1) (t.flatten ++ rest) =
      scanBalance (position + t.flatten.length) (opened + 1) rest
  | .leaf t ht => scanBalance_atom ht position (opened + 1) rest
  | .node cs => by
    have hnotLast : (opened + 1 = 0 && !rest.isEmpty) = false := by simp
    rw [TokenTree.flatten, List.cons_append, List.append_assoc, scanBalance_opening, scanBalance_flattenAll,
      List.singleton_append, scanBalance_closing, hnotLast, if_neg Bool.false_ne_true]
    have hposition : position + 1 + (TokenTree.flattenAll cs).length + 1 =
        position + (Token.opening :: (TokenTree.flattenAll cs ++ [Token.closing])).length := by
      simp only [List.length_cons, List.length_append, List.length_nil]
      omega
    rw [hposition]

theorem scanBalance_flattenAll (position opened : Nat) (rest : List Token) : ∀ cs : List TokenTree,
    scanBalance position (opened + 1) (TokenTree.flattenAll cs ++ rest) =
      scanBalance (position + (TokenTree.flattenAll cs).length) (opened + 1) rest
  | [] => rfl
  | c :: cs => by
    rw [TokenTree.flattenAll, List.append_assoc, scanBalance_flatten, scanBalance_flattenAll, List.length_append,
      Nat.add_assoc]

end

theorem checkBalance_flatten (cs : List TokenTree) : checkBalance (TokenTree.node cs).flatten = .ok () := by
  have houter : checkOuter (TokenTree.node cs).flatten = .ok () := by
    rw [TokenTree.flatten, checkOuter, if_neg (by simp), ← List.cons_append, List.getLast?_concat]
    simp
  have hscan : scanBalance 1 0 (TokenTree.node cs).flatten = .ok () := by
    rw [TokenTree.flatten, scanBalance_opening, scanBalance_flattenAll, scanBalance_closing]
    rfl
  rw [checkBalance, houter]
  exact hscan

/-- Tokens that come back from a depth are cut into as many forests as there are open parentheses, each with the parenthesis
that closes it. -/
theorem forests_of_returns (opened : Nat) {ts : List Token} (h : Returns (opened + 1) ts) :
    ∃ fs : List (List TokenTree), fs.length = opened + 1 ∧
      ts = fs.flatMap fun cs => TokenTree.flattenAll cs ++ [closing] := by
  induction ts generalizing opened with
  | nil =>
    rw [returns_nil_iff] at h
    omega
  | cons t ts ih =>
    obtain ⟨-, h⟩ := (returns_cons_iff _ t ts).mp h
    rcases token_kinds t with rfl | rfl | ht
    · -- the first forest is the children of a node that stands first in the second
      obtain ⟨fs, hlen, rfl⟩ := ih (opened + 1) h
      obtain ⟨inner, next, rest, rfl⟩ : ∃ inner next rest, fs = inner :: next :: rest := by
        rcases fs with _ | ⟨inner, _ | ⟨next, rest⟩⟩ <;> simp_all
      refine ⟨(.node inner :: next) :: rest, by simpa using hlen, ?_⟩
      simp [TokenTree.flattenAll, TokenTree.flatten]
    · have hdown : (opened : Int) + 1 + rise closing = opened := by
        rw [rise_closing]
        omega
      rw [hdown] at h
      cases opened with
      | zero =>
        obtain rfl := (returns_zero_iff ts).mp h
        exact ⟨[[]], rfl, by simp [TokenTree.flattenAll]⟩
      | succ opened =>
        obtain ⟨fs, hlen, rfl⟩ := ih opened h
        exact ⟨[] :: fs, by simp [hlen], by simp [TokenTree.flattenAll]⟩
    · rw [rise_atom ht, Int.add_zero] at h
      obtain ⟨fs, hlen, rfl⟩ := ih opened h
      obtain ⟨first, rest, rfl⟩ : ∃ first rest, fs = first :: rest := by
        rcases fs with _ | ⟨first, rest⟩ <;> simp_all
      refine ⟨(.leaf t ht :: first) :: rest, by simpa using hlen, ?_⟩
      simp [TokenTree.flattenAll, TokenTree.flatten]

/-- What opens a form and comes back to zero with its last token is the flattening of a node. -/
theorem node_of_returns {ts : List Token} (h : Returns 1 ts) : ∃ cs, opening :: ts = (TokenTree.node cs).flatten := by
  obtain ⟨fs, hlen, rfl⟩ := forests_of_returns 0 h
  obtain ⟨cs, rfl⟩ : ∃ cs, fs = [cs] := List.length_eq_one_iff.mp hlen
  exact ⟨cs, by simp [TokenTree.flatten]⟩

/-- **The balance check accepts exactly the flattenings of nodes.** -/
theorem checkBalance_eq_ok_iff (ts : List Token) :
    checkBalance ts = .ok () ↔ ∃ cs, ts = (TokenTree.node cs).flatten := by
  constructor
  · intro h
    obtain ⟨houter, hnet, hearly⟩ := (checkBalance_eq_ok_iff_depth ts).mp h
    obtain ⟨hne, hhead, -⟩ := (checkOuter_eq_ok_iff ts).mp houter
    obtain ⟨t, ts, rfl⟩ := List.exists_cons_of_ne_nil hne
    obtain rfl : t = opening := Option.some.inj hhead
    exact node_of_returns ((returns_one_iff ts).mpr ⟨hnet, hearly⟩)
  · rintro ⟨cs, rfl⟩
    exact checkBalance_flatten cs

end Token

end FormLang
