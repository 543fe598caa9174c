import FormLang.Proofs.Decimal.Words

/-!
# The tokens of printed expressions

An expression is worded if each of its leaves prints as a word, and legible if moreover that word is read as the leaf. On one
line or broken over several, a worded expression prints the same tokens (`ofText_flat`, `ofText_pretty`): layout adds blanks
only, and between words it always adds one.

`leaves_induction` is the induction over expressions with leaves of some kind, `pretty_induction` the one over the lines that
an expression is broken into.
-/

namespace FormLang.Expr

/-! ## Leaves -/

mutual

/-- The parts that are no lists, from left to right. -/
def leaves : Expr → List Expr
  | .list items => leavesAll items
  | e => [e]

def leavesAll : List Expr → List Expr
  | [] => []
  | e :: rest => e.leaves ++ leavesAll rest

end

mutual

/-- The tokens that write an expression: its leaves, and parentheses around the items of each list. -/
def tokens : Expr → List Token
  | .list items => Token.opening :: (tokensAll items ++ [Token.closing])
  | e => [e.flat]

def tokensAll : List Expr → List Token
  | [] => []
  | e :: rest => e.tokens ++ tokensAll rest

end

/-- A leaf that prints as a word. -/
def PrintsWord (a : Expr) : Prop :=
  Token.IsWord a.flat

def Worded (e : Expr) : Prop :=
  ∀ a ∈ e.leaves, a.PrintsWord

def WordedAll (es : List Expr) : Prop :=
  ∀ a ∈ leavesAll es, a.PrintsWord

theorem wordedAll_cons {e : Expr} {es : List Expr} : WordedAll (e :: es) ↔ e.Worded ∧ WordedAll es := by
  rw [WordedAll, leavesAll, List.forall_mem_append]
  rfl

/-- A leaf that prints as a word which is read as that leaf. -/
def ReadsBack (a : Expr) : Prop :=
  Token.IsWord a.flat ∧ ofToken a.flat = a

def Legible (e : Expr) : Prop :=
  ∀ a ∈ e.leaves, a.ReadsBack

def LegibleAll (es : List Expr) : Prop :=
  ∀ a ∈ leavesAll es, a.ReadsBack

theorem Legible.worded {e : Expr} (h : e.Legible) : e.Worded :=
  fun a ha => (h a ha).1

theorem readsBack_int (n : Int64) : (Expr.int n).ReadsBack := by
  refine ⟨Decimal.isWord_ofInt n.toInt, ?_⟩
  rw [flat, ofToken, Numeral.integer?_ofInt64]

/-- A property of expressions and one of lists of them, which hold wherever all leaves are of one kind, if they hold of leaves of
that kind and pass from items to lists. -/
structure LeafCases (kind P : Expr → Prop) (Q : List Expr → Prop) : Prop where
  leaf : ∀ a : Expr, kind a → a.tokens = [a.flat] → P a
  list : ∀ items, Q items → P (.list items)
  noItems : Q []
  items : ∀ e rest, P e → Q rest → Q (e :: rest)

section Induction

variable {kind P : Expr → Prop} {Q : List Expr → Prop}

mutual

theorem leaves_induction (cases : LeafCases kind P Q) : ∀ {e : Expr}, (∀ a ∈ e.leaves, kind a) → P e
  | .list items, h => cases.list items (leavesAll_induction cases h)
  | .int n, h => cases.leaf (.int n) (h _ (List.mem_singleton_self _)) rfl
  | .float f, h => cases.leaf (.float f) (h _ (List.mem_singleton_self _)) rfl
  | .symbol name, h => cases.leaf (.symbol name) (h _ (List.mem_singleton_self _)) rfl
  | .hole, h => cases.leaf .hole (h _ (List.mem_singleton_self _)) rfl

theorem leavesAll_induction (cases : LeafCases kind P Q) : ∀ {es : List Expr}, (∀ a ∈ leavesAll es, kind a) → Q es
  | [], _ => cases.noItems
  | e :: rest, h =>
    have hparts := List.forall_mem_append.mp h
    cases.items e rest (leaves_induction cases hparts.1) (leavesAll_induction cases hparts.2)

end

end Induction

/-! ## On one line -/

theorem leafCases_tokens : LeafCases PrintsWord (fun e => Token.ofText e.flat = e.tokens)
    (fun es => (flatItems es).flatMap Token.ofText = tokensAll es) where
  leaf a ha htokens := by
    rw [htokens, Token.ofText_word ha]
  list items ih := by
    rw [flat, Token.ofText_append_closing, Token.ofText_opening_append, Token.ofText_unwords, ih, tokens, List.cons_append]
  noItems := rfl
  items e rest ih ih' := by
    rw [flatItems, List.flatMap_cons, ih, ih', tokensAll]

theorem ofText_flat {e : Expr} (h : e.Worded) : Token.ofText e.flat = e.tokens :=
  leaves_induction leafCases_tokens h

theorem leafCases_plain :
    LeafCases PrintsWord (fun e => Token.IsPlain e.flat) (fun es => ∀ t ∈ flatItems es, Token.IsPlain t) where
  leaf _ ha _ := Token.IsWord.isPlain ha
  list items ih := by
    rw [flat]
    exact (Token.isPlain_opening.append (Token.isPlain_unwords ih)).append Token.isPlain_closing
  noItems := by simp [flatItems]
  items e rest ih ih' := by
    rw [flatItems, List.forall_mem_cons]
    exact ⟨ih, ih'⟩

theorem isPlain_flat {e : Expr} (h : e.Worded) : Token.IsPlain e.flat :=
  leaves_induction leafCases_plain h

/-! ## Over several lines -/

/-- A property of the lines of expressions and one of the lines of items, kept by the two ways in which an expression is laid
out and by putting the lines of items one after another. -/
structure LineCases (P : Nat → Expr → List String → Prop) (Q : Nat → List Expr → List String → Prop) : Prop where
  oneLine : ∀ d e, P d e [indent d ++ e.flat]
  broken : ∀ d head first rest ls, Q (d + 1) rest ls →
    P d (.list (head :: first :: rest)) (extendLast ")" ((indent d ++ "(" ++ head.flat ++ " " ++ first.flat) :: ls))
  noItems : ∀ d, Q d [] []
  items : ∀ d e rest ls ls', P d e ls → Q d rest ls' → Q d (e :: rest) (ls ++ ls')

section LineInduction

variable {P : Nat → Expr → List String → Prop} {Q : Nat → List Expr → List String → Prop}

mutual

theorem pretty_induction (h : LineCases P Q) (d : Nat) : ∀ e, P d e (prettyLines d e)
  | .list (head :: first :: rest) => by
    rw [prettyLines]
    split
    · exact h.oneLine d _
    · exact h.broken d head first rest _ (prettyItems_induction h (d + 1) rest)
  | .list [] => h.oneLine d (.list [])
  | .list [a] => h.oneLine d (.list [a])
  | .int n => h.oneLine d (.int n)
  | .float f => h.oneLine d (.float f)
  | .symbol name => h.oneLine d (.symbol name)
  | .hole => h.oneLine d .hole

theorem prettyItems_induction (h : LineCases P Q) (d : Nat) : ∀ es, Q d es (prettyItems d es)
  | [] => h.noItems d
  | e :: rest => h.items d e rest _ _ (pretty_induction h d e) (prettyItems_induction h d rest)

end

end LineInduction

theorem extendLast_concat (suffix last : String) (init : List String) :
    extendLast suffix (init ++ [last]) = init ++ [last ++ suffix] := by
  induction init with
  | nil => rfl
  | cons line rest ih =>
    have hstep : extendLast suffix (line :: (rest ++ [last])) = line :: extendLast suffix (rest ++ [last]) := by
      cases rest <;> rfl
    rw [List.cons_append, hstep, ih, List.cons_append]

theorem worded_parts {head first : Expr} {rest : List Expr} (h : (Expr.list (head :: first :: rest)).Worded) :
    head.Worded ∧ first.Worded ∧ WordedAll rest := by
  have hall : WordedAll (head :: first :: rest) := h
  rwa [wordedAll_cons, wordedAll_cons] at hall

/-! ### Their tokens -/

theorem ofText_oneLine {e : Expr} (h : e.Worded) (d : Nat) : Token.ofText (indent d ++ e.flat) = e.tokens := by
  rw [indent, Token.ofText_spaces_append, ofText_flat h]

theorem ofText_firstLine {head first : Expr} (hhead : head.Worded) (hfirst : first.Worded) (d : Nat) :
    Token.ofText (indent d ++ "(" ++ head.flat ++ " " ++ first.flat) =
      Token.opening :: (head.tokens ++ first.tokens) := by
  rw [Token.ofText_append_space, String.append_assoc, indent, Token.ofText_spaces_append, Token.ofText_opening_append,
    ofText_flat hhead, ofText_flat hfirst, List.cons_append]

theorem ofText_extendLast {ls : List String} (hne : ls ≠ []) :
    (extendLast ")" ls).flatMap Token.ofText = ls.flatMap Token.ofText ++ [Token.closing] := by
  rw [← List.dropLast_concat_getLast hne, extendLast_concat]
  simp only [List.flatMap_append, List.flatMap_singleton, Token.ofText_append_closing, List.append_assoc]

theorem lineCases_tokens : LineCases (fun _ e ls => e.Worded → ls.flatMap Token.ofText = e.tokens)
    (fun _ es ls => WordedAll es → ls.flatMap Token.ofText = tokensAll es) where
  oneLine d e h := by
    rw [List.flatMap_singleton, ofText_oneLine h]
  broken d head first rest ls ih h := by
    obtain ⟨hhead, hfirst, hrest⟩ := worded_parts h
    rw [ofText_extendLast (List.cons_ne_nil _ _), List.flatMap_cons, ofText_firstLine hhead hfirst, ih hrest]
    simp [tokens, tokensAll]
  noItems _ _ := rfl
  items d e rest ls ls' ih ih' h := by
    rw [wordedAll_cons] at h
    rw [List.flatMap_append, ih h.1, ih' h.2, tokensAll]

theorem ofText_pretty {e : Expr} (h : e.Worded) : Token.ofText e.pretty = e.tokens :=
  (Token.ofText_unlines (prettyLines 0 e)).trans (pretty_induction lineCases_tokens 0 e h)

/-! ### Their characters -/

theorem isPlain_extendLast {ls : List String} (hls : ∀ l ∈ ls, Token.IsPlain l) :
    ∀ l ∈ extendLast ")" ls, Token.IsPlain l := by
  rcases List.eq_nil_or_concat ls with rfl | ⟨init, last, rfl⟩
  · exact hls
  · rw [List.concat_eq_append] at hls ⊢
    rw [List.forall_mem_append, List.forall_mem_singleton] at hls
    rw [extendLast_concat, List.forall_mem_append, List.forall_mem_singleton]
    exact ⟨hls.1, hls.2.append Token.isPlain_closing⟩

theorem lineCases_plain : LineCases (fun _ e ls => e.Worded → ∀ l ∈ ls, Token.IsPlain l)
    (fun _ es ls => WordedAll es → ∀ l ∈ ls, Token.IsPlain l) where
  oneLine d e h := by
    rw [List.forall_mem_singleton]
    exact (Token.isPlain_spaces _).append (isPlain_flat h)
  broken d head first rest ls ih h := by
    obtain ⟨hhead, hfirst, hrest⟩ := worded_parts h
    have hopen := ((Token.isPlain_spaces (2 * d)).append Token.isPlain_opening).append (isPlain_flat hhead)
    refine isPlain_extendLast (List.forall_mem_cons.mpr ⟨?_, ih hrest⟩)
    exact (hopen.append (Token.isPlain_spaces 1)).append (isPlain_flat hfirst)
  noItems _ _ := by simp
  items d e rest ls ls' ih ih' h := by
    rw [wordedAll_cons] at h
    exact List.forall_mem_append.mpr ⟨ih h.1, ih' h.2⟩

/-- No line of a worded expression holds a line feed or a carriage return. -/
theorem isPlain_prettyLines (d : Nat) {e : Expr} (h : e.Worded) : ∀ l ∈ prettyLines d e, Token.IsPlain l :=
  pretty_induction lineCases_plain d e h

end FormLang.Expr
