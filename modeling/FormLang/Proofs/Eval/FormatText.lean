import FormLang.Proofs.Expr.Numerals
import FormLang.Proofs.Expr.RoundTrip
import FormLang.Proofs.Expr.Stream
import FormLang.Proofs.Session.Basic
import FormLang.Proofs.Text.Ascii
import FormLang.Proofs.Token.Runs

/-!
# Quoted format texts

The language has no quoted texts: `format` puts one together from the operands between a word that begins with a quote and
one that ends with a quote. Nothing is lost on the way if the text has none of the characters that end a token apart from
single spaces, and if its inner words print as they are read (`Quotable`). The outer two carry a quote, which no number has,
so they are symbols whatever they look like.

`format_quoted`: in the text that was quoted, the first directive is replaced by what the argument prints, and nothing else
changes. The parts keep their bytes, and where these come to encode a character the text holds it (`Text.hold`).
-/

namespace FormLang

namespace FormatText

/-! ## Filling a text -/

/-- The text with `value` in place of its first number directive or, if it has none, of its first line directive. It is held anew,
which keeps its bytes. -/
inductive Filled (text value : String) : String → Prop
  | number {before after : String} (h : Text.IsFirst "~D~%" text before after) :
    Filled text value (Text.hold (before ++ value ++ after))
  | line {before after : String} (hnumber : ¬ ∃ b a, text = b ++ "~D~%" ++ a) (h : Text.IsFirst "~%" text before after) :
    Filled text value (Text.hold (before ++ value ++ after))
  | plain (hnumber : ¬ ∃ b a, text = b ++ "~D~%" ++ a) (hline : ¬ ∃ b a, text = b ++ "~%" ++ a) :
    Filled text value (Text.hold text)

theorem Filled.unique {text value out out' : String} (h : Filled text value out) (h' : Filled text value out') :
    out = out' := by
  cases h with
  | number h =>
    cases h' with
    | number h' =>
      obtain ⟨rfl, rfl⟩ := h.unique h'
      rfl
    | line hnumber _ => exact absurd ⟨_, _, h.occurs⟩ hnumber
    | plain hnumber _ => exact absurd ⟨_, _, h.occurs⟩ hnumber
  | line hnumber h =>
    cases h' with
    | number h' => exact absurd ⟨_, _, h'.occurs⟩ hnumber
    | line _ h' =>
      obtain ⟨rfl, rfl⟩ := h.unique h'
      rfl
    | plain _ hline => exact absurd ⟨_, _, h.occurs⟩ hline
  | plain hnumber hline =>
    cases h' with
    | number h' => exact absurd ⟨_, _, h'.occurs⟩ hnumber
    | line _ h' => exact absurd ⟨_, _, h'.occurs⟩ hline
    | plain => rfl

theorem ascii_numberDirective : Text.Ascii "~D~%" :=
  Text.ascii_of_all (by decide)

theorem ascii_lineDirective : Text.Ascii "~%" :=
  Text.ascii_of_all (by decide)

theorem filled_fill {words : List String} {text : String}
    (htext : Text.erase '"' (" ".intercalate words) = Text.hold text) (value : String) :
    Filled text value (fill words value) := by
  have hnumbers : Text.hasInfix "~D~%" (Text.hold text) = true ↔ ∃ b a, text = b ++ "~D~%" ++ a :=
    Text.hasInfix_hold_iff ascii_numberDirective (by decide)
  have hlines : Text.hasInfix "~%" (Text.hold text) = true ↔ ∃ b a, text = b ++ "~%" ++ a :=
    Text.hasInfix_hold_iff ascii_lineDirective (by decide)
  unfold fill numberDirective lineDirective
  simp only [htext]
  by_cases hnumber : ∃ b a, text = b ++ "~D~%" ++ a
  · obtain ⟨before, after, hfirst⟩ := Text.exists_isFirst (Text.hasInfix_iff.mpr hnumber)
    rw [if_pos (hnumbers.mpr hnumber), Text.replaceFirst_hold ascii_numberDirective (by decide) hfirst]
    exact .number hfirst
  · rw [if_neg (mt hnumbers.mp hnumber)]
    by_cases hline : ∃ b a, text = b ++ "~%" ++ a
    · obtain ⟨before, after, hfirst⟩ := Text.exists_isFirst (Text.hasInfix_iff.mpr hline)
      rw [Text.replaceFirst_hold ascii_lineDirective (by decide) hfirst]
      exact .line hnumber hfirst
    · rw [Text.replaceFirst_of_not_hasInfix (Bool.eq_false_iff.mpr (mt hlines.mp hline))]
      exact .plain hnumber hline

theorem filled_fill_iff {words : List String} {text : String}
    (htext : Text.erase '"' (" ".intercalate words) = Text.hold text) (value out : String) : Filled text value out ↔ out = fill words value :=
  ⟨fun h => h.unique (filled_fill htext value), fun h => h ▸ filled_fill htext value⟩

/-! ## Gathering the words -/

section gathering

variable {e : Expr} {name : String}

theorem quote_mem_of_endsWith (h : Text.endsWith quoteMark name = true) : '"' ∈ name.toList :=
  ((Text.endsWith_iff quoteMark name).mp h).subset (by decide)

theorem closes_of_quote_notMem (h : '"' ∉ e.flat.toList) : closes false e = false := by
  cases e with
  | symbol name =>
    have hends : ¬ Text.endsWith quoteMark name = true := fun hends => h (quote_mem_of_endsWith hends)
    simp [closes, hends]
  | _ => rfl

/-- A word that begins with its only quote does not close the text it opens. -/
theorem closes_opening (h : '"' ∉ name.toList) : closes true (.symbol ("\"" ++ name)) = false := by
  cases hends : Text.endsWith quoteMark ("\"" ++ name) with
  | false => simp [closes, hends]
  | true =>
    have hsuffix : ['"'] <:+ '"' :: name.toList := by
      simpa [quoteMark] using (Text.endsWith_iff quoteMark ("\"" ++ name)).mp hends
    rcases List.suffix_cons_iff.mp hsuffix with hlone | hlater
    · have hname : name = "" := by simpa using hlone
      rw [hname]
      decide
    · exact absurd (hlater.subset (List.mem_singleton_self _)) h

theorem ofToken_quote_append (name : String) : Expr.ofToken ("\"" ++ name) = .symbol ("\"" ++ name) :=
  Expr.ofToken_of_mem (c := '"') (by simp) (by decide)

theorem ofToken_append_quote (name : String) : Expr.ofToken (name ++ "\"") = .symbol (name ++ "\"") :=
  Expr.ofToken_of_mem (c := '"') (by simp) (by decide)

theorem endsWith_append_quote (name : String) : Text.endsWith quoteMark (name ++ "\"") = true := by
  rw [Text.endsWith_iff, String.toList_append]
  exact List.suffix_append _ _

theorem opens_quote_append (name : String) : opens (.symbol ("\"" ++ name)) = true := by
  rw [opens, Text.startsWith_iff, String.toList_append]
  exact List.prefix_append _ _

/-- A word between quotes closes the text it opens, even if it is empty. -/
theorem closes_quoted (name : String) : closes true (.symbol ("\"" ++ name ++ "\"")) = true := by
  have hne : "\"" ++ name ++ "\"" ≠ quoteMark := by
    intro heq
    have hlength := congrArg String.length heq
    rw [String.length_append, String.length_append] at hlength
    have hone : "\"".length = 1 := by decide
    have hmark : quoteMark.length = 1 := by decide
    omega
  simp [closes, endsWith_append_quote, hne]

theorem extendLast_cons_cons (suffix w v : String) (pieces : List String) :
    Expr.extendLast suffix (w :: v :: pieces) = w :: Expr.extendLast suffix (v :: pieces) := by
  simp [Expr.extendLast]

/-- Up to the word with the quote nothing is lost of words that print as they are read. -/
theorem gather_extendLast {pieces : List String} (hne : pieces ≠ []) (hquote : ∀ w ∈ pieces, '"' ∉ w.toList)
    (hread : ∀ w ∈ pieces.dropLast, (Expr.ofToken w).flat = w) (done : List String) (rest : List Expr) :
    gather false done ((Expr.extendLast "\"" pieces).map Expr.ofToken ++ rest) =
      .ok (done.reverse ++ Expr.extendLast "\"" pieces, rest) := by
  induction pieces generalizing done with
  | nil => exact absurd rfl hne
  | cons w pieces ih =>
    cases pieces with
    | nil =>
      have hcloses : closes false (.symbol (w ++ "\"")) = true := by
        simp [closes, endsWith_append_quote]
      simp [Expr.extendLast, ofToken_append_quote, gather, hcloses, Expr.flat]
    | cons v pieces =>
      rw [List.dropLast_cons_of_ne_nil (List.cons_ne_nil v pieces), List.forall_mem_cons] at hread
      rw [List.forall_mem_cons] at hquote
      have hflat := hread.1
      have hcloses : closes false (Expr.ofToken w) = false := closes_of_quote_notMem (hflat.symm ▸ hquote.1)
      have hgather := ih (List.cons_ne_nil v pieces) hquote.2 hread.2 (w :: done)
      rw [extendLast_cons_cons, List.map_cons, List.cons_append, gather, hcloses, if_neg Bool.false_ne_true, hflat, hgather]
      simp

/-- The words of a quoted text are found by its quotes. -/
theorem split_quoted {first : String} {pieces : List String} (hquote : ∀ w ∈ first :: pieces, '"' ∉ w.toList)
    (hread : ∀ w ∈ pieces.dropLast, (Expr.ofToken w).flat = w) (rest : List Expr) :
    split ((Expr.extendLast "\"" (("\"" ++ first) :: pieces)).map Expr.ofToken ++ rest) =
      .ok (Expr.extendLast "\"" (("\"" ++ first) :: pieces), rest) := by
  rw [List.forall_mem_cons] at hquote
  cases pieces with
  | nil =>
    have hopens : opens (.symbol ("\"" ++ first ++ "\"")) = true := by
      rw [String.append_assoc]
      exact opens_quote_append (first ++ "\"")
    simp [Expr.extendLast, ofToken_append_quote, split, hopens, gather, closes_quoted, Expr.flat]
  | cons v pieces =>
    have hgather := gather_extendLast (List.cons_ne_nil v pieces) hquote.2 hread ["\"" ++ first] rest
    rw [extendLast_cons_cons, List.map_cons, List.cons_append, ofToken_quote_append, split, opens_quote_append, if_pos rfl,
      gather, closes_opening hquote.1, if_neg Bool.false_ne_true, Expr.flat, hgather]
    rfl

end gathering

/-! ## Texts that may be quoted -/

/-- What stands between the spaces of a text. A space at an end leaves an empty piece there. -/
def pieces (text : String) : List String :=
  (text.toList.splitOn ' ').map String.ofList

/-- A text that can be put between quotes: no quotes, no parentheses, no blanks but single spaces, and inner words that print
as they are read. -/
structure Quotable (text : String) : Prop where
  noQuote : '"' ∉ text.toList
  noParen : '(' ∉ text.toList ∧ ')' ∉ text.toList
  blank : ∀ c ∈ text.toList, Text.isBlank c = true → c = ' '
  single : ¬ [' ', ' '] <:+: text.toList
  inner : ∀ w ∈ (pieces text).tail.dropLast, (Expr.ofToken w).flat = w

theorem notMem_of_mem_splitOn {c : Char} {cs l : List Char} (hl : l ∈ cs.splitOn c) : c ∉ l := by
  induction cs generalizing l with
  | nil =>
    rw [List.splitOn_nil, List.mem_singleton] at hl
    rw [hl]
    exact List.not_mem_nil
  | cons d cs ih =>
    rw [List.splitOn_cons_eq_if_modifyHead] at hl
    by_cases hd : d = c
    · rw [if_pos (beq_iff_eq.mpr hd), List.mem_cons] at hl
      rcases hl with rfl | hl
      · exact List.not_mem_nil
      · exact ih hl
    · rw [if_neg (by simpa using hd)] at hl
      obtain ⟨p, ps, hsplit⟩ := List.exists_cons_of_ne_nil (List.splitOn_ne_nil c cs)
      rw [hsplit, List.modifyHead_cons, List.mem_cons] at hl
      rcases hl with rfl | hl
      · exact List.not_mem_cons_of_ne_of_not_mem (Ne.symm hd) (ih (hsplit ▸ List.mem_cons_self))
      · exact ih (hsplit ▸ List.mem_cons_of_mem p hl)

theorem space_notMem_of_mem_pieces {text w : String} (hw : w ∈ pieces text) : ' ' ∉ w.toList := by
  obtain ⟨l, hl, rfl⟩ := List.mem_map.mp hw
  rw [String.toList_ofList]
  exact notMem_of_mem_splitOn hl

theorem intercalate_pieces (text : String) : " ".intercalate (pieces text) = text := by
  have hlists : (pieces text).map String.toList = text.toList.splitOn ' ' := by
    simp [pieces, Function.comp_def]
  rw [← String.toList_inj, String.toList_intercalate, hlists]
  exact List.intercalate_splitOn ' '

theorem pieces_ne_nil (text : String) : pieces text ≠ [] :=
  fun hnil => List.splitOn_ne_nil ' ' text.toList (List.map_eq_nil_iff.mp hnil)

theorem mem_toList_intercalate {ws : List String} {w : String} (hw : w ∈ ws) {c : Char} (hc : c ∈ w.toList) :
    c ∈ (" ".intercalate ws).toList := by
  induction ws with
  | nil => cases hw
  | cons v ws ih =>
    cases ws with
    | nil =>
      rw [String.intercalate_singleton]
      exact List.mem_singleton.mp hw ▸ hc
    | cons u ws =>
      rw [String.intercalate_cons_cons, String.toList_append, String.toList_append, List.mem_append, List.mem_append]
      rcases List.mem_cons.mp hw with rfl | hw
      · exact .inl (.inl hc)
      · exact .inr (ih hw)

/-- A piece that is neither the first nor the last stands between two spaces. -/
theorem between_spaces (first : String) {w : String} {rest : List String} (hw : w ∈ rest.dropLast) :
    ∃ a b, " ".intercalate (first :: rest) = a ++ " " ++ w ++ " " ++ b := by
  rcases List.eq_nil_or_concat rest with rfl | ⟨inner, last, rfl⟩
  · cases hw
  · rw [List.concat_eq_append, List.dropLast_concat] at hw
    obtain ⟨front, back, rfl⟩ := List.append_of_mem hw
    have hsplit : first :: (front ++ w :: back).concat last = (first :: front) ++ (w :: (back ++ [last])) := by simp
    have hback : " ".intercalate (w :: (back ++ [last])) = w ++ " " ++ " ".intercalate (back ++ [last]) :=
      String.intercalate_cons_of_ne_nil (by simp)
    refine ⟨" ".intercalate (first :: front), " ".intercalate (back ++ [last]), ?_⟩
    rw [hsplit, String.intercalate_append_of_ne_nil (by simp) (by simp), hback]
    simp only [String.append_assoc]

theorem intercalate_extendLast (suffix : String) {ws : List String} (hne : ws ≠ []) :
    " ".intercalate (Expr.extendLast suffix ws) = " ".intercalate ws ++ suffix := by
  rcases List.eq_nil_or_concat ws with rfl | ⟨inner, last, rfl⟩
  · exact absurd rfl hne
  · rw [List.concat_eq_append, Expr.extendLast_concat]
    by_cases hinner : inner = []
    · simp [hinner]
    · rw [String.intercalate_append_of_ne_nil hinner (by simp), String.intercalate_append_of_ne_nil hinner (by simp),
        String.intercalate_singleton, String.intercalate_singleton, String.append_assoc, String.append_assoc,
        String.append_assoc]

theorem not_endsRun_quote : ¬ Token.EndsRun '"' := by
  rw [← Token.role_eq_part_iff]
  decide

theorem isWord_extendLast {ws : List String} (hchars : ∀ w ∈ ws, ∀ c ∈ w.toList, ¬ Token.EndsRun c)
    (hne : ∀ w ∈ ws.dropLast, w ≠ "") : ∀ w ∈ Expr.extendLast "\"" ws, Token.IsWord w := by
  rcases List.eq_nil_or_concat ws with rfl | ⟨inner, last, rfl⟩
  · intro w hw
    cases hw
  · rw [List.concat_eq_append, List.forall_mem_append, List.forall_mem_singleton] at hchars
    rw [List.concat_eq_append, List.dropLast_concat] at hne
    rw [List.concat_eq_append, Expr.extendLast_concat, List.forall_mem_append, List.forall_mem_singleton]
    refine ⟨fun w hw => (Token.isWord_iff w).mpr ⟨hne w hw, hchars.1 w hw⟩, (Token.isWord_iff _).mpr ⟨by simp, ?_⟩⟩
    intro c hc
    rw [String.toList_append, List.mem_append] at hc
    rcases hc with hc | hc
    · exact hchars.2 c hc
    · exact List.mem_singleton.mp hc ▸ not_endsRun_quote

/-- The words keep the text: they are tokens, spaces join them to the quoted text, and `format` finds them in front of its other
operands. -/
structure Quotes (text : String) (words : List Token) : Prop where
  word : ∀ w ∈ words, Token.IsWord w
  join : " ".intercalate words = "\"" ++ text ++ "\""
  split : ∀ rest, split (words.map Expr.ofToken ++ rest) = .ok (words, rest)

namespace Quotable

variable {text first : String} {rest : List String}

theorem quote_notMem (h : Quotable text) {w : String} (hw : w ∈ pieces text) : '"' ∉ w.toList :=
  fun hmem => h.noQuote (intercalate_pieces text ▸ mem_toList_intercalate hw hmem)

theorem not_endsRun (h : Quotable text) {w : String} (hw : w ∈ pieces text) {c : Char} (hc : c ∈ w.toList) :
    ¬ Token.EndsRun c := by
  have hmem : c ∈ text.toList := intercalate_pieces text ▸ mem_toList_intercalate hw hc
  rintro (rfl | rfl | hblank)
  · exact h.noParen.1 hmem
  · exact h.noParen.2 hmem
  · exact space_notMem_of_mem_pieces hw (h.blank c hmem hblank ▸ hc)

/-- An empty inner piece would stand between two adjacent spaces. -/
theorem ne_empty_of_mem_inner (h : Quotable text) (hpieces : pieces text = first :: rest) {w : String}
    (hw : w ∈ rest.dropLast) : w ≠ "" := by
  rintro rfl
  obtain ⟨a, b, hab⟩ := between_spaces first hw
  rw [← hpieces, intercalate_pieces] at hab
  exact h.single ⟨a.toList, b.toList, by rw [hab]; simp⟩

theorem isWord_quoted (h : Quotable text) (hpieces : pieces text = first :: rest) :
    ∀ w ∈ Expr.extendLast "\"" (("\"" ++ first) :: rest), Token.IsWord w := by
  have hchars : ∀ w ∈ first :: rest, ∀ c ∈ w.toList, ¬ Token.EndsRun c := by
    intro w hw c hc
    exact h.not_endsRun (hpieces ▸ hw) hc
  rw [List.forall_mem_cons] at hchars
  refine isWord_extendLast (List.forall_mem_cons.mpr ⟨fun c hc => ?_, hchars.2⟩) fun w hw => ?_
  · rw [String.toList_append, List.mem_append] at hc
    rcases hc with hc | hc
    · exact List.mem_singleton.mp hc ▸ not_endsRun_quote
    · exact hchars.1 c hc
  · cases rest with
    | nil => cases hw
    | cons v rest =>
      rw [List.dropLast_cons_of_ne_nil (List.cons_ne_nil v rest)] at hw
      rcases List.mem_cons.mp hw with rfl | hw
      · simp
      · exact h.ne_empty_of_mem_inner hpieces hw

/-- The pieces are words that keep the text, once its ends carry the quotes. -/
theorem exists_quotes (h : Quotable text) : ∃ words, Quotes text words := by
  obtain ⟨first, rest, hpieces⟩ := List.exists_cons_of_ne_nil (pieces_ne_nil text)
  refine ⟨Expr.extendLast "\"" (("\"" ++ first) :: rest), h.isWord_quoted hpieces, ?_, split_quoted ?_ ?_⟩
  · rw [intercalate_extendLast _ (List.cons_ne_nil _ _), String.intercalate_cons_append, ← hpieces, intercalate_pieces]
  · exact fun w hw => h.quote_notMem (hpieces ▸ hw)
  · have hinner := h.inner
    rwa [hpieces] at hinner

end Quotable

end FormatText

/-! ## Reading a form of words -/

namespace TokenTree

/-- Words are leaves. -/
theorem exists_leaves {ws : List Token} (hws : ∀ w ∈ ws, Token.IsWord w) (cs : List TokenTree) :
    ∃ ds, flattenAll ds = ws ++ flattenAll cs ∧ toExprs ds = ws.map Expr.ofToken ++ toExprs cs ∧
      nestAll ds = nestAll cs := by
  induction ws with
  | nil => exact ⟨cs, rfl, rfl, rfl⟩
  | cons w ws ih =>
    rw [List.forall_mem_cons] at hws
    obtain ⟨ds, hflat, hexprs, hnest⟩ := ih hws.2
    refine ⟨.leaf w ⟨hws.1.ne_opening, hws.1.ne_closing⟩ :: ds, ?_, ?_, ?_⟩
    · rw [flattenAll, flatten, hflat]
      rfl
    · rw [toExprs, toExpr, hexprs]
      rfl
    · rw [nestAll, nest, hnest]
      exact Nat.zero_max _

end TokenTree

theorem Expr.parse_words {limit : Int} {ws : List Token} (hws : ∀ w ∈ ws, Token.IsWord w) {cs : List TokenTree}
    (hnest : TokenTree.nestAll cs < effectiveLimit limit) :
    parse limit (Token.opening :: (ws ++ TokenTree.flattenAll cs ++ [Token.closing])) =
      .ok (.list (ws.map ofToken ++ TokenTree.toExprs cs)) := by
  obtain ⟨ds, hflat, hexprs, hds⟩ := TokenTree.exists_leaves hws cs
  have hle : (TokenTree.node ds).nest ≤ effectiveLimit limit := by
    rw [TokenTree.nest, hds]
    omega
  rw [← hflat, ← hexprs]
  exact parse_node_of_le hle

/-! ## Evaluating a format -/

namespace Eval.Plan

variable {dest : Expr} {ops : List Expr} {words : List String}

theorem of_format_alone (hsplit : FormatText.split ops = .ok (words, [])) :
    of (.list (.symbol "format" :: dest :: ops)) = .answer (.ok (.str (FormatText.fill words ""))) := by
  rw [of, show Keyword.ofHead? (.symbol "format") = some .format from rfl]
  simp only [ofFormat, hsplit]

theorem of_format_argument {arg : Expr} (hsplit : FormatText.split ops = .ok (words, [arg])) :
    of (.list (.symbol "format" :: dest :: ops)) = .fill words arg := by
  rw [of, show Keyword.ofHead? (.symbol "format") = some .format from rfl]
  simp only [ofFormat, hsplit]

end Eval.Plan

/-! ## Quoted texts come back -/

namespace FormatText

theorem isWord_head : ∀ w ∈ ["format", "t"], Token.IsWord w := by
  have hall : ["format", "t"].all (fun w => w ≠ "" && w.toList.all fun c => Token.role c = .part) = true := by decide
  intro w hw
  have hword := List.all_eq_true.mp hall w hw
  simp only [Bool.and_eq_true, decide_eq_true_eq] at hword
  exact Token.isWord_of_all hword.1 hword.2

theorem ofText_format (operands : String) :
    Token.ofText ("(format t " ++ operands ++ ")") =
      Token.opening :: (["format", "t"] ++ Token.ofText operands ++ [Token.closing]) := by
  have hparts : "(format t " ++ operands = "(" ++ ("format" ++ " " ++ ("t" ++ " " ++ operands)) := by
    simp [← String.toList_inj]
  have hformat : Token.ofText "format" = ["format"] := Token.ofText_word (isWord_head _ (by simp))
  have ht : Token.ofText "t" = ["t"] := Token.ofText_word (isWord_head _ (by simp))
  rw [Token.ofText_append_closing, hparts, Token.ofText_opening_append, Token.ofText_append_space,
    Token.ofText_append_space, hformat, ht]
  rfl

theorem erase_quoted {text : String} (h : '"' ∉ text.toList) : Text.erase '"' ("\"" ++ text ++ "\"") = Text.hold text := by
  have hkeep : text.toList.filter (· ≠ '"') = text.toList := by
    rw [List.filter_eq_self]
    intro c hc
    have hne : c ≠ '"' := fun hquote => h (hquote ▸ hc)
    simpa using hne
  rw [Text.erase, String.toList_append, String.toList_append, List.filter_append, List.filter_append, hkeep]
  simp

namespace Quotes

variable {text : String} {words : List Token} (h : Quotes text words)

include h

theorem ofText_quoted : Token.ofText ("\"" ++ text ++ "\"") = words := by
  rw [← h.join, Token.ofText_unwords]
  exact Token.flatMap_ofText_eq_self fun w hw => Token.ofText_word (h.word w hw)

/-- A form with a quoted text is read as the words of the text and what stands behind it. -/
theorem parse_format {limit : Int} {operands : String} {cs : List TokenTree}
    (htokens : Token.ofText operands = words ++ TokenTree.flattenAll cs)
    (hnest : TokenTree.nestAll cs < effectiveLimit limit) :
    Expr.parse limit (Token.ofText ("(format t " ++ operands ++ ")")) =
      .ok (.list (.symbol "format" :: .symbol "t" :: (words.map Expr.ofToken ++ TokenTree.toExprs cs))) := by
  have hall : ∀ w ∈ ["format", "t"] ++ words, Token.IsWord w := List.forall_mem_append.mpr ⟨isWord_head, h.word⟩
  rw [ofText_format, htokens, ← List.append_assoc, Expr.parse_words hall hnest]
  rfl

section evaluation

variable {limit : Int} {m : Machine} (hdepth : m.counters.depth < effectiveLimit limit) (s : ScopeId)

include hdepth

theorem evaluateIn_alone :
    evaluateIn limit m s ("(format t \"" ++ text ++ "\")") = .ok (.str (fill words "")) := by
  have hsource : "(format t \"" ++ text ++ "\")" = "(format t " ++ ("\"" ++ text ++ "\"") ++ ")" := by
    simp [← String.toList_inj]
  have htokens : Token.ofText ("\"" ++ text ++ "\"") = words ++ TokenTree.flattenAll [] := by
    rw [h.ofText_quoted, TokenTree.flattenAll, List.append_nil]
  rw [hsource, evaluateIn_of_parse hdepth (h.parse_format htokens (effectiveLimit_pos limit)),
    Eval.Plan.of_format_alone (h.split (TokenTree.toExprs []))]
  rfl

theorem evaluateIn_argument {source : String} {arg : Expr}
    (hbuild : Expr.build (effectiveLimit limit) (Token.ofText source) = (.ok arg, []))
    (hnest : arg.nest < effectiveLimit limit) :
    evaluateIn limit m s ("(format t \"" ++ text ++ "\" " ++ source ++ ")") =
      ((Eval.inChild (eval (effectiveLimit limit)) m.enter arg s).2.map fun v => .str (fill words v.text)).mapError .eval := by
  obtain ⟨t, hflat, -, rfl⟩ :=
    (Expr.buildFrom_eq_ok_iff (effectiveLimit_pos limit) (Token.ofText source) [] arg).mp (Prod.mk.inj hbuild)
  rw [TokenTree.nest_toExpr] at hnest
  have hsource : "(format t \"" ++ text ++ "\" " ++ source ++ ")" =
      "(format t " ++ ("\"" ++ text ++ "\"" ++ " " ++ source) ++ ")" := by
    simp [← String.toList_inj]
  have htokens : Token.ofText ("\"" ++ text ++ "\"" ++ " " ++ source) = words ++ TokenTree.flattenAll [t] := by
    rw [Token.ofText_append_space, h.ofText_quoted, hflat]
    rfl
  have hdeep : TokenTree.nestAll [t] < effectiveLimit limit := by
    rw [TokenTree.nestAll, TokenTree.nestAll]
    omega
  rw [hsource, evaluateIn_of_parse hdepth (h.parse_format htokens hdeep),
    Eval.Plan.of_format_argument (h.split (TokenTree.toExprs [t]))]
  rw [Eval.Plan.run]
  rcases Eval.inChild (eval (effectiveLimit limit)) m.enter t.toExpr s with ⟨m', err | v⟩ <;> rfl

end evaluation

theorem filled_iff (hquote : '"' ∉ text.toList) (value out : String) : Filled text value out ↔ out = fill words value :=
  filled_fill_iff (by rw [h.join, erase_quoted hquote]) value out

end Quotes

/-- **A quoted text comes back as it is, with its directive replaced.** Without an argument the directive is left out; with one,
which is evaluated in a scope of its own, what it prints is put in once and as it is. A failing argument fails the form. -/
theorem format_quoted {text : String} (htext : Quotable text) (limit : Int) (m : Machine) (s : ScopeId)
    (hdepth : m.counters.depth < effectiveLimit limit) :
    (∃ out, (∀ x, Filled text "" x ↔ x = out) ∧
      evaluateIn limit m s ("(format t \"" ++ text ++ "\")") = .ok (.str out)) ∧
    ∀ (source : String) (arg : Expr), Expr.build (effectiveLimit limit) (Token.ofText source) = (.ok arg, []) →
      arg.nest < effectiveLimit limit →
      (∀ v, (Eval.inChild (eval (effectiveLimit limit)) m.enter arg s).2 = .ok v →
        ∃ out, (∀ x, Filled text v.text x ↔ x = out) ∧
          evaluateIn limit m s ("(format t \"" ++ text ++ "\" " ++ source ++ ")") = .ok (.str out)) ∧
      (∀ err, (Eval.inChild (eval (effectiveLimit limit)) m.enter arg s).2 = .error err →
        evaluateIn limit m s ("(format t \"" ++ text ++ "\" " ++ source ++ ")") = .error (.eval err)) := by
  obtain ⟨words, hwords⟩ := htext.exists_quotes
  have hfilled := hwords.filled_iff htext.noQuote
  refine ⟨⟨fill words "", hfilled "", hwords.evaluateIn_alone hdepth s⟩, fun source arg hbuild hnest => ?_⟩
  have hargument := hwords.evaluateIn_argument hdepth s hbuild hnest
  refine ⟨fun v hv => ⟨fill words v.text, hfilled v.text, ?_⟩, fun err herr => ?_⟩
  · rw [hargument, hv]
    rfl
  · rw [hargument, herr]
    rfl

/-- A text that begins with a space, has both directives and ends like a number. -/
def sample : String := " ~% is not ~D~% or 007"

theorem quotable_sample : Quotable sample where
  noQuote := by decide +kernel
  noParen := by decide +kernel
  blank := by
    have hall : sample.toList.all (fun c => !Text.isBlank c || c = ' ') = true := by decide +kernel
    intro c hc hblank
    have hchar := List.all_eq_true.mp hall c hc
    simpa [hblank] using hchar
  single := by decide +kernel
  inner := by
    have hall : (pieces sample).tail.dropLast.all (fun w => (Expr.ofToken w).flat = w) = true := by decide +kernel
    intro w hw
    simpa using List.all_eq_true.mp hall w hw

theorem filled_sample : Filled sample "\"~D~%\"" " ~% is not \"~D~%\" or 007" := by
  have hfilled : Filled sample "\"~D~%\"" (fill [sample] "\"~D~%\"") := filled_fill (by decide +kernel) _
  have hfill : fill [sample] "\"~D~%\"" = " ~% is not \"~D~%\" or 007" := by decide +kernel
  rwa [hfill] at hfilled

/-- A session with a name whose value has quotes and a directive. -/
def quoting : Session :=
  (Session.fresh 2).bind "x" (.str "\"~D~%\"")

/-- The number directive is replaced although a line directive stands before it, and what is put in keeps its own. -/
theorem format_quoted_sample :
    Quotable sample ∧ quoting.counters.depth < effectiveLimit quoting.limit ∧
    (quoting.evaluate ("(format t \"" ++ sample ++ "\" x)")).2 = .ok (.str " ~% is not \"~D~%\" or 007") := by
  have hdepth : quoting.counters.depth < effectiveLimit quoting.limit := by decide +kernel
  refine ⟨quotable_sample, hdepth, ?_⟩
  obtain ⟨-, hargument⟩ := format_quoted quotable_sample quoting.limit quoting.machine globalScope hdepth
  obtain ⟨hvalue, -⟩ := hargument "x" (.symbol "x") rfl (by decide +kernel)
  obtain ⟨out, hout, hevaluate⟩ := hvalue (.str "\"~D~%\"") rfl
  have hsource : "(format t \"" ++ sample ++ "\" x)" = "(format t \"" ++ sample ++ "\" " ++ "x" ++ ")" := by decide +kernel
  rw [Session.evaluate_snd, (hout _).mp filled_sample, ← hevaluate, hsource]

end FormatText

end FormLang
