import FormLang.Proofs.Token.Text

/-!
# Tokens are maximal runs

Cutting a text into tokens is splitting it into parentheses and maximal runs of other characters. Nothing but blanks is lost,
texts may be cut apart wherever no run goes on, and tokens that are put together with blanks between them are found again
(`ofText_splits_runs`).

The tokens are also the words of the text in which each parenthesis stands between two spaces (`ofText_eq_words`): around a
parenthesis a run would end anyway, and a parenthesis between spaces is a run of its own.
-/

namespace FormLang.Token

/-! ## Where runs end -/

/-- A parenthesis or a blank. -/
def EndsRun (c : Char) : Prop :=
  c = '(' ∨ c = ')' ∨ Text.isBlank c = true

theorem isBlank_paren {c : Char} (hc : c = '(' ∨ c = ')') : Text.isBlank c = false := by
  rcases hc with rfl | rfl <;> decide

theorem role_of_paren {c : Char} (hc : c = '(' ∨ c = ')') : role c = .single := by
  rcases hc with rfl | rfl
  · exact role_opening
  · exact role_closing

theorem role_of_not_paren {c : Char} (hc : ¬ (c = '(' ∨ c = ')')) :
    role c = if Text.isBlank c then .gap else .part := by
  rw [role, if_neg (by simpa using hc)]

theorem role_eq_gap_iff (c : Char) : role c = .gap ↔ Text.isBlank c = true := by
  by_cases hc : c = '(' ∨ c = ')'
  · simp [role_of_paren hc, isBlank_paren hc]
  · rw [role_of_not_paren hc]
    split <;> simp_all

theorem role_eq_part_iff (c : Char) : role c = .part ↔ ¬ EndsRun c := by
  rw [EndsRun, ← or_assoc]
  by_cases hc : c = '(' ∨ c = ')'
  · simp [role_of_paren hc, hc]
  · rw [role_of_not_paren hc]
    split <;> simp_all

theorem isWord_iff (t : Token) : IsWord t ↔ t ≠ "" ∧ ∀ c ∈ t.toList, ¬ EndsRun c := by
  simp only [IsWord, role_eq_part_iff]

/-! ## Parentheses between spaces -/

/-- A parenthesis with a space on either side; other characters stay. -/
def padChar (c : Char) : List Char :=
  if c = '(' ∨ c = ')' then [' ', c, ' '] else [c]

/-- The text with a space on either side of each parenthesis. -/
def padded (source : String) : String :=
  String.ofList (source.toList.flatMap padChar)

/-- The role of a character where words are cut. -/
def wordRole (c : Char) : Text.Role :=
  if Text.isBlank c then .gap else .part

theorem wordRole_space : wordRole ' ' = .gap := by decide

theorem wordRole_paren {c : Char} (hc : c = '(' ∨ c = ')') : wordRole c = .part := by
  rw [wordRole, isBlank_paren hc]
  rfl

/-- A parenthesis between spaces is a word of its own. -/
theorem cutFrom_wordRole_paren {c : Char} (hc : c = '(' ∨ c = ')') (run cs : List Char) :
    Text.cutFrom wordRole [] run (' ' :: c :: ' ' :: cs) =
      (Text.closeRun [] run).reverse ++ String.singleton c :: Text.cutFrom wordRole [] [] cs := by
  rw [Text.cutFrom_gap wordRole_space, Text.cutFrom_part (wordRole_paren hc), Text.cutFrom_gap wordRole_space]
  rfl

theorem cutFrom_eq_wordRole (run cs : List Char) :
    Text.cutFrom role [] run cs = Text.cutFrom wordRole [] run (cs.flatMap padChar) := by
  induction cs generalizing run with
  | nil => rfl
  | cons c cs ih =>
    rw [List.flatMap_cons, padChar]
    by_cases hparen : c = '(' ∨ c = ')'
    · rw [if_pos hparen, Text.cutFrom_single (role_of_paren hparen), ih]
      exact (cutFrom_wordRole_paren hparen run _).symm
    · have hsame : role c = wordRole c := role_of_not_paren hparen
      rw [if_neg hparen, List.singleton_append]
      cases hrole : wordRole c with
      | gap => rw [Text.cutFrom_gap hrole, Text.cutFrom_gap (hsame.trans hrole), ih]
      | part => rw [Text.cutFrom_part hrole, Text.cutFrom_part (hsame.trans hrole), ih]
      | single =>
        rw [wordRole] at hrole
        split at hrole <;> cases hrole

/-- The tokens are the words of the padded text. -/
theorem ofText_eq_words (source : String) : ofText source = Text.words (padded source) := by
  have hcut := cutFrom_eq_wordRole [] source.toList
  rw [← String.toList_ofList (l := source.toList.flatMap padChar)] at hcut
  exact hcut

/-! ## Texts and their tokens -/

theorem join_ofText (source : String) :
    String.join (ofText source) = String.ofList (source.toList.filter fun c => !Text.isBlank c) := by
  have hkept : ∀ c : Char, decide (role c ≠ .gap) = !Text.isBlank c := by
    intro c
    have hgap := role_eq_gap_iff c
    cases hblank : Text.isBlank c <;> simp_all
  rw [ofText, Text.join_cut]
  simp only [hkept]

/-- The text is empty, or its last character ends a run. -/
def EndsApart (a : String) : Prop :=
  a = "" ∨ ∃ c, a.toList.getLast? = some c ∧ EndsRun c

/-- The text is empty, or its first character ends a run. -/
def BeginsApart (b : String) : Prop :=
  b = "" ∨ ∃ c, b.toList.head? = some c ∧ EndsRun c

theorem role_ne_part_of_endsRun {c : Char} (hc : EndsRun c) : role c ≠ .part :=
  fun hpart => (role_eq_part_iff c).mp hpart hc

theorem EndsApart.role_getLast {a : String} (h : EndsApart a) {c : Char} (hc : a.toList.getLast? = some c) :
    role c ≠ .part := by
  rcases h with rfl | ⟨d, hd, hends⟩
  · simp at hc
  · rw [hd] at hc
    exact role_ne_part_of_endsRun (Option.some.inj hc ▸ hends)

theorem BeginsApart.role_head {b : String} (h : BeginsApart b) {c : Char} (hc : b.toList.head? = some c) :
    role c ≠ .part := by
  rcases h with rfl | ⟨d, hd, hends⟩
  · simp at hc
  · rw [hd] at hc
    exact role_ne_part_of_endsRun (Option.some.inj hc ▸ hends)

theorem ofText_append {a b : String} (h : EndsApart a ∨ BeginsApart b) : ofText (a ++ b) = ofText a ++ ofText b :=
  Text.cut_append (h.imp (fun ha _ => ha.role_getLast) fun hb _ => hb.role_head)

/-- Tokens that are joined with blanks are found again. -/
theorem ofText_intercalate_ofText {blanks : String} (hne : blanks ≠ "") (hblanks : ∀ c ∈ blanks.toList, Text.isBlank c = true)
    (source : String) : ofText (blanks.intercalate (ofText source)) = ofText source := by
  have hgaps : ∀ c ∈ blanks.toList, role c = .gap := fun c hc => (role_eq_gap_iff c).mpr (hblanks c hc)
  have hsingle : ∀ t ∈ ofText source, ofText t = [t] := fun t ht => (Text.isPiece_of_mem_cut ht).cut_eq
  exact (Text.cut_intercalate_gaps hne hgaps (ofText source)).trans (flatMap_ofText_eq_self hsingle)

/-- **A text is split into parentheses and maximal runs of other characters.** Each token is one of these; together the tokens
hold all but the blanks; texts may be split apart wherever no run goes on; a run by itself is one token; and tokens joined
with any blanks are found again. The same tokens are found as the words between blanks, once each parenthesis stands between
spaces. -/
theorem ofText_splits_runs :
    (∀ source, ∀ t ∈ ofText source, t = "(" ∨ t = ")" ∨ (t ≠ "" ∧ ∀ c ∈ t.toList, ¬ EndsRun c)) ∧
    (∀ source, String.join (ofText source) = String.ofList (source.toList.filter fun c => !Text.isBlank c)) ∧
    (∀ a b, EndsApart a ∨ BeginsApart b → ofText (a ++ b) = ofText a ++ ofText b) ∧
    (∀ w, w ≠ "" → (∀ c ∈ w.toList, ¬ EndsRun c) → ofText w = [w]) ∧
    (∀ source blanks, blanks ≠ "" → (∀ c ∈ blanks.toList, Text.isBlank c = true) →
      ofText (blanks.intercalate (ofText source)) = ofText source) ∧
    (∀ source, ofText source = Text.words (padded source)) := by
  refine ⟨fun source t ht => ?_, join_ofText, fun a b h => ofText_append h, fun w hne hw => ?_, ?_, ofText_eq_words⟩
  · rcases token_cases ht with hopen | hclose | hword
    · exact .inl hopen
    · exact .inr (.inl hclose)
    · exact .inr (.inr ((isWord_iff t).mp hword))
  · exact ofText_word ((isWord_iff w).mpr ⟨hne, hw⟩)
  · intro source blanks hne hblanks
    exact ofText_intercalate_ofText hne hblanks source

/-- A word that touches both parentheses, cut apart behind the first one, and its tokens joined with a tab and a line feed. -/
theorem ofText_splits_runs_touching :
    EndsApart "f(" ∧ ofText ("f(" ++ "x)") = ofText "f(" ++ ofText "x)" ∧
    ofText ("\t\n".intercalate (ofText "f(x)")) = ["f", "(", "x", ")"] := by
  obtain ⟨-, -, happend, -, hjoin, -⟩ := ofText_splits_runs
  have hends : EndsApart "f(" := .inr ⟨'(', rfl, .inl rfl⟩
  have hblanks : "\t\n".toList.all Text.isBlank = true := by decide
  refine ⟨hends, happend "f(" "x)" (.inl hends), ?_⟩
  exact (hjoin "f(x)" "\t\n" (by decide) (List.all_eq_true.mp hblanks)).trans (by decide)

end FormLang.Token
