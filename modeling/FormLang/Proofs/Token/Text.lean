import FormLang.Proofs.Text.Lines
import FormLang.Proofs.Text.Pieces
import FormLang.Token.Basic

/-!
# Tokens of texts put together

The tokens of a text whose parts stand between parentheses, blanks and line feeds are those of its parts, in order. A token is
a parenthesis or a word, that is a run of characters that are neither blank nor parentheses (`token_cases`).
-/

namespace FormLang.Token

theorem role_opening : role '(' = .single := by decide

theorem role_closing : role ')' = .single := by decide

theorem role_space : role ' ' = .gap := by decide

theorem role_lineFeed : role '\n' = .gap := by decide

theorem role_eq_single {c : Char} (h : role c = .single) : c = '(' ∨ c = ')' := by
  unfold role at h
  split at h
  · rename_i hparen
    simpa using hparen
  · split at h <;> cases h

/-! ## Words -/

/-- A run of characters that are neither blank nor parentheses. -/
def IsWord (t : Token) : Prop :=
  t ≠ "" ∧ ∀ c ∈ t.toList, role c = .part

theorem isWord_of_all {t : Token} (hne : t ≠ "") (hall : t.toList.all (fun c => role c = .part) = true) : IsWord t :=
  ⟨hne, fun c hc => of_decide_eq_true (List.all_eq_true.mp hall c hc)⟩

theorem isWord_of_not_blank {t : Token} (hne : t ≠ "") (hchars : ∀ c ∈ t.toList, Text.isBlank c = false ∧ c ≠ '(' ∧ c ≠ ')') :
    IsWord t := by
  refine ⟨hne, fun c hc => ?_⟩
  obtain ⟨hblank, hopen, hclose⟩ := hchars c hc
  simp [role, hblank, hopen, hclose]

theorem IsWord.ne_opening {t : Token} (h : IsWord t) : t ≠ opening := by
  rintro rfl
  have hrole := h.2 '(' (by decide)
  rw [role_opening] at hrole
  cases hrole

theorem IsWord.ne_closing {t : Token} (h : IsWord t) : t ≠ closing := by
  rintro rfl
  have hrole := h.2 ')' (by decide)
  rw [role_closing] at hrole
  cases hrole

/-- A token is a parenthesis or a word. -/
theorem token_cases {text : String} {t : Token} (ht : t ∈ ofText text) : t = opening ∨ t = closing ∨ IsWord t := by
  rcases Text.isPiece_of_mem_cut ht with ⟨c, hc, rfl⟩ | hword
  · rcases role_eq_single hc with rfl | rfl
    · exact .inl rfl
    · exact .inr (.inl rfl)
  · exact .inr (.inr hword)

/-! ## Texts -/

theorem ofText_word {t : Token} (h : IsWord t) : ofText t = [t] :=
  Text.cut_parts h.1 h.2

theorem ofText_opening_append (t : String) : ofText ("(" ++ t) = opening :: ofText t := by
  have hcut := Text.cut_append_single role_opening "" t
  rwa [String.empty_append] at hcut

theorem ofText_append_closing (s : String) : ofText (s ++ ")") = ofText s ++ [closing] := by
  have hcut := Text.cut_append_single role_closing s ""
  rwa [String.append_empty] at hcut

theorem ofText_append_space (s t : String) : ofText (s ++ " " ++ t) = ofText s ++ ofText t :=
  Text.cut_append_gap role_space s t

theorem ofText_unwords (texts : List String) : ofText (" ".intercalate texts) = texts.flatMap ofText :=
  Text.cut_intercalate role_space texts

/-- Tokens that are one by one found again are found again in a row. -/
theorem flatMap_ofText_eq_self {ts : List Token} (h : ∀ t ∈ ts, ofText t = [t]) : ts.flatMap ofText = ts := by
  rw [List.flatMap_def, List.map_congr_left h, ← List.flatMap_def]
  exact List.flatMap_singleton' ts

theorem ofText_unlines (lines : List String) : ofText (Text.unlines lines) = lines.flatMap ofText :=
  Text.cut_intercalate role_lineFeed lines

theorem ofText_spaces_append (n : Nat) (t : String) :
    ofText (String.ofList (List.replicate n ' ') ++ t) = ofText t := by
  refine Text.cut_gaps_append (fun c hc => ?_) t
  rw [String.toList_ofList] at hc
  rw [List.eq_of_mem_replicate hc, role_space]

/-- A blank dropped at the end is no loss. -/
theorem ofText_dropFinal {c : Char} (hc : role c = .gap) (text : String) : ofText (Text.dropFinal c text) = ofText text := by
  rcases Text.dropFinal_cases c text with heq | heq
  · rw [heq]
  · have hcut := Text.cut_append_gap hc (Text.dropFinal c text) ""
    rw [String.append_empty, ← heq] at hcut
    rw [ofText, ofText, hcut]
    exact (List.append_nil _).symm

/-! ## Plain texts -/

/-- Words and parentheses with no other blanks than spaces. -/
def IsPlain (text : String) : Prop :=
  ∀ c ∈ text.toList, role c = .gap → c = ' '

theorem IsWord.isPlain {t : Token} (h : IsWord t) : IsPlain t := by
  intro c hc hgap
  rw [h.2 c hc] at hgap
  cases hgap

theorem isPlain_singleton {c : Char} (hc : role c = .single) : IsPlain (String.singleton c) := by
  intro d hd hgap
  rw [String.toList_singleton, List.mem_singleton] at hd
  rw [hd, hc] at hgap
  cases hgap

theorem isPlain_opening : IsPlain opening := by
  have hchar : opening = String.singleton '(' := rfl
  exact hchar ▸ isPlain_singleton role_opening

theorem isPlain_closing : IsPlain closing := by
  have hchar : closing = String.singleton ')' := rfl
  exact hchar ▸ isPlain_singleton role_closing

theorem IsPlain.append {s t : String} (hs : IsPlain s) (ht : IsPlain t) : IsPlain (s ++ t) := by
  intro c hc
  rw [String.toList_append] at hc
  rcases List.mem_append.mp hc with hc | hc
  · exact hs c hc
  · exact ht c hc

theorem isPlain_spaces (n : Nat) : IsPlain (String.ofList (List.replicate n ' ')) := by
  intro c hc _
  rw [String.toList_ofList] at hc
  exact List.eq_of_mem_replicate hc

theorem isPlain_unwords {texts : List String} (h : ∀ t ∈ texts, IsPlain t) : IsPlain (" ".intercalate texts) := by
  have hspace : IsPlain " " := isPlain_spaces 1
  induction texts with
  | nil => exact isPlain_spaces 0
  | cons s rest ih =>
    rw [List.forall_mem_cons] at h
    cases rest with
    | nil =>
      rw [String.intercalate_singleton]
      exact h.1
    | cons t rest =>
      rw [String.intercalate_cons_cons]
      exact (h.1.append hspace).append (ih h.2)

theorem IsPlain.lineFeed_notMem {text : String} (h : IsPlain text) : '\n' ∉ text.toList :=
  fun hmem => absurd (h '\n' hmem role_lineFeed) (by decide)

theorem IsPlain.return_notMem {text : String} (h : IsPlain text) : '\r' ∉ text.toList :=
  fun hmem => absurd (h '\r' hmem (by decide)) (by decide)

/-! ## Depth -/

theorem Depth.next_opening (k : Nat) : Depth.next ⟨k, 0⟩ opening = ⟨(k + 1 : Nat), 0⟩ := by
  rw [next, if_pos rfl, Int.natCast_add, Int.natCast_one]

theorem Depth.next_closing (k : Nat) : Depth.next ⟨(k + 1 : Nat), 0⟩ closing = ⟨k, 0⟩ := by
  have hnet : ((k + 1 : Nat) : Int) - 1 = k := by omega
  have hlow : min (0 : Int) k = 0 := by omega
  rw [next, if_neg (by decide), if_pos rfl, hnet, hlow]

theorem Depth.next_word (d : Depth) {t : Token} (h : IsWord t) : d.next t = d := by
  rw [next, if_neg h.ne_opening, if_neg h.ne_closing]

end FormLang.Token
