import FormLang.Text.Pieces

/-!
# Cutting a text piece by piece

A text may be cut at any character that is no part of a run: what stands before it and what follows it are cut on their own
(`cut_append_gap`, `cut_append_single`, `cut_append`). So texts that are put together with such characters between them have
the pieces of the one followed by the pieces of the other. Every piece is a single or a run of parts (`isPiece_of_mem_cut`),
and together the pieces hold all that is no gap (`join_cut`).
-/

namespace FormLang.Text

variable {role : Char → Role}

/-! ## The run being read -/

theorem closeRun_eq (done : List String) (run : List Char) : closeRun done run = closeRun [] run ++ done := by
  cases run <;> rfl

/-- The pieces found before stand in front of all others. -/
theorem cutFrom_eq (done : List String) (run cs : List Char) :
    cutFrom role done run cs = done.reverse ++ cutFrom role [] run cs := by
  induction cs generalizing done run with
  | nil => simp [cutFrom, closeRun_eq done run]
  | cons c cs ih =>
    simp only [cutFrom]
    cases role c with
    | gap =>
      simp only
      rw [ih (closeRun done run), ih (closeRun [] run), closeRun_eq done run]
      simp
    | single =>
      simp only
      rw [ih (_ :: closeRun done run), ih (_ :: closeRun [] run), closeRun_eq done run]
      simp
    | part => exact ih done (c :: run)

theorem cutFrom_gap {c : Char} (hc : role c = .gap) (run cs : List Char) :
    cutFrom role [] run (c :: cs) = (closeRun [] run).reverse ++ cutFrom role [] [] cs := by
  rw [cutFrom, hc]
  exact cutFrom_eq (closeRun [] run) [] cs

theorem cutFrom_single {c : Char} (hc : role c = .single) (run cs : List Char) :
    cutFrom role [] run (c :: cs) = (closeRun [] run).reverse ++ String.singleton c :: cutFrom role [] [] cs := by
  rw [cutFrom, hc]
  simp only
  rw [cutFrom_eq]
  simp

theorem cutFrom_part {c : Char} (hc : role c = .part) (run cs : List Char) :
    cutFrom role [] run (c :: cs) = cutFrom role [] (c :: run) cs := by
  rw [cutFrom, hc]

/-! ## Texts put together -/

/-- A text may be cut in front of any character that is no part of a run. -/
theorem cutFrom_append {c : Char} (hc : role c ≠ .part) (run a b : List Char) :
    cutFrom role [] run (a ++ c :: b) = cutFrom role [] run a ++ cutFrom role [] [] (c :: b) := by
  induction a generalizing run with
  | nil =>
    have hrun : cutFrom role [] run [] = (closeRun [] run).reverse := rfl
    rw [List.nil_append, hrun]
    cases hrole : role c with
    | gap => rw [cutFrom_gap hrole, cutFrom_gap hrole, closeRun, List.reverse_nil, List.nil_append]
    | single => rw [cutFrom_single hrole, cutFrom_single hrole, closeRun, List.reverse_nil, List.nil_append]
    | part => exact absurd hrole hc
  | cons d a ih =>
    rw [List.cons_append]
    cases hd : role d with
    | gap => rw [cutFrom_gap hd, cutFrom_gap hd, ih, List.append_assoc]
    | single => rw [cutFrom_single hd, cutFrom_single hd, ih, List.append_assoc, List.cons_append]
    | part => rw [cutFrom_part hd, cutFrom_part hd, ih]

/-- A gap between two texts separates their pieces. -/
theorem cut_append_gap {c : Char} (hc : role c = .gap) (s t : String) :
    cut role (s ++ String.singleton c ++ t) = cut role s ++ cut role t := by
  simp only [cut, String.toList_append, String.toList_singleton, List.append_assoc, List.singleton_append]
  rw [cutFrom_append (by simp [hc]), cutFrom_gap hc]
  rfl

/-- A single between two texts is a piece between their pieces. -/
theorem cut_append_single {c : Char} (hc : role c = .single) (s t : String) :
    cut role (s ++ String.singleton c ++ t) = cut role s ++ String.singleton c :: cut role t := by
  simp only [cut, String.toList_append, String.toList_singleton, List.append_assoc, List.singleton_append]
  rw [cutFrom_append (by simp [hc]), cutFrom_single hc]
  rfl

/-- Gaps in front of a text have no pieces. -/
theorem cut_gaps_append {gaps : String} (hgaps : ∀ c ∈ gaps.toList, role c = .gap) (t : String) :
    cut role (gaps ++ t) = cut role t := by
  rw [cut, cut, String.toList_append]
  revert hgaps
  induction gaps.toList with
  | nil => exact fun _ => rfl
  | cons c cs ih =>
    intro hgaps
    rw [List.cons_append, cutFrom_gap (hgaps c (by simp))]
    exact ih fun d hd => hgaps d (by simp [hd])

/-- Texts with gaps between them have their pieces one after another. -/
theorem cut_intercalate_gaps {gaps : String} (hne : gaps ≠ "") (hgaps : ∀ c ∈ gaps.toList, role c = .gap)
    (texts : List String) : cut role (gaps.intercalate texts) = texts.flatMap (cut role) := by
  obtain ⟨c, rest, hlist⟩ : ∃ c rest, gaps.toList = c :: rest := List.exists_cons_of_ne_nil (by simpa using hne)
  have hc : role c ≠ .part := by
    rw [hgaps c (by simp [hlist])]
    decide
  induction texts with
  | nil => rfl
  | cons s texts ih =>
    cases texts with
    | nil => simp
    | cons t texts =>
      have hseam : cut role (s ++ (gaps ++ gaps.intercalate (t :: texts))) =
          cut role s ++ cut role (gaps ++ gaps.intercalate (t :: texts)) := by
        simp only [cut, String.toList_append, hlist, List.cons_append]
        exact cutFrom_append hc [] _ _
      rw [String.intercalate_cons_cons, String.append_assoc, hseam, cut_gaps_append hgaps, ih]
      exact List.flatMap_cons.symm

theorem cut_intercalate {c : Char} (hc : role c = .gap) (texts : List String) :
    cut role ((String.singleton c).intercalate texts) = texts.flatMap (cut role) :=
  cut_intercalate_gaps (by simp) (by simpa using hc) texts

/-- A text may be cut behind any character that is no part of a run. -/
theorem cutFrom_append_singleton {c : Char} (hc : role c ≠ .part) (a b : List Char) :
    cutFrom role [] [] (a ++ [c] ++ b) = cutFrom role [] [] (a ++ [c]) ++ cutFrom role [] [] b := by
  have hhead : cutFrom role [] [] (c :: b) = cutFrom role [] [] [c] ++ cutFrom role [] [] b := by
    cases hrole : role c with
    | gap =>
      rw [cutFrom_gap hrole, cutFrom_gap hrole, List.append_assoc]
      rfl
    | single =>
      rw [cutFrom_single hrole, cutFrom_single hrole, List.append_assoc]
      rfl
    | part => exact absurd hrole hc
  rw [List.append_assoc, List.singleton_append, cutFrom_append hc, cutFrom_append hc, hhead, List.append_assoc]

/-- Two texts are cut on their own if no run goes on from the one into the other. -/
theorem cut_append {a b : String}
    (h : (∀ c, a.toList.getLast? = some c → role c ≠ .part) ∨ ∀ c, b.toList.head? = some c → role c ≠ .part) :
    cut role (a ++ b) = cut role a ++ cut role b := by
  simp only [cut, String.toList_append]
  rcases h with hlast | hhead
  · rcases List.eq_nil_or_concat a.toList with ha | ⟨init, c, ha⟩
    · rw [ha]
      rfl
    · rw [List.concat_eq_append] at ha
      rw [ha]
      exact cutFrom_append_singleton (hlast c (by simp [ha])) init b.toList
  · cases hb : b.toList with
    | nil =>
      rw [List.append_nil]
      exact (List.append_nil _).symm
    | cons c rest => exact cutFrom_append (hhead c (by simp [hb])) [] a.toList rest

/-- The pieces hold every character but the gaps, in order. -/
theorem flatMap_toList_cutFrom (run cs : List Char) :
    (cutFrom role [] run cs).flatMap String.toList = run.reverse ++ cs.filter (fun c => role c ≠ .gap) := by
  have hrun : ∀ run : List Char, (closeRun [] run).reverse.flatMap String.toList = run.reverse := by
    intro run
    cases run <;> simp [closeRun]
  induction cs generalizing run with
  | nil => simpa [cutFrom] using hrun run
  | cons c cs ih =>
    cases hc : role c with
    | gap =>
      rw [cutFrom_gap hc, List.flatMap_append, hrun, ih]
      simp [hc]
    | single =>
      rw [cutFrom_single hc, List.flatMap_append, hrun, List.flatMap_cons, ih]
      simp [hc]
    | part =>
      rw [cutFrom_part hc, ih]
      simp [hc]

theorem join_cut (text : String) :
    String.join (cut role text) = String.ofList (text.toList.filter fun c => role c ≠ .gap) := by
  rw [← String.toList_inj, String.toList_join, String.toList_ofList]
  exact flatMap_toList_cutFrom [] text.toList

/-! ## Single pieces -/

theorem cutFrom_parts {w : List Char} (hw : ∀ c ∈ w, role c = .part) (run : List Char) :
    cutFrom role [] run w = (closeRun [] (w.reverse ++ run)).reverse := by
  induction w generalizing run with
  | nil => rfl
  | cons c w ih =>
    rw [cutFrom_part (hw c (by simp)), ih fun d hd => hw d (by simp [hd])]
    simp

/-- A run of parts is one piece. -/
theorem cut_parts {w : String} (hne : w ≠ "") (hw : ∀ c ∈ w.toList, role c = .part) : cut role w = [w] := by
  have hlist : w.toList.reverse ≠ [] := by simpa using hne
  rw [cut, cutFrom_parts hw, List.append_nil]
  obtain ⟨c, run, hrun⟩ := List.exists_cons_of_ne_nil hlist
  have hback : (c :: run).reverse = w.toList := by rw [← hrun, List.reverse_reverse]
  rw [hrun, closeRun, hback, String.ofList_toList]
  rfl

/-- A single, or a run of parts. -/
def IsPiece (role : Char → Role) (p : String) : Prop :=
  (∃ c, role c = .single ∧ p = String.singleton c) ∨ (p ≠ "" ∧ ∀ c ∈ p.toList, role c = .part)

/-- A piece is cut no further. -/
theorem IsPiece.cut_eq {p : String} (h : IsPiece role p) : cut role p = [p] := by
  rcases h with ⟨c, hc, rfl⟩ | ⟨hne, hparts⟩
  · have hsingle := cut_append_single hc "" ""
    rwa [String.empty_append, String.append_empty] at hsingle
  · exact cut_parts hne hparts

theorem isPiece_of_mem_closeRun {run : List Char} (hrun : ∀ c ∈ run, role c = .part) {p : String}
    (hp : p ∈ (closeRun [] run).reverse) : IsPiece role p := by
  cases run with
  | nil => simp [closeRun] at hp
  | cons d run =>
    obtain rfl : p = String.ofList (d :: run).reverse := by simpa [closeRun] using hp
    refine .inr ⟨by simp, fun c hc => hrun c ?_⟩
    rw [String.toList_ofList] at hc
    exact List.mem_reverse.mp hc

theorem isPiece_of_mem_cutFrom {run : List Char} (hrun : ∀ c ∈ run, role c = .part) {cs : List Char} {p : String}
    (hp : p ∈ cutFrom role [] run cs) : IsPiece role p := by
  induction cs generalizing run with
  | nil => exact isPiece_of_mem_closeRun hrun hp
  | cons d cs ih =>
    cases hd : role d with
    | gap =>
      rw [cutFrom_gap hd] at hp
      rcases List.mem_append.mp hp with hp | hp
      · exact isPiece_of_mem_closeRun hrun hp
      · exact ih (by simp) hp
    | single =>
      rw [cutFrom_single hd] at hp
      rcases List.mem_append.mp hp with hp | hp
      · exact isPiece_of_mem_closeRun hrun hp
      · rcases List.mem_cons.mp hp with rfl | hp
        · exact .inl ⟨d, hd, rfl⟩
        · exact ih (by simp) hp
    | part =>
      rw [cutFrom_part hd] at hp
      refine ih (fun c hc => ?_) hp
      rcases List.mem_cons.mp hc with rfl | hc
      · exact hd
      · exact hrun c hc

/-- A text is cut into singles and runs of parts. -/
theorem isPiece_of_mem_cut {text p : String} (hp : p ∈ cut role text) : IsPiece role p :=
  isPiece_of_mem_cutFrom (by simp) hp

/-- A text without pieces holds gaps only. -/
theorem role_of_cutFrom_eq_nil {run cs : List Char} (h : cutFrom role [] run cs = []) :
    run = [] ∧ ∀ c ∈ cs, role c = .gap := by
  induction cs generalizing run with
  | nil =>
    cases run with
    | nil => exact ⟨rfl, by simp⟩
    | cons d run => simp [cutFrom, closeRun] at h
  | cons d cs ih =>
    cases hd : role d with
    | gap =>
      rw [cutFrom_gap hd, List.append_eq_nil_iff] at h
      have hrun : run = [] := by
        cases run with
        | nil => rfl
        | cons e run => simp [closeRun] at h
      exact ⟨hrun, List.forall_mem_cons.mpr ⟨hd, (ih h.2).2⟩⟩
    | single =>
      rw [cutFrom_single hd] at h
      simp at h
    | part =>
      rw [cutFrom_part hd] at h
      simpa using (ih h).1

end FormLang.Text
