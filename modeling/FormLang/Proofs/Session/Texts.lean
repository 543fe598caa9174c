import FormLang.Proofs.Session.Budget
import FormLang.Proofs.Session.Failure
import FormLang.Proofs.Text.Held

/-!
# The texts of a session

A text is made in two places only: a definition answers with the name in upper case, and a format fills its words
(`Plan.makes_cases`). What they make is held as its bytes are. So it is a law that evaluation keeps (`textLaw_kept`), and two
texts of a session are equal exactly if their bytes are, whatever parts they were put together from (`equal_iff_bytes_eq`).
-/

namespace FormLang

/-! ## Texts that evaluation makes -/

namespace Eval.Plan

/-- A text is made by a definition or by filling the words of a format, with the text of a value or with nothing. -/
theorem makes_cases {V : Value → Prop} {e : Expr} {text : String} (h : (of e).Makes V text) :
    (∃ d : Definition, e = d.form ∧ text = "Defined " ++ Text.upper d.name) ∨
    ∃ head dest ops words rest value, e = .list (head :: dest :: ops) ∧ FormatText.split ops = .ok (words, rest) ∧
      (value = "" ∨ ∃ v, V v ∧ value = v.text) ∧ text = FormatText.fill words value := by
  match e with
  | .int _ | .float _ | .list [] | .hole => cases h
  | .symbol _ => exact h.elim
  | .list (head :: ops) =>
    cases hkeyword : Keyword.ofHead? head with
    | none =>
      rw [of, hkeyword] at h
      exact h.elim
    | some k =>
      rw [of, hkeyword] at h
      cases k with
      | conditional =>
        simp only [ofIf] at h
        split at h
        · exact h.elim
        · cases h
      | define =>
        cases hdefun : Definition.ofOperands ops with
        | error err =>
          simp only [ofDefun, hdefun] at h
          cases h
        | ok d =>
          refine .inl ⟨d, ((of_eq_define_iff _ d).mp ?_).1, ?_⟩
          · rw [of, hkeyword]
            exact (ofDefun_eq_define_iff ops d).mpr hdefun
          · simp only [ofDefun, hdefun] at h
            exact h
      | format =>
        cases ops with
        | nil => cases h
        | cons dest ops =>
          right
          simp only [ofFormat] at h
          split at h
          · cases h
          · rename_i words hsplit
            have htext : FormatText.fill words "" = text := Value.str.inj (Except.ok.inj h)
            exact ⟨head, dest, ops, words, _, "", rfl, hsplit, .inl rfl, htext.symm⟩
          · rename_i words arg hsplit
            obtain ⟨v, hv, htext⟩ := h
            exact ⟨head, dest, ops, words, _, v.text, rfl, hsplit, .inr ⟨v, hv, rfl⟩, htext⟩
          · cases h

end Eval.Plan

/-! ## Held texts -/

theorem FormatText.held_fill (words : List String) (value : String) : Text.Held (fill words value) := by
  unfold fill
  simp only
  split
  · exact Text.held_replaceFirst (Text.held_erase _ _) _ _
  · exact Text.held_replaceFirst (Text.held_erase _ _) _ _

-- The two bytes of a character, with a quote between them that is erased.
example : FormatText.fill [String.ofList [Text.standIn 0xC3, '"', Text.standIn 0xA9]] "" = "é" := by decide +kernel

/-- Built-ins are default ones, and texts are held. -/
def textLaw : Law where
  value v := v.Standard ∧ ∀ text, v = .str text → Text.Held text
  expr _ := True
  error _ := True

theorem held_of_makes {e : Expr} {text : String} (h : (Eval.Plan.of e).Makes textLaw.value text) : Text.Held text := by
  rcases Eval.Plan.makes_cases h with ⟨d, -, rfl⟩ | ⟨_, _, _, words, _, value, -, -, -, rfl⟩
  · exact Text.held_append_upper (by decide +kernel) d.name
  · exact FormatText.held_fill words value

theorem textLaw_kept (limit : Nat) : textLaw.Kept limit where
  item _ _ := trivial
  number h := ⟨(budgetLaw_kept limit).number h, fun text htext => by subst htext; cases h⟩
  str _ h := by
    refine ⟨trivial, fun text htext => ?_⟩
    cases htext
    exact held_of_makes h
  define _ _ _ := ⟨trivial, fun text htext => by cases htext⟩
  body _ := trivial
  builtin h := (budgetLaw_kept limit).builtin h.1
  ordinary _ := trivial
  hole _ := trivial
  tooDeep := trivial

/-- No default is a text. -/
theorem Heap.textless_global : Heap.global.Holds fun v => ∀ text, v ≠ .str text := by
  refine (Holds.empty.push none).bindPairs 0 fun p hp => ?_
  have hsound := List.all_eq_true.mp (Registry.all_isSoundEntry_defaults 0) p hp
  obtain ⟨name, v⟩ := p
  rintro text rfl
  cases hsound

theorem Heap.textLaw_global : Heap.global.Holds textLaw.value :=
  fun t sc hsc p hp => ⟨standard_global t sc hsc p hp, fun text htext => absurd htext (textless_global t sc hsc p hp text)⟩

/-! ## Sessions -/

theorem Value.equal_str (a b : String) : (Value.str a).equal (.str b) = (a == b) :=
  rfl

namespace Session

/-- A name is bound to the value, or a statement has it. -/
def Gives (s : Session) (v : Value) : Prop :=
  (∃ name, s.get? name = some v) ∨ ∃ text, (s.evaluate text).2 = .ok v

theorem textLaw_evaluate {s : Session} (h : s.heap.Holds textLaw.value) (text : String) :
    (s.evaluate text).1.heap.Holds textLaw.value ∧ ∀ v, (s.evaluate text).2 = .ok v → textLaw.value v := by
  obtain ⟨hheap, hvalue, -⟩ := sound_evaluate (textLaw_kept _) (fun _ _ => trivial) h
  exact ⟨hheap, hvalue⟩

theorem textLaw_after {s : Session} (h : s.heap.Holds textLaw.value) (texts : List String) :
    (s.after texts).heap.Holds textLaw.value :=
  after_induction (P := fun t => t.heap.Holds textLaw.value) (fun _ text hs => (textLaw_evaluate hs text).1) h texts

theorem held_of_gives {s : Session} (h : s.heap.Holds textLaw.value) {text : String} (hgives : s.Gives (.str text)) :
    Text.Held text := by
  rcases hgives with ⟨name, hget⟩ | ⟨statement, hout⟩
  · exact (h.of_lookupFrom hget).2 text rfl
  · exact ((textLaw_evaluate h statement).2 _ hout).2 text rfl

end Session

/-- **Texts of a session are equal exactly if their bytes are.** The session was started over a fresh global scope, and some
statements were evaluated. What a format or a definition makes of the bytes that were read is held in one way. -/
theorem equal_iff_bytes_eq (limit : Int) (runId : String) (tracing : Bool) (texts : List String) {a b : String}
    (ha : ((Session.start .global limit runId tracing).after texts).Gives (.str a))
    (hb : ((Session.start .global limit runId tracing).after texts).Gives (.str b)) :
    (Value.str a).equal (.str b) = true ↔ Text.bytes a = Text.bytes b := by
  have hlaw := Session.textLaw_after (s := .start .global limit runId tracing) Heap.textLaw_global texts
  rw [Value.equal_str, beq_iff_eq]
  constructor
  · exact fun h => congrArg Text.bytes h
  · exact fun h => (Session.held_of_gives hlaw ha).eq_of_bytes_eq (Session.held_of_gives hlaw hb) h

end FormLang
