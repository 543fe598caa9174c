import FormLang.Proofs.Decimal.ReadBack
import FormLang.Proofs.Eval.Native
import FormLang.Proofs.Expr.Numerals
import FormLang.Proofs.Registry

/-!
# Values that print alike

The text of a number is read back as that number (`Value.ofToken_text_int`, `Expr.ofToken_floatText`), and no other value but a
text prints as a number. Built-ins print their names, and no two of them share one. So a value that prints like a default binding
is this binding, or a text that spells it, or the NaN with the other sign (`Value.text_eq_text_iff`).
-/

namespace FormLang

namespace Value

/-! ## Texts read as tokens -/

theorem ofToken_text_int (n : Int64) : Expr.ofToken (Value.int n).text = .int n :=
  (Expr.readsBack_int n).2

theorem ofToken_text_float (f : Float) : Expr.ofToken (Value.float f).text = .float f :=
  Expr.ofToken_floatText f

theorem ofToken_text_negativeNaN : Expr.ofToken Value.negativeNaN.text = .float Binary64.notANumber :=
  Expr.ofToken_floatText _

theorem ofToken_text_bool (b : Bool) : Expr.ofToken (Value.bool b).text = .symbol (Value.bool b).text := by
  cases b <;> rfl

theorem toList_text_function (f : Function) : ∃ rest, (Value.function f).text.toList = '<' :: 'f' :: rest := by
  have htext : (Value.function f).text = "<function " ++ f.name ++ " (" ++ " ".intercalate f.params ++ ")>" := rfl
  rw [htext]
  simp

theorem toList_text_builtin (b : Builtin) : ∃ rest, (Value.builtin b).text.toList = '<' :: 'b' :: rest := by
  have htext : (Value.builtin b).text = "<built-in function " ++ b.name ++ ">" := rfl
  rw [htext]
  simp

/-- A callable is not read as a number, for its text has an angle. -/
theorem ofToken_of_angle {t : Token} {cs : List Char} (h : t.toList = '<' :: cs) : Expr.ofToken t = .symbol t :=
  Expr.ofToken_of_mem (h ▸ List.mem_cons_self) (by decide)

theorem ofToken_text_function (f : Function) : Expr.ofToken (Value.function f).text = .symbol (Value.function f).text :=
  ofToken_of_angle (toList_text_function f).choose_spec

theorem ofToken_text_builtin (b : Builtin) : Expr.ofToken (Value.builtin b).text = .symbol (Value.builtin b).text :=
  ofToken_of_angle (toList_text_builtin b).choose_spec

/-! ## Values with the same text -/

/-- What prints like a float is that float, a text that spells it, or a NaN. -/
theorem text_eq_text_float_iff {v : Value} (hvoid : v ≠ .void) (f : Float) :
    v.text = (Value.float f).text ↔
      v = .float f ∨ v = .str (Value.float f).text ∨ v = .negativeNaN ∧ f = Binary64.notANumber := by
  refine ⟨fun h => ?_, ?_⟩
  · have hread : Expr.ofToken v.text = .float f := h ▸ ofToken_text_float f
    cases v with
    | int n => cases (ofToken_text_int n).symm.trans hread
    | float g =>
      cases (ofToken_text_float g).symm.trans hread
      exact .inl rfl
    | negativeNaN =>
      cases ofToken_text_negativeNaN.symm.trans hread
      exact .inr (.inr ⟨rfl, rfl⟩)
    | str s => exact .inr (.inl (congrArg Value.str h))
    | bool b => cases (ofToken_text_bool b).symm.trans hread
    | function g => cases (ofToken_text_function g).symm.trans hread
    | builtin b => cases (ofToken_text_builtin b).symm.trans hread
    | void => exact absurd rfl hvoid
  · rintro (rfl | rfl | ⟨rfl, rfl⟩) <;> rfl

/-- What prints like a built-in is one of the same name, or a text that spells it. -/
theorem text_eq_text_builtin_iff {v : Value} (hvoid : v ≠ .void) (b : Builtin) :
    v.text = (Value.builtin b).text ↔ (∃ c, v = .builtin c ∧ c.name = b.name) ∨ v = .str (Value.builtin b).text := by
  have hsymbol := ofToken_text_builtin b
  refine ⟨fun h => ?_, ?_⟩
  · rw [← h] at hsymbol
    cases v with
    | int n => cases (ofToken_text_int n).symm.trans hsymbol
    | float g => cases (ofToken_text_float g).symm.trans hsymbol
    | negativeNaN => cases ofToken_text_negativeNaN.symm.trans hsymbol
    | str s => exact .inr (congrArg Value.str h)
    | bool c =>
      obtain ⟨rest, hrest⟩ := toList_text_builtin b
      rw [← h] at hrest
      cases c <;> cases hrest
    | function g =>
      obtain ⟨rest, hrest⟩ := toList_text_builtin b
      obtain ⟨rest', hrest'⟩ := toList_text_function g
      rw [h, hrest] at hrest'
      cases hrest'
    | builtin c =>
      have hmarks : ("<built-in function " ++ c.name ++ ">").toList = ("<built-in function " ++ b.name ++ ">").toList :=
        congrArg String.toList h
      simp only [String.toList_append, List.append_cancel_left_eq, List.append_cancel_right_eq] at hmarks
      exact .inl ⟨c, rfl, String.toList_inj.mp hmarks⟩
    | void => exact absurd rfl hvoid
  · rintro (⟨c, rfl, hname⟩ | rfl)
    · change "<built-in function " ++ c.name ++ ">" = "<built-in function " ++ b.name ++ ">"
      rw [hname]
    · rfl

/-- **Values that print like a default binding.** They are this binding, a text that spells it, or the NaN with the other
sign. -/
theorem text_eq_text_iff {v w : Value} {name : String} (hv : v.Native) (hw : (name, w) ∈ (Registry.defaults 0).entries) :
    v.text = w.text ↔ v = w ∨ v = .str w.text ∨ v = .negativeNaN ∧ w = .float Binary64.notANumber := by
  cases w with
  | float f =>
    rw [text_eq_text_float_iff hv.ne_void, Value.float.injEq]
  | builtin b =>
    have hname : (∃ c, v = .builtin c ∧ c.name = b.name) ↔ v = .builtin b := by
      refine ⟨?_, fun h => ⟨b, h, rfl⟩⟩
      rintro ⟨c, rfl, hname⟩
      obtain ⟨name', hc⟩ := hv
      rw [Registry.name_of_mem_defaults hc, Registry.name_of_mem_defaults hw] at hname
      subst hname
      exact Registry.eq_of_mem_defaults hc hw
    rw [text_eq_text_builtin_iff hv.ne_void, hname]
    simp
  | _ => cases Registry.isFloatOrBuiltin_of_mem_defaults hw

end Value

end FormLang
