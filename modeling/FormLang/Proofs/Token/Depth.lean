import FormLang.Token.Balance

/-!
# Depth and balance

The balance check keeps the number of open parentheses and nothing else, so what it accepts can be said by the depths of
prefixes: the depth comes back to zero with the last token and not before (`Returns`, `scanBalance_eq_ok_iff`). The check of
the sum sees the depth of the whole only.

`balance_checks_agree` compares the two checks. They differ exactly on what closes early, and where both fail they give the
same code.
-/

namespace FormLang.Token

theorem closing_ne_opening : closing ≠ opening := by decide

/-! ## Net depths -/

/-- How much a token adds to the depth. -/
def rise (t : Token) : Int :=
  if t = opening then 1 else if t = closing then -1 else 0

@[simp] theorem rise_opening : rise opening = 1 := rfl

@[simp] theorem rise_closing : rise closing = -1 := rfl

theorem rise_atom {t : Token} (ht : t ≠ opening ∧ t ≠ closing) : rise t = 0 := by
  rw [rise, if_neg ht.1, if_neg ht.2]

theorem net_next (d : Depth) (t : Token) : (d.next t).net = d.net + rise t := by
  unfold Depth.next rise
  split
  · rfl
  · split
    · rfl
    · exact (Int.add_zero _).symm

theorem net_foldl_next (d : Depth) (ts : List Token) : (ts.foldl Depth.next d).net = d.net + (depth ts).net := by
  induction ts generalizing d with
  | nil => exact (Int.add_zero _).symm
  | cons t ts ih =>
    have hstart : (Depth.start.next t).net = rise t := by rw [net_next, Depth.start, Int.zero_add]
    rw [depth, List.foldl_cons, List.foldl_cons, ih, ih (Depth.start.next t), net_next, hstart, Int.add_assoc]

@[simp] theorem net_nil : (depth []).net = 0 := rfl

@[simp] theorem net_cons (t : Token) (ts : List Token) : (depth (t :: ts)).net = rise t + (depth ts).net := by
  rw [depth, List.foldl_cons, net_foldl_next, net_next, Depth.start, Int.zero_add]

theorem forall_prefix_cons_iff {P : List Token → Prop} {t : Token} {ts : List Token} :
    (∀ p, p <+: t :: ts → P p) ↔ P [] ∧ ∀ p, p <+: ts → P (t :: p) := by
  constructor
  · intro h
    exact ⟨h [] List.nil_prefix, fun p hp => h (t :: p) (List.cons_prefix_cons.mpr ⟨rfl, hp⟩)⟩
  · rintro ⟨hnil, hcons⟩ p hp
    rcases List.prefix_cons_iff.mp hp with rfl | ⟨q, rfl, hq⟩
    · exact hnil
    · exact hcons q hq

/-! ## Coming back to zero -/

/-- From this depth on, the tokens come back to depth zero with the last of them and not before. -/
structure Returns (d : Int) (ts : List Token) : Prop where
  zero : d + (depth ts).net = 0
  above : ∀ p, p <+: ts → p ≠ ts → 0 < d + (depth p).net

theorem returns_nil_iff (d : Int) : Returns d [] ↔ d = 0 := by
  constructor
  · intro h
    have hzero := h.zero
    rw [net_nil] at hzero
    omega
  · rintro rfl
    exact ⟨rfl, fun p hp hne => absurd (List.prefix_nil.mp hp) hne⟩

theorem returns_cons_iff (d : Int) (t : Token) (ts : List Token) :
    Returns d (t :: ts) ↔ 0 < d ∧ Returns (d + rise t) ts := by
  have hshift : ∀ p : List Token, d + (depth (t :: p)).net = d + rise t + (depth p).net := by
    intro p
    rw [net_cons, Int.add_assoc]
  constructor
  · rintro ⟨hzero, habove⟩
    rw [forall_prefix_cons_iff, net_nil, Int.add_zero] at habove
    rw [hshift] at hzero
    refine ⟨habove.1 (List.cons_ne_nil t ts).symm, hzero, fun p hp hne => ?_⟩
    rw [← hshift]
    exact habove.2 p hp fun heq => hne (List.cons.inj heq).2
  · rintro ⟨hpos, hzero, habove⟩
    refine ⟨by rw [hshift, hzero], forall_prefix_cons_iff.mpr ⟨fun _ => ?_, fun p hp hne => ?_⟩⟩
    · rw [net_nil, Int.add_zero]
      exact hpos
    · rw [hshift]
      exact habove p hp fun heq => hne (heq ▸ rfl)

/-- From depth zero only nothing comes back to it. -/
theorem returns_zero_iff (ts : List Token) : Returns 0 ts ↔ ts = [] := by
  cases ts with
  | nil => simp [returns_nil_iff]
  | cons t ts => simp [returns_cons_iff]

/-! ## The scan -/

theorem scanBalance_opening (position opened : Nat) (ts : List Token) :
    scanBalance position opened (opening :: ts) = scanBalance (position + 1) (opened + 1) ts := by
  cases opened <;> rw [scanBalance, if_pos rfl]

theorem scanBalance_atom {t : Token} (ht : t ≠ opening ∧ t ≠ closing) (position opened : Nat) (ts : List Token) :
    scanBalance position opened (t :: ts) = scanBalance (position + 1) opened ts := by
  cases opened <;> rw [scanBalance, if_neg ht.1, if_neg ht.2]

theorem scanBalance_closing (position opened : Nat) (ts : List Token) :
    scanBalance position (opened + 1) (closing :: ts) =
      if opened = 0 && !ts.isEmpty then .error (.closedEarly position)
      else scanBalance (position + 1) opened ts := by
  rw [scanBalance, if_neg closing_ne_opening, if_pos rfl]

theorem token_kinds (t : Token) : t = opening ∨ t = closing ∨ (t ≠ opening ∧ t ≠ closing) := by
  by_cases hopen : t = opening
  · exact .inl hopen
  · by_cases hclose : t = closing
    · exact .inr (.inl hclose)
    · exact .inr (.inr ⟨hopen, hclose⟩)

/-- **Inside a form, the scan accepts what comes back to zero with its last token.** -/
theorem scanBalance_eq_ok_iff (position opened : Nat) (ts : List Token) :
    scanBalance position (opened + 1) ts = .ok () ↔ Returns (opened + 1) ts := by
  induction ts generalizing position opened with
  | nil =>
    rw [returns_nil_iff]
    refine ⟨fun h => (by cases h), fun h => ?_⟩
    omega
  | cons t ts ih =>
    have hpos : (0 : Int) < opened + 1 := by omega
    rcases token_kinds t with rfl | rfl | ht
    · rw [scanBalance_opening, ih, returns_cons_iff, rise_opening, Int.natCast_add, Int.natCast_one]
      exact (and_iff_right hpos).symm
    · rw [scanBalance_closing, returns_cons_iff, rise_closing, and_iff_right hpos]
      cases opened with
      | zero =>
        -- the outermost form closes here, so this has to be the last token
        have hzero : ((0 : Nat) : Int) + 1 + -1 = 0 := rfl
        rw [hzero, returns_zero_iff]
        cases ts with
        | nil => simp [scanBalance]
        | cons t' ts => simp
      | succ opened =>
        have hdown : ((opened + 1 : Nat) : Int) + 1 + -1 = opened + 1 := by omega
        rw [if_neg (by simp), ih, hdown]
    · rw [scanBalance_atom ht, ih, returns_cons_iff, rise_atom ht, Int.add_zero]
      exact (and_iff_right hpos).symm

theorem code_of_scanBalance {position opened : Nat} {ts : List Token} {err : BalanceError}
    (h : scanBalance position opened ts = .error err) : err.code = .mismatchedParens := by
  fun_induction scanBalance position opened ts with
  | case1 => cases h
  | case2 =>
    cases h
    rfl
  | case3 _ _ _ ih => exact ih h
  | case4 =>
    cases h
    rfl
  | case5 =>
    cases h
    rfl
  | case6 _ _ _ _ _ ih => exact ih h
  | case7 _ _ _ _ _ _ ih => exact ih h

/-! ## The two checks -/

theorem checkOuter_eq_ok_iff (ts : List Token) :
    checkOuter ts = .ok () ↔ ts ≠ [] ∧ ts.head? = some opening ∧ ts.getLast? = some closing := by
  cases ts with
  | nil => simp [checkOuter]
  | cons t ts =>
    by_cases hopen : t = opening <;> simp [checkOuter, hopen]

theorem checkBalance_of_outer {ts : List Token} (houter : checkOuter ts = .ok ()) : checkBalance ts = scanBalance 1 0 ts := by
  rw [checkBalance, houter]
  rfl

theorem checkSum_of_outer {ts : List Token} (houter : checkOuter ts = .ok ()) :
    checkSum ts = if (depth ts).net = 0 then .ok () else .error (.offBy (depth ts).net) := by
  rw [checkSum, houter]
  rfl

/-- What fails at the ends of the tokens, both checks refuse for the same reason. -/
theorem checks_of_not_outer {ts : List Token} {err : BalanceError} (houter : checkOuter ts = .error err) :
    checkBalance ts = .error err ∧ checkSum ts = .error err := by
  rw [checkBalance, checkSum, houter]
  exact ⟨rfl, rfl⟩

/-- Some non-empty prefix other than the whole has no open parenthesis left. -/
def ClosesEarly (ts : List Token) : Prop :=
  ∃ p, p <+: ts ∧ p ≠ [] ∧ p ≠ ts ∧ (depth p).net ≤ 0

/-- What opens a form comes back to zero with its last token exactly if its net depth is zero and it does not close early. -/
theorem returns_one_iff (ts : List Token) :
    Returns 1 ts ↔ (depth (opening :: ts)).net = 0 ∧ ¬ ClosesEarly (opening :: ts) := by
  rw [net_cons, rise_opening]
  constructor
  · rintro ⟨hzero, habove⟩
    refine ⟨hzero, ?_⟩
    rintro ⟨p, hp, hne, hproper, hlow⟩
    rcases List.prefix_cons_iff.mp hp with rfl | ⟨q, rfl, hq⟩
    · exact hne rfl
    · have hpos := habove q hq fun heq => hproper (heq ▸ rfl)
      rw [net_cons, rise_opening] at hlow
      omega
  · rintro ⟨hzero, hearly⟩
    refine ⟨hzero, fun p hp hproper => ?_⟩
    by_cases hpos : 0 < 1 + (depth p).net
    · exact hpos
    · refine absurd ⟨opening :: p, List.cons_prefix_cons.mpr ⟨rfl, hp⟩, List.cons_ne_nil _ _, ?_, ?_⟩ hearly
      · exact fun heq => hproper (List.cons.inj heq).2
      · rw [net_cons, rise_opening]
        omega

/-- The balance check asks for the ends, for net depth zero, and that nothing closes early. -/
theorem checkBalance_eq_ok_iff_depth (ts : List Token) :
    checkBalance ts = .ok () ↔ checkOuter ts = .ok () ∧ (depth ts).net = 0 ∧ ¬ ClosesEarly ts := by
  cases houter : checkOuter ts with
  | error err => simp [(checks_of_not_outer houter).1]
  | ok _ =>
    obtain ⟨hne, hhead, -⟩ := (checkOuter_eq_ok_iff ts).mp houter
    obtain ⟨t, ts, rfl⟩ := List.exists_cons_of_ne_nil hne
    obtain rfl : t = opening := Option.some.inj hhead
    have hscan := scanBalance_eq_ok_iff 2 0 ts
    rw [checkBalance_of_outer houter, scanBalance_opening, hscan]
    exact (returns_one_iff ts).trans (and_iff_right rfl).symm

theorem checkSum_eq_ok_iff (ts : List Token) : checkSum ts = .ok () ↔ checkOuter ts = .ok () ∧ (depth ts).net = 0 := by
  cases houter : checkOuter ts with
  | error err => simp [(checks_of_not_outer houter).2]
  | ok _ => by_cases hnet : (depth ts).net = 0 <;> simp [checkSum_of_outer houter, hnet]

/-- **The two balance checks agree except on early closes.** What the scan accepts, the sum accepts. The scan accepts exactly
what starts with an opening and ends with a closing parenthesis, has net depth zero, and has positive depth after every
non-empty proper prefix. What the sum accepts and the scan does not is exactly what passes the check of the ends with net
depth zero and closes early. Where both refuse, they give the same code. -/
theorem balance_checks_agree (ts : List Token) :
    (checkBalance ts = .ok () → checkSum ts = .ok ()) ∧
    (checkBalance ts = .ok () ↔ ts ≠ [] ∧ ts.head? = some opening ∧ ts.getLast? = some closing ∧ (depth ts).net = 0 ∧
      ∀ p, p <+: ts → p ≠ [] → p ≠ ts → 0 < (depth p).net) ∧
    ((checkSum ts = .ok () ∧ ∃ err, checkBalance ts = .error err) ↔
      checkOuter ts = .ok () ∧ (depth ts).net = 0 ∧ ∃ p, p <+: ts ∧ p ≠ [] ∧ p ≠ ts ∧ (depth p).net ≤ 0) ∧
    (∀ err err', checkBalance ts = .error err → checkSum ts = .error err' → err.code = err'.code) := by
  have hbalance := checkBalance_eq_ok_iff_depth ts
  have hsum := checkSum_eq_ok_iff ts
  have hearly : ¬ ClosesEarly ts ↔ ∀ p, p <+: ts → p ≠ [] → p ≠ ts → 0 < (depth p).net := by
    simp only [ClosesEarly, not_exists, not_and, Int.not_le]
  have hrefused : (∃ err, checkBalance ts = .error err) ↔ ¬ checkBalance ts = .ok () := by
    cases checkBalance ts <;> simp
  refine ⟨fun h => ?_, ?_, ?_, fun err err' h h' => ?_⟩
  · rw [hbalance] at h
    exact hsum.mpr ⟨h.1, h.2.1⟩
  · rw [hbalance, checkOuter_eq_ok_iff, hearly]
    simp only [and_assoc]
  · rw [hrefused, hbalance, hsum]
    constructor
    · rintro ⟨⟨houter, hnet⟩, hnot⟩
      exact ⟨houter, hnet, Classical.not_not.mp fun hno => hnot ⟨houter, hnet, hno⟩⟩
    · rintro ⟨houter, hnet, hyes⟩
      exact ⟨⟨houter, hnet⟩, fun hall => hall.2.2 hyes⟩
  · cases houter : checkOuter ts with
    | error err₀ =>
      obtain ⟨hscan, hnet⟩ := checks_of_not_outer houter
      cases hscan.symm.trans h
      cases hnet.symm.trans h'
      rfl
    | ok _ =>
      rw [checkBalance_of_outer houter] at h
      rw [checkSum_of_outer houter] at h'
      split at h'
      · cases h'
      · cases h'
        exact code_of_scanBalance h

/-- A form that closes and opens again passes the sum only. -/
theorem balance_checks_agree_reopened :
    checkSum ["(", ")", "(", ")"] = .ok () ∧ ∃ err, checkBalance ["(", ")", "(", ")"] = .error err := by
  obtain ⟨-, -, hdiffer, -⟩ := balance_checks_agree ["(", ")", "(", ")"]
  exact hdiffer.mpr ⟨rfl, rfl, ["(", ")"], by decide, by decide, by decide, by decide⟩

end FormLang.Token
