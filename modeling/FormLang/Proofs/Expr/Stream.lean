import FormLang.Proofs.Expr.Parse

/-!
# Reading from unchecked tokens

Building takes one tree from the front of any tokens, also of tokens that no balance check has seen. What becomes of an open
form is settled by the depths of its prefixes: it comes back to depth zero, it passes the limit before that, or it does
neither (`Fate`). The builder finds out which of the three it is (`fate_buildInside`), and each excludes the others.

Whether it succeeds or not, a build gives the number of open forms back as it was and leaves an end of the tokens
(`leaves_buildFrom`). So a reader builds exactly the tree at its front, and it can go on building after a failure as after a
success (`Reader.build_prefix_exact`).
-/

namespace FormLang

/-! ## What becomes of an open form -/

namespace Token

/-- From this depth on, the tokens come back to zero with the last of them, and keep within the limit until then. -/
def ReturnsWithin (limit : Nat) (d : Int) (ts : List Token) : Prop :=
  Returns d ts ∧ ∀ p, p <+: ts → d + (depth p).net ≤ limit

/-- From this depth on, the tokens pass the limit before they come back to zero. -/
def Exceeds (limit : Nat) (d : Int) (ts : List Token) : Prop :=
  ∃ p, p <+: ts ∧ d + (depth p).net = limit + 1 ∧ ∀ q, q <+: p → 0 < d + (depth q).net

/-- From this depth on, the tokens neither come back to zero nor pass the limit. -/
def StaysOpen (limit : Nat) (d : Int) (ts : List Token) : Prop :=
  ∀ p, p <+: ts → 0 < d + (depth p).net ∧ d + (depth p).net ≤ limit

theorem not_exceeds_of_staysOpen {limit : Nat} {d : Int} {ts : List Token} (h : StaysOpen limit d ts) :
    ¬ Exceeds limit d ts := by
  rintro ⟨p, hp, hdeep, -⟩
  have hle := (h p hp).2
  omega

theorem not_staysOpen_of_returns {limit : Nat} {d : Int} {p rest : List Token} (h : Returns d p) :
    ¬ StaysOpen limit d (p ++ rest) := by
  intro hopen
  have hpos := (hopen p (List.prefix_append p rest)).1
  have hzero := h.zero
  omega

theorem not_exceeds_of_returnsWithin {limit : Nat} {d : Int} {p rest : List Token} (h : ReturnsWithin limit d p) :
    ¬ Exceeds limit d (p ++ rest) := by
  rintro ⟨q, hq, hdeep, hpos⟩
  -- of two prefixes one is a prefix of the other: the depth is zero first, or too large first
  rcases List.prefix_or_prefix_of_prefix hq (List.prefix_append p rest) with hqp | hpq
  · have hle := h.2 q hqp
    omega
  · have hzero := h.1.zero
    have hpos := hpos p hpq
    omega

section cons

variable {limit : Nat} {d : Int} (hpos : 0 < d) (hle : d ≤ limit) (t : Token) {ts : List Token}

theorem add_net_cons (d : Int) (t : Token) (p : List Token) : d + (depth (t :: p)).net = d + rise t + (depth p).net := by
  rw [net_cons, Int.add_assoc]

include hpos

theorem Exceeds.cons (h : Exceeds limit (d + rise t) ts) : Exceeds limit d (t :: ts) := by
  obtain ⟨p, hp, hdeep, habove⟩ := h
  refine ⟨t :: p, List.cons_prefix_cons.mpr ⟨rfl, hp⟩, by rw [add_net_cons, hdeep], ?_⟩
  rw [forall_prefix_cons_iff, net_nil, Int.add_zero]
  exact ⟨hpos, fun q hq => add_net_cons d t q ▸ habove q hq⟩

include hle

theorem StaysOpen.cons (h : StaysOpen limit (d + rise t) ts) : StaysOpen limit d (t :: ts) := by
  rw [StaysOpen, forall_prefix_cons_iff, net_nil, Int.add_zero]
  exact ⟨⟨hpos, hle⟩, fun p hp => add_net_cons d t p ▸ h p hp⟩

theorem ReturnsWithin.cons (h : ReturnsWithin limit (d + rise t) ts) : ReturnsWithin limit d (t :: ts) := by
  refine ⟨(returns_cons_iff d t ts).mpr ⟨hpos, h.1⟩, ?_⟩
  rw [forall_prefix_cons_iff, net_nil, Int.add_zero]
  exact ⟨hle, fun p hp => add_net_cons d t p ▸ h.2 p hp⟩

end cons

end Token

namespace Expr

open Token (opening closing depth rise Returns ReturnsWithin Exceeds StaysOpen)

/-- What building made of the tokens that follow in an open form, at this depth. -/
def Fate (limit : Nat) (d : Int) (ts : List Token) (b : Built) : Prop :=
  (∃ e p, b.result = .ok e ∧ ts = p ++ b.rest ∧ ReturnsWithin limit d p) ∨
  (b.result = .error (.tooDeep limit) ∧ Exceeds limit d ts) ∨
  (b.result = .error .unclosedForm ∧ StaysOpen limit d ts)

theorem Fate.cons {limit : Nat} {d : Int} (hpos : 0 < d) (hle : d ≤ limit) (t : Token) {ts : List Token} {b : Built}
    (h : Fate limit (d + rise t) ts b) : Fate limit d (t :: ts) b := by
  rcases h with ⟨e, p, hok, rfl, hreturns⟩ | ⟨herr, hexceeds⟩ | ⟨herr, hopen⟩
  · exact .inl ⟨e, t :: p, hok, rfl, hreturns.cons hpos hle t⟩
  · exact .inr (.inl ⟨herr, hexceeds.cons hpos t⟩)
  · exact .inr (.inr ⟨herr, hopen.cons hpos hle t⟩)

theorem Fate.result_of_exceeds {limit : Nat} {d : Int} {ts : List Token} {b : Built} (h : Fate limit d ts b)
    (hexceeds : Exceeds limit d ts) : b.result = .error (.tooDeep limit) := by
  rcases h with ⟨e, p, -, rfl, hreturns⟩ | ⟨herr, -⟩ | ⟨-, hopen⟩
  · exact absurd hexceeds (Token.not_exceeds_of_returnsWithin hreturns)
  · exact herr
  · exact absurd hexceeds (Token.not_exceeds_of_staysOpen hopen)

theorem Fate.result_of_staysOpen {limit : Nat} {d : Int} {ts : List Token} {b : Built} (h : Fate limit d ts b)
    (hopen : StaysOpen limit d ts) : b.result = .error .unclosedForm := by
  rcases h with ⟨e, p, -, rfl, hreturns⟩ | ⟨-, hexceeds⟩ | ⟨herr, -⟩
  · exact absurd hopen (Token.not_staysOpen_of_returns hreturns.1)
  · exact absurd hexceeds (Token.not_exceeds_of_staysOpen hopen)
  · exact herr

variable {limit : Nat}

/-- **Building finds out what becomes of an open form.** -/
theorem fate_buildInside (items : List Expr) (outer : List (List Expr)) (ts : List Token) (hle : outer.length + 1 ≤ limit) :
    Fate limit (outer.length + 1) ts (buildInside limit (outer.length + 1) items outer ts) := by
  induction ts generalizing items outer with
  | nil =>
    refine .inr (.inr ⟨rfl, fun p hp => ?_⟩)
    rw [List.prefix_nil.mp hp, Token.net_nil]
    omega
  | cons t ts ih =>
    refine Fate.cons (by omega) (by omega) t ?_
    rcases Token.token_kinds t with rfl | rfl | ht
    · rw [Token.rise_opening]
      by_cases hdeep : limit < outer.length + 1 + 1
      · rw [buildInside_opening_of_lt hdeep]
        refine .inr (.inl ⟨rfl, [], List.nil_prefix, ?_, fun q hq => ?_⟩)
        · rw [Token.net_nil]
          omega
        · rw [List.prefix_nil.mp hq, Token.net_nil]
          omega
      · rw [buildInside_opening (by omega)]
        exact ih [] (items :: outer) (by rw [List.length_cons]; omega)
    · rw [Token.rise_closing]
      cases outer with
      | nil =>
        rw [buildInside_closing_nil]
        refine .inl ⟨_, [], rfl, rfl, (Token.returns_nil_iff _).mpr rfl, fun p hp => ?_⟩
        rw [List.prefix_nil.mp hp, Token.net_nil]
        omega
      | cons around outer =>
        have hdown : ((around :: outer).length : Int) + 1 + -1 = outer.length + 1 := by
          rw [List.length_cons]
          omega
        rw [buildInside_closing, hdown]
        exact ih _ outer (by rw [List.length_cons] at hle; omega)
    · rw [Token.rise_atom ht, Int.add_zero, buildInside_atom ht]
      exact ih _ outer hle

/-! ## What building leaves -/

/-- A build of these tokens leaves an end of them, and as many open forms as there were. -/
structure Leaves (nesting : Nat) (ts : List Token) (b : Built) : Prop where
  nesting : b.nesting = nesting
  rest : ∃ used, ts = used ++ b.rest

theorem Leaves.cons {nesting : Nat} (t : Token) {ts : List Token} {b : Built} (h : Leaves nesting ts b) :
    Leaves nesting (t :: ts) b := by
  obtain ⟨used, hused⟩ := h.rest
  exact ⟨h.nesting, t :: used, by rw [List.cons_append, ← hused]⟩

/-- Inside a form, each form counts until it ends, and a failure ends all of them. -/
theorem leaves_buildInside (nesting : Nat) (items : List Expr) (outer : List (List Expr)) (ts : List Token) :
    Leaves nesting ts (buildInside limit (nesting + outer.length + 1) items outer ts) := by
  induction ts generalizing items outer with
  | nil =>
    have hback : nesting + outer.length + 1 - (outer.length + 1) = nesting := by omega
    exact ⟨hback, [], rfl⟩
  | cons t ts ih =>
    apply Leaves.cons
    rcases Token.token_kinds t with rfl | rfl | ht
    · by_cases hdeep : limit < nesting + outer.length + 1 + 1
      · have hback : nesting + outer.length + 1 + 1 - (outer.length + 2) = nesting := by omega
        rw [buildInside_opening_of_lt hdeep]
        exact ⟨hback, [], rfl⟩
      · rw [buildInside_opening (by omega)]
        exact ih [] (items :: outer)
    · cases outer with
      | nil =>
        rw [buildInside_closing_nil]
        exact ⟨Nat.add_sub_cancel nesting 1, [], rfl⟩
      | cons around outer =>
        rw [buildInside_closing, Nat.add_sub_cancel, List.length_cons, ← Nat.add_assoc]
        exact ih _ outer
    · rw [buildInside_atom ht]
      exact ih _ outer

theorem buildFrom_opening {nesting : Nat} (hdeep : nesting + 1 ≤ limit) (ts : List Token) :
    buildFrom limit nesting (opening :: ts) = buildInside limit (nesting + 1) [] [] ts := by
  rw [buildFrom, if_pos rfl, if_neg (by omega)]

theorem buildFrom_closing (nesting : Nat) (ts : List Token) :
    buildFrom limit nesting (closing :: ts) = ⟨.error .strayClose, ts, nesting⟩ := by
  rw [buildFrom, if_neg Token.closing_ne_opening, if_pos rfl]

theorem buildFrom_atom {t : Token} (ht : t ≠ opening ∧ t ≠ closing) (nesting : Nat) (ts : List Token) :
    buildFrom limit nesting (t :: ts) = ⟨.ok (ofToken t), ts, nesting⟩ := by
  rw [buildFrom, if_neg ht.1, if_neg ht.2]

/-- A build consumes the first token in any case. -/
theorem leaves_buildFrom_cons (nesting : Nat) (t : Token) (ts : List Token) :
    Leaves nesting ts (buildFrom limit nesting (t :: ts)) := by
  rcases Token.token_kinds t with rfl | rfl | ht
  · by_cases hdeep : limit < nesting + 1
    · rw [buildFrom, if_pos rfl, if_pos hdeep]
      exact ⟨Nat.add_sub_cancel nesting 1, [], rfl⟩
    · rw [buildFrom_opening (by omega)]
      exact leaves_buildInside nesting [] [] ts
  · rw [buildFrom_closing]
    exact ⟨rfl, [], rfl⟩
  · rw [buildFrom_atom ht]
    exact ⟨rfl, [], rfl⟩

theorem leaves_buildFrom (nesting : Nat) (ts : List Token) : Leaves nesting ts (buildFrom limit nesting ts) := by
  cases ts with
  | nil => exact ⟨rfl, [], rfl⟩
  | cons t ts => exact (leaves_buildFrom_cons nesting t ts).cons t

/-! ## The outcome of a build -/

/-- The first form passes the limit before it closes. -/
def TooDeepForm (limit : Nat) (ts : List Token) : Prop :=
  ts.head? = some opening ∧
    ∃ p, p <+: ts ∧ (depth p).net = limit + 1 ∧ ∀ q, q <+: p → q ≠ [] → 0 < (depth q).net

/-- The first form never closes, and it keeps within the limit. -/
def UnclosedForm (limit : Nat) (ts : List Token) : Prop :=
  ts.head? = some opening ∧ ∀ p, p <+: ts → p ≠ [] → 0 < (depth p).net ∧ (depth p).net ≤ limit

theorem tooDeepForm_opening_iff (limit : Nat) (ts : List Token) : TooDeepForm limit (opening :: ts) ↔ Exceeds limit 1 ts := by
  have hcons : ∀ p, (∀ q, q <+: opening :: p → q ≠ [] → 0 < (depth q).net) ↔ ∀ q, q <+: p → 0 < 1 + (depth q).net := by
    intro p
    simp [Token.forall_prefix_cons_iff]
  constructor
  · rintro ⟨-, p, hp, hdeep, hpos⟩
    rcases List.prefix_cons_iff.mp hp with rfl | ⟨q, rfl, hq⟩
    · rw [Token.net_nil] at hdeep
      omega
    · rw [Token.net_cons, Token.rise_opening] at hdeep
      exact ⟨q, hq, hdeep, (hcons q).mp hpos⟩
  · rintro ⟨p, hp, hdeep, hpos⟩
    refine ⟨rfl, opening :: p, List.cons_prefix_cons.mpr ⟨rfl, hp⟩, ?_, (hcons p).mpr hpos⟩
    rw [Token.net_cons, Token.rise_opening, hdeep]

theorem unclosedForm_opening_iff (limit : Nat) (ts : List Token) :
    UnclosedForm limit (opening :: ts) ↔ StaysOpen limit 1 ts := by
  simp [UnclosedForm, StaysOpen, Token.forall_prefix_cons_iff]

section outcome

variable (hlimit : 1 ≤ limit)

include hlimit

theorem fate_buildFrom (ts : List Token) : Fate limit 1 ts (buildFrom limit 0 (opening :: ts)) := by
  rw [buildFrom_opening hlimit]
  exact fate_buildInside [] [] ts hlimit

/-- A build takes a tree from the front, or it fails for one of four reasons. -/
theorem buildFrom_cases (ts : List Token) :
    (∃ t : TokenTree, t.nest ≤ limit ∧ ts = t.flatten ++ (buildFrom limit 0 ts).rest ∧
      (buildFrom limit 0 ts).result = .ok t.toExpr) ∨
    ((buildFrom limit 0 ts).result = .error .endOfInput ∧ ts = []) ∨
    ((buildFrom limit 0 ts).result = .error .strayClose ∧ ts.head? = some closing) ∨
    ((buildFrom limit 0 ts).result = .error (.tooDeep limit) ∧ TooDeepForm limit ts) ∨
    ((buildFrom limit 0 ts).result = .error .unclosedForm ∧ UnclosedForm limit ts) := by
  cases ts with
  | nil => exact .inr (.inl ⟨rfl, rfl⟩)
  | cons t ts =>
    rcases Token.token_kinds t with rfl | rfl | ht
    · rw [tooDeepForm_opening_iff, unclosedForm_opening_iff]
      rcases fate_buildFrom hlimit ts with ⟨e, p, hok, hts, hreturns⟩ | hdeep | hopen
      · -- the form that closed is a node, and one that is nested too deep would not have been read
        obtain ⟨cs, hcs⟩ := Token.node_of_returns hreturns.1
        have hsplit : opening :: ts = (TokenTree.node cs).flatten ++ (buildFrom limit 0 (opening :: ts)).rest := by
          rw [← hcs, List.cons_append, ← hts]
        have hnest : (TokenTree.node cs).nest ≤ limit := by
          rcases Nat.lt_or_ge limit (TokenTree.node cs).nest with hlt | hle
          · have herr := buildFrom_flatten_of_lt (.node cs) (Nat.zero_le limit) hlt (buildFrom limit 0 (opening :: ts)).rest
            rw [← hsplit, hok] at herr
            cases herr
          · exact hle
        have hbuilt := buildFrom_flatten_of_le 0 (t := .node cs) hnest (buildFrom limit 0 (opening :: ts)).rest
        rw [← hsplit] at hbuilt
        exact .inl ⟨.node cs, hnest, hsplit, congrArg Built.result hbuilt⟩
      · exact .inr (.inr (.inr (.inl hdeep)))
      · exact .inr (.inr (.inr (.inr hopen)))
    · rw [buildFrom_closing]
      exact .inr (.inr (.inl ⟨rfl, rfl⟩))
    · rw [buildFrom_atom ht]
      exact .inl ⟨.leaf t ht, Nat.zero_le limit, rfl, rfl⟩

theorem buildFrom_eq_ok_iff (ts rest : List Token) (e : Expr) :
    (buildFrom limit 0 ts).result = .ok e ∧ (buildFrom limit 0 ts).rest = rest ↔
      ∃ t : TokenTree, ts = t.flatten ++ rest ∧ t.nest ≤ limit ∧ e = t.toExpr := by
  constructor
  · rintro ⟨hok, rfl⟩
    rcases buildFrom_cases hlimit ts with ⟨t, hnest, hts, hresult⟩ | ⟨herr, -⟩ | ⟨herr, -⟩ | ⟨herr, -⟩ | ⟨herr, -⟩
    · exact ⟨t, hts, hnest, Except.ok.inj (hok.symm.trans hresult)⟩
    all_goals cases hok.symm.trans herr
  · rintro ⟨t, rfl, hnest, rfl⟩
    rw [buildFrom_flatten_of_le 0 hnest rest]
    exact ⟨rfl, rfl⟩

theorem result_of_tooDeepForm {ts : List Token} (h : TooDeepForm limit ts) :
    (buildFrom limit 0 ts).result = .error (.tooDeep limit) := by
  obtain ⟨ts, rfl⟩ := List.head?_eq_some_iff.mp h.1
  exact (fate_buildFrom hlimit ts).result_of_exceeds ((tooDeepForm_opening_iff limit ts).mp h)

theorem result_of_unclosedForm {ts : List Token} (h : UnclosedForm limit ts) :
    (buildFrom limit 0 ts).result = .error .unclosedForm := by
  obtain ⟨ts, rfl⟩ := List.head?_eq_some_iff.mp h.1
  exact (fate_buildFrom hlimit ts).result_of_staysOpen ((unclosedForm_opening_iff limit ts).mp h)

end outcome

end Expr

/-! ## Readers -/

theorem effectiveLimit_pos (limit : Int) : 1 ≤ effectiveLimit limit := by
  unfold effectiveLimit defaultLimit
  split <;> omega

namespace Reader

open Token (closing)

section skipTo

variable {r : Reader} {used ts : List Token} (h : r.rest = used ++ ts)

include h

theorem position_skipTo : (r.skipTo ts).position = r.position + used.length := by
  have hlen := congrArg List.length h
  have hinside := r.inside
  rw [rest, List.length_drop, List.length_append] at hlen
  change r.tokens.length - ts.length = _
  omega

theorem rest_skipTo : (r.skipTo ts).rest = ts := by
  rw [rest, position_skipTo h]
  change r.tokens.drop (r.position + used.length) = ts
  rw [← List.drop_drop, ← rest, h, List.drop_left]

end skipTo

/-- What building makes of the tokens that are left. -/
def built (r : Reader) : Expr.Built :=
  Expr.buildFrom (effectiveLimit r.limit) r.nesting r.rest

theorem leaves_built (r : Reader) : Expr.Leaves r.nesting r.rest r.built :=
  Expr.leaves_buildFrom r.nesting r.rest

/-- A build moves the cursor over the tokens that it consumed. -/
theorem exists_used (r : Reader) : ∃ used, r.rest = used ++ r.built.rest ∧ r.build.2.rest = r.built.rest ∧
    r.build.2.position = r.position + used.length := by
  obtain ⟨used, hused⟩ := r.leaves_built.rest
  exact ⟨used, hused, rest_skipTo hused, position_skipTo hused⟩

theorem nesting_build (r : Reader) : r.build.2.nesting = r.nesting :=
  r.leaves_built.nesting

theorem position_le_build (r : Reader) : r.position ≤ r.build.2.position := by
  obtain ⟨used, -, -, hposition⟩ := r.exists_used
  omega

theorem position_lt_build {r : Reader} (h : r.rest ≠ []) : r.position < r.build.2.position := by
  obtain ⟨t, ts, hts⟩ := List.exists_cons_of_ne_nil h
  have hleaves : Expr.Leaves r.nesting ts r.built := by
    rw [built, hts]
    exact Expr.leaves_buildFrom_cons r.nesting t ts
  obtain ⟨others, hothers⟩ := hleaves.rest
  obtain ⟨used, hused, -, hposition⟩ := r.exists_used
  have hsplit : t :: others ++ r.built.rest = used ++ r.built.rest := by
    rw [List.cons_append, ← hothers, ← hts, hused]
  rw [hposition, ← List.append_cancel_right hsplit, List.length_cons]
  omega

/-! ### Trees at the front -/

/-- The tokens that are left start with this tree, and it is nested within the limit. -/
def StartsWith (r : Reader) (t : TokenTree) : Prop :=
  t.flatten <+: r.rest ∧ t.nest ≤ effectiveLimit r.limit

/-- A build fails with an error of this code. -/
def FailsWith (r : Reader) (code : Code) : Prop :=
  ∃ err, r.build.1 = .error err ∧ err.code = code

/-- What a build that fails with this code has found. -/
def Finds (r : Reader) : Code → Prop
  | .unexpectedCloseParen => r.rest.head? = some closing
  | .resource => Expr.TooDeepForm (effectiveLimit r.limit) r.rest
  | .unexpectedEnd => r.rest = [] ∨ Expr.UnclosedForm (effectiveLimit r.limit) r.rest
  | _ => False

/-- The results of so many builds, one after the other. -/
def builds : Nat → Reader → List (Except ReadError Expr)
  | 0, _ => []
  | n + 1, r => r.build.1 :: builds n r.build.2

section fresh

variable {r : Reader} (hnesting : r.nesting = 0)

include hnesting

theorem built_eq : r.built = Expr.buildFrom (effectiveLimit r.limit) 0 r.rest := by
  rw [built, hnesting]

theorem build_eq_ok_iff (e : Expr) (k : Nat) :
    r.build.1 = .ok e ∧ r.build.2.position = r.position + k ↔
      ∃ t, r.StartsWith t ∧ t.flatten.length = k ∧ e = t.toExpr := by
  obtain ⟨used, hused, -, hposition⟩ := r.exists_used
  have hiff := Expr.buildFrom_eq_ok_iff (effectiveLimit_pos r.limit) r.rest
  rw [← built_eq hnesting] at hiff
  constructor
  · rintro ⟨hok, hk⟩
    obtain ⟨t, hsplit, hnest, rfl⟩ := (hiff r.built.rest e).mp ⟨hok, rfl⟩
    have hsame : used = t.flatten := List.append_cancel_right (hused.symm.trans hsplit)
    refine ⟨t, ⟨⟨r.built.rest, hsplit.symm⟩, hnest⟩, ?_, rfl⟩
    rw [← hsame]
    omega
  · rintro ⟨t, ⟨⟨rest, hsplit⟩, hnest⟩, rfl, rfl⟩
    obtain ⟨hok, hrest⟩ := (hiff rest t.toExpr).mpr ⟨t, hsplit.symm, hnest, rfl⟩
    rw [hrest] at hused
    have hsame : used = t.flatten := List.append_cancel_right (hused.symm.trans hsplit.symm)
    exact ⟨hok, hsame ▸ hposition⟩

/-- The tree at the front ends where the build stops, so it has one length. -/
theorem length_unique {t t' : TokenTree} (h : r.StartsWith t) (h' : r.StartsWith t') :
    t.flatten.length = t'.flatten.length := by
  have hposition := ((build_eq_ok_iff hnesting t.toExpr _).mpr ⟨t, h, rfl, rfl⟩).2
  have hposition' := ((build_eq_ok_iff hnesting t'.toExpr _).mpr ⟨t', h', rfl, rfl⟩).2
  omega

theorem finds_of_build_eq_error {err : ReadError} (h : r.build.1 = .error err) : r.Finds err.code := by
  have hcases := Expr.buildFrom_cases (effectiveLimit_pos r.limit) r.rest
  have herr : r.built.result = .error err := h
  rw [← built_eq hnesting, herr] at hcases
  rcases hcases with ⟨t, -, -, hok⟩ | ⟨herr, hnil⟩ | ⟨herr, hclose⟩ | ⟨herr, hdeep⟩ | ⟨herr, hopen⟩
  · cases hok
  · cases herr
    exact .inl hnil
  · cases herr
    exact hclose
  · cases herr
    exact hdeep
  · cases herr
    exact .inr hopen

/-- **A build fails with a code exactly if it finds what that code stands for.** -/
theorem failsWith_iff (code : Code) : r.FailsWith code ↔ r.Finds code := by
  constructor
  · rintro ⟨err, herr, rfl⟩
    exact finds_of_build_eq_error hnesting herr
  · intro h
    have hresult : r.build.1 = (Expr.buildFrom (effectiveLimit r.limit) 0 r.rest).result :=
      congrArg Expr.Built.result (built_eq hnesting)
    rw [FailsWith, hresult]
    unfold Finds at h
    split at h
    · obtain ⟨ts, hts⟩ := List.head?_eq_some_iff.mp h
      rw [hts, Expr.buildFrom_closing]
      exact ⟨.strayClose, rfl, rfl⟩
    · exact ⟨_, Expr.result_of_tooDeepForm (effectiveLimit_pos r.limit) h, rfl⟩
    · rcases h with hnil | hopen
      · rw [hnil]
        exact ⟨.endOfInput, rfl, rfl⟩
      · exact ⟨_, Expr.result_of_unclosedForm (effectiveLimit_pos r.limit) hopen, rfl⟩
    · exact h.elim

end fresh

/-- Trees that stand one after the other are built one after the other. -/
theorem builds_flattenAll {r : Reader} (hnesting : r.nesting = 0) (cs : List TokenTree) (rest : List Token)
    (hrest : r.rest = TokenTree.flattenAll cs ++ rest) (hnest : ∀ t ∈ cs, t.nest ≤ effectiveLimit r.limit) :
    builds cs.length r = (TokenTree.toExprs cs).map .ok := by
  induction cs generalizing r with
  | nil => rfl
  | cons t cs ih =>
    rw [TokenTree.flattenAll, List.append_assoc] at hrest
    have hbuilt : r.built = ⟨.ok t.toExpr, TokenTree.flattenAll cs ++ rest, 0⟩ := by
      rw [built_eq hnesting, hrest]
      exact Expr.buildFrom_flatten_of_le 0 (hnest t List.mem_cons_self) _
    obtain ⟨used, -, hleft, -⟩ := r.exists_used
    rw [hbuilt] at hleft
    have htail := ih (r.nesting_build.trans hnesting) hleft fun t' ht' => hnest t' (List.mem_cons_of_mem t ht')
    rw [List.length_cons, builds, htail, TokenTree.toExprs, List.map_cons]
    exact congrArg (· :: _) (congrArg Expr.Built.result hbuilt)

/-- **A reader builds exactly the tree at its front.** Where it finds none it says what it found instead, and in every case it
closes all forms that it opened and goes on behind what it consumed. -/
theorem build_prefix_exact (r : Reader) (hnesting : r.nesting = 0) :
    (∀ e k, r.build.1 = .ok e ∧ r.build.2.position = r.position + k ↔
      ∃ t, r.StartsWith t ∧ t.flatten.length = k ∧ e = t.toExpr) ∧
    (∀ t t', r.StartsWith t → r.StartsWith t' → t.flatten.length = t'.flatten.length) ∧
    (r.FailsWith .unexpectedCloseParen ↔ r.rest.head? = some closing) ∧
    (r.FailsWith .resource ↔ Expr.TooDeepForm (effectiveLimit r.limit) r.rest) ∧
    (r.FailsWith .unexpectedEnd ↔ r.rest = [] ∨ Expr.UnclosedForm (effectiveLimit r.limit) r.rest) ∧
    (∀ err, r.build.1 = .error err → err.code ∈ [.unexpectedCloseParen, .resource, .unexpectedEnd]) ∧
    (r.build.2.nesting = 0 ∧ r.build.2.tokens = r.tokens ∧ r.build.2.limit = r.limit ∧
      r.position ≤ r.build.2.position ∧ r.build.2.position ≤ r.tokens.length ∧
      (r.rest ≠ [] → r.position < r.build.2.position)) ∧
    (∀ cs rest, r.rest = TokenTree.flattenAll cs ++ rest → (∀ t ∈ cs, t.nest ≤ effectiveLimit r.limit) →
      builds cs.length r = (TokenTree.toExprs cs).map .ok) := by
  refine ⟨build_eq_ok_iff hnesting, fun t t' => length_unique hnesting, failsWith_iff hnesting .unexpectedCloseParen,
    failsWith_iff hnesting .resource, failsWith_iff hnesting .unexpectedEnd, fun err herr => ?_, ?_, builds_flattenAll hnesting⟩
  · have hfinds := finds_of_build_eq_error hnesting herr
    unfold Finds at hfinds
    split at hfinds <;> simp_all
  · exact ⟨r.nesting_build.trans hnesting, rfl, rfl, r.position_le_build, r.build.2.inside, position_lt_build⟩

/-- Two trees are built, the first of them nested as deep as the limit allows, before the form that never closes. -/
theorem build_prefix_exact_nested :
    (ofTokens ["(", "a", "(", "b", ")", ")", "c", "("] 2).nesting = 0 ∧
    builds 2 (ofTokens ["(", "a", "(", "b", ")", ")", "c", "("] 2) =
      [.ok (.list [.symbol "a", .list [.symbol "b"]]), .ok (.symbol "c")] := by
  refine ⟨rfl, ?_⟩
  obtain ⟨-, -, -, -, -, -, -, hbuilds⟩ := build_prefix_exact (ofTokens ["(", "a", "(", "b", ")", ")", "c", "("] 2) rfl
  exact hbuilds [.node [.leaf "a" (by decide), .node [.leaf "b" (by decide)]], .leaf "c" (by decide)] ["("] rfl (by decide)

end Reader

end FormLang
