import FormLang.Json.Subset
import FormLang.Proofs.Binary64.Order

/-!
# Documents ordered by inclusion

Objects and arrays are included in the same way: what stands under a key or at a position is included in what the other
document has there (`Within`). So inclusion of documents is decided by their shapes, their scalars and their parts
(`isSubset_iff`), and its laws follow by induction over parts (`parts_induction`).

Documents that include each other are decoded to the same value, and only those (`decode_eq_iff`). A document that grows, by a
new key of an object or by items at the end of an array somewhere in it, includes what it was (`isSubset_of_grows`), and with
that everything that was included in it.
-/

namespace FormLang.Json

/-! ## Parts -/

/-- The documents directly inside a document. -/
def parts : Json → List Json
  | .arr items => items
  | .obj fields => fields.map (·.2)
  | .null | .bool _ | .num _ | .str _ => []

section Induction

variable {P : Json → Prop}

mutual

/-- What passes from the parts of a document to the whole holds of all documents. -/
theorem parts_induction (h : ∀ j : Json, (∀ x ∈ j.parts, P x) → P j) : ∀ j : Json, P j
  | .arr items => h (.arr items) (items_induction h items)
  | .obj fields => h (.obj fields) (fields_induction h fields)
  | .null => h .null (List.forall_mem_nil P)
  | .bool b => h (.bool b) (List.forall_mem_nil P)
  | .num literal => h (.num literal) (List.forall_mem_nil P)
  | .str s => h (.str s) (List.forall_mem_nil P)

theorem items_induction (h : ∀ j : Json, (∀ x ∈ j.parts, P x) → P j) : ∀ items : List Json, ∀ x ∈ items, P x
  | [] => List.forall_mem_nil P
  | j :: rest => List.forall_mem_cons.mpr ⟨parts_induction h j, items_induction h rest⟩

theorem fields_induction (h : ∀ j : Json, (∀ x ∈ j.parts, P x) → P j) :
    ∀ fields : List (String × Json), ∀ x ∈ fields.map (·.2), P x
  | [] => List.forall_mem_nil P
  | f :: rest => List.forall_mem_cons.mpr ⟨parts_induction h f.2, fields_induction h rest⟩

end

end Induction

theorem mem_parts_of_getElem? {items : List Json} {i : Nat} {j : Json} (h : items[i]? = some j) : j ∈ (arr items).parts :=
  List.mem_of_getElem? h

/-! ## Fields -/

theorem get?_cons (key name : String) (j : Json) (rest : List (String × Json)) :
    get? ((key, j) :: rest) name = (get? rest name).or (if key = name then some j else none) := by
  rw [get?]
  cases get? rest name <;> rfl

theorem get?_append (fields more : List (String × Json)) (name : String) :
    get? (fields ++ more) name = (get? more name).or (get? fields name) := by
  induction fields with
  | nil => rw [List.nil_append, get?, Option.or_none]
  | cons f rest ih => rw [List.cons_append, get?_cons, get?_cons, ih, Option.or_assoc]

theorem mem_parts_of_get? {fields : List (String × Json)} {name : String} {j : Json} (h : get? fields name = some j) :
    j ∈ (obj fields).parts := by
  induction fields with
  | nil => cases h
  | cons f rest ih =>
    rw [get?_cons, Option.or_eq_some_iff, Option.ite_none_right_eq_some] at h
    rcases h with h | ⟨-, -, h⟩
    · exact List.mem_cons_of_mem _ (ih h)
    · cases h
      exact List.mem_cons_self

/-! ## Inclusion by parts -/

/-- Each part of a document is included in the part at the same place of another. -/
def Within {κ : Type} (part whole : κ → Option Json) : Prop :=
  ∀ k j, part k = some j → ∃ w, whole k = some w ∧ isSubset j w = true

theorem areFields_iff (fields whole : List (String × Json)) :
    areFields fields whole = true ↔ Within (get? fields) (get? whole) := by
  induction fields with
  | nil => simp [areFields, Within, get?]
  | cons f rest ih =>
    obtain ⟨key, j⟩ := f
    rw [areFields, Bool.and_eq_true, ih]
    constructor
    · rintro ⟨hfirst, hrest⟩ name x hx
      rw [get?_cons, Option.or_eq_some_iff, Option.ite_none_right_eq_some] at hx
      rcases hx with hx | ⟨hnone, rfl, hx⟩
      · exact hrest name x hx
      · cases hx
        rw [hnone] at hfirst
        cases hwhole : get? whole key with
        | none => simp [hwhole] at hfirst
        | some w => exact ⟨w, rfl, by simpa [hwhole] using hfirst⟩
    · intro h
      refine ⟨?_, fun name x hx => h name x (by rw [get?_cons, hx, Option.some_or])⟩
      cases hlater : get? rest key with
      | some later => rfl
      | none =>
        obtain ⟨w, hw, hsub⟩ := h key j (by rw [get?_cons, hlater, Option.none_or, if_pos rfl])
        simp [hw, hsub]

theorem areItems_iff (items whole : List Json) :
    areItems items whole = true ↔ Within (fun i : Nat => items[i]?) (fun i : Nat => whole[i]?) := by
  induction items generalizing whole with
  | nil => simp [areItems, Within]
  | cons j rest ih =>
    cases whole with
    | nil =>
      simp only [areItems, Bool.false_eq_true, false_iff]
      intro h
      obtain ⟨w, hw, -⟩ := h 0 j rfl
      cases hw
    | cons w whole =>
      rw [areItems, Bool.and_eq_true, ih]
      constructor
      · rintro ⟨hfirst, hrest⟩ i x hx
        cases i with
        | zero =>
          cases hx
          exact ⟨w, rfl, hfirst⟩
        | succ i => exact hrest i x hx
      · intro h
        obtain ⟨w', hw', hsub⟩ := h 0 j rfl
        cases hw'
        exact ⟨hsub, fun i x hx => h (i + 1) x hx⟩

/-- What is compared as a whole, numbers up to their value. -/
inductive Scalar where
  | null
  | bool (b : Bool)
  | num (key : Nat × String)
  | str (s : String)

def scalar? : Json → Option Scalar
  | .null => some .null
  | .bool b => some (.bool b)
  | .num literal => some (.num (numberKey literal))
  | .str s => some (.str s)
  | .arr _ | .obj _ => none

/-- **What inclusion is**: of objects key by key, of arrays position by position, and equality of anything else. -/
theorem isSubset_iff (a b : Json) : isSubset a b = true ↔
    (∃ fields whole, a = .obj fields ∧ b = .obj whole ∧ Within (get? fields) (get? whole)) ∨
    (∃ items whole, a = .arr items ∧ b = .arr whole ∧ Within (fun i : Nat => items[i]?) (fun i : Nat => whole[i]?)) ∨
    ∃ s, a.scalar? = some s ∧ b.scalar? = some s := by
  cases a with
  | obj fields =>
    cases b with
    | obj whole => simp [isSubset, areFields_iff, scalar?]
    | _ => simp [isSubset, scalar?]
  | arr items =>
    cases b with
    | arr whole => simp [isSubset, areItems_iff, scalar?]
    | _ => simp [isSubset, scalar?]
  | _ => cases b <;> simp [isSubset, scalar?, eq_comm]

/-! ## The laws of an order -/

theorem Within.refl {κ : Type} {part : κ → Option Json} (h : ∀ k j, part k = some j → isSubset j j = true) :
    Within part part :=
  fun k j hj => ⟨j, hj, h k j hj⟩

theorem Within.trans {κ : Type} {p q r : κ → Option Json} (hpq : Within p q) (hqr : Within q r)
    (h : ∀ k j w x, p k = some j → isSubset j w = true → isSubset w x = true → isSubset j x = true) : Within p r := by
  intro k j hj
  obtain ⟨w, hw, hjw⟩ := hpq k j hj
  obtain ⟨x, hx, hwx⟩ := hqr k w hw
  exact ⟨x, hx, h k j w x hj hjw hwx⟩

theorem isSubset_refl (a : Json) : isSubset a a = true := by
  induction a using parts_induction with
  | h a ih =>
    rw [isSubset_iff]
    cases a with
    | obj fields => exact .inl ⟨fields, fields, rfl, rfl, .refl fun _ j hj => ih j (mem_parts_of_get? hj)⟩
    | arr items => exact .inr (.inl ⟨items, items, rfl, rfl, .refl fun _ j hj => ih j (mem_parts_of_getElem? hj)⟩)
    | _ => exact .inr (.inr ⟨_, rfl, rfl⟩)

theorem isSubset_trans {a b c : Json} (hab : isSubset a b = true) (hbc : isSubset b c = true) : isSubset a c = true := by
  induction a using parts_induction generalizing b c with
  | h a ih =>
    rw [isSubset_iff] at hab hbc ⊢
    rcases hab with ⟨fields, whole, rfl, rfl, hab⟩ | ⟨items, whole, rfl, rfl, hab⟩ | ⟨s, ha, hb⟩
    · rcases hbc with ⟨_, whole', hwhole, rfl, hbc⟩ | ⟨_, _, hshape, -⟩ | ⟨_, hshape, -⟩
      · cases hwhole
        exact .inl ⟨fields, whole', rfl, rfl, hab.trans hbc fun _ j _ _ hj hjw hwx => ih j (mem_parts_of_get? hj) hjw hwx⟩
      · cases hshape
      · cases hshape
    · rcases hbc with ⟨_, _, hshape, -⟩ | ⟨_, whole', hwhole, rfl, hbc⟩ | ⟨_, hshape, -⟩
      · cases hshape
      · cases hwhole
        exact .inr (.inl ⟨items, whole', rfl, rfl,
          hab.trans hbc fun _ j _ _ hj hjw hwx => ih j (mem_parts_of_getElem? hj) hjw hwx⟩)
      · cases hshape
    · rcases hbc with ⟨_, _, rfl, -⟩ | ⟨_, _, rfl, -⟩ | ⟨s', hb', hc⟩
      · cases hb
      · cases hb
      · exact .inr (.inr ⟨s, ha, hc.trans (hb'.symm.trans hb)⟩)

/-! ## Decoded documents -/

/-- The value of a document: numbers in units of the least double, and objects as what stands under each key. -/
inductive Decoded where
  | null
  | bool (b : Bool)
  | num (amount : Int)
  | str (s : String)
  | arr (items : List Decoded)
  | obj (field : String → Option Decoded)

/-- The number that a literal writes, rounded to a double. -/
def numberAmount (literal : String) : Int :=
  ((toFloat? literal).map Binary64.amount).getD 0

mutual

def decode : Json → Decoded
  | .null => .null
  | .bool b => .bool b
  | .num literal => .num (numberAmount literal)
  | .str s => .str s
  | .arr items => .arr (decodeItems items)
  | .obj fields => .obj (decodeFields fields)

def decodeItems : List Json → List Decoded
  | [] => []
  | j :: rest => decode j :: decodeItems rest

def decodeFields : List (String × Json) → String → Option Decoded
  | [], _ => none
  | (key, j) :: rest, name => (decodeFields rest name).or (if key = name then some (decode j) else none)

end

theorem decodeItems_eq (items : List Json) : decodeItems items = items.map decode := by
  induction items with
  | nil => rfl
  | cons j rest ih => rw [decodeItems, ih, List.map_cons]

theorem decodeFields_eq (fields : List (String × Json)) (name : String) :
    decodeFields fields name = (get? fields name).map decode := by
  induction fields with
  | nil => rfl
  | cons f rest ih =>
    rw [decodeFields, ih, get?_cons, Option.map_or]
    split <;> rfl

/-- Arrays and objects have the same value exactly if they have the same values at the same places. -/
theorem decode_arr_eq_iff (items whole : List Json) :
    decode (.arr items) = decode (.arr whole) ↔ ∀ i : Nat, items[i]?.map decode = whole[i]?.map decode := by
  simp only [decode, decodeItems_eq, Decoded.arr.injEq, List.ext_getElem?_iff, List.getElem?_map]

theorem decode_obj_eq_iff (fields whole : List (String × Json)) :
    decode (.obj fields) = decode (.obj whole) ↔ ∀ name, (get? fields name).map decode = (get? whole name).map decode := by
  simp only [decode, Decoded.obj.injEq, funext_iff, decodeFields_eq]

/-! ### Numbers -/

theorem itemsInRange_eq (items : List Json) : itemsInRange items = items.all inRange := by
  induction items with
  | nil => rfl
  | cons j rest ih => rw [itemsInRange, ih, List.all_cons]

theorem fieldsInRange_eq (fields : List (String × Json)) : fieldsInRange fields = (fields.map (·.2)).all inRange := by
  induction fields with
  | nil => rfl
  | cons f rest ih => rw [fieldsInRange, ih, List.map_cons, List.all_cons]

theorem inRange_of_mem_parts {j x : Json} (h : j.inRange = true) (hx : x ∈ j.parts) : x.inRange = true := by
  cases j with
  | arr items =>
    rw [inRange, itemsInRange_eq] at h
    exact List.all_eq_true.mp h x hx
  | obj fields =>
    rw [inRange, fieldsInRange_eq] at h
    exact List.all_eq_true.mp h x hx
  | _ => cases hx

/-- Floats are the same number exactly if they have the same bits or are both zero. -/
theorem amount_eq_iff (f g : Float) : Binary64.amount f = Binary64.amount g ↔
    (if Binary64.magnitude f = 0 then 0 else f.toBits.toNat) = if Binary64.magnitude g = 0 then 0 else g.toBits.toNat := by
  have hamount : Binary64.amount f = Binary64.amount g ↔ Binary64.rank f = Binary64.rank g := by
    rw [← Binary64.unitsAt_rank, ← Binary64.unitsAt_rank]
    refine ⟨fun h => ?_, fun h => by rw [h]⟩
    rcases Int.lt_trichotomy (Binary64.rank f) (Binary64.rank g) with hlt | heq | hgt
    · exact absurd h (Binary64.unitsAt_lt_unitsAt hlt).ne
    · exact heq
    · exact absurd h (Binary64.unitsAt_lt_unitsAt hgt).ne'
  have hf : f.toBits.toNat < 2 ^ 64 := f.toBits.toNat_lt
  have hg : g.toBits.toNat < 2 ^ 64 := g.toBits.toNat_lt
  have hpow : Nat.pow 2 63 = 2 ^ 63 := rfl
  rw [hamount]
  simp only [Binary64.rank, Binary64.magnitude, Binary64.isNegative, hpow, decide_eq_true_eq]
  split <;> split <;> split <;> split <;> omega

/-- Literals in range are compared by the numbers that they write. -/
theorem numberKey_eq_iff {a b : String} (ha : (toFloat? a).isSome = true) (hb : (toFloat? b).isSome = true) :
    numberKey a = numberKey b ↔ numberAmount a = numberAmount b := by
  obtain ⟨f, hf⟩ := Option.isSome_iff_exists.mp ha
  obtain ⟨g, hg⟩ := Option.isSome_iff_exists.mp hb
  rw [numberKey, numberKey, numberAmount, numberAmount, hf, hg]
  simpa using (amount_eq_iff f g).symm

/-! ### Mutual inclusion -/

/-- Parts include each other exactly if they have the same values at the same places. -/
theorem map_decode_eq_iff {κ : Type} {p q : κ → Option Json}
    (h : ∀ k j w, p k = some j → q k = some w → (decode j = decode w ↔ isSubset j w = true ∧ isSubset w j = true)) :
    (∀ k, (p k).map decode = (q k).map decode) ↔ Within p q ∧ Within q p := by
  constructor
  · intro heq
    refine ⟨fun k j hj => ?_, fun k w hw => ?_⟩
    · have hk := heq k
      rw [hj, Option.map_some, eq_comm, Option.map_eq_some_iff] at hk
      obtain ⟨w, hw, hdecode⟩ := hk
      exact ⟨w, hw, ((h k j w hj hw).mp hdecode.symm).1⟩
    · have hk := heq k
      rw [hw, Option.map_some, Option.map_eq_some_iff] at hk
      obtain ⟨j, hj, hdecode⟩ := hk
      exact ⟨j, hj, ((h k j w hj hw).mp hdecode).2⟩
  · rintro ⟨hpq, hqp⟩ k
    cases hp : p k with
    | none =>
      cases hq : q k with
      | none => rfl
      | some w =>
        obtain ⟨j, hj, -⟩ := hqp k w hq
        cases hp.symm.trans hj
    | some j =>
      obtain ⟨w, hq, hjw⟩ := hpq k j hp
      obtain ⟨j', hj', hwj⟩ := hqp k w hq
      cases hp.symm.trans hj'
      rw [hq, Option.map_some, Option.map_some, (h k j w hp hq).mpr ⟨hjw, hwj⟩]

/-- Documents have the same value exactly if each includes the other. -/
theorem decode_eq_iff {a b : Json} (ha : a.inRange = true) (hb : b.inRange = true) :
    decode a = decode b ↔ isSubset a b = true ∧ isSubset b a = true := by
  induction a using parts_induction generalizing b with
  | h a ih =>
    cases a with
    | obj fields =>
      cases b with
      | obj whole =>
        rw [decode_obj_eq_iff, isSubset, isSubset, areFields_iff, areFields_iff]
        refine map_decode_eq_iff fun _ j w hj hw => ?_
        have hj := mem_parts_of_get? hj
        exact ih j hj (inRange_of_mem_parts ha hj) (inRange_of_mem_parts hb (mem_parts_of_get? hw))
      | _ => simp [decode, isSubset]
    | arr items =>
      cases b with
      | arr whole =>
        rw [decode_arr_eq_iff, isSubset, isSubset, areItems_iff, areItems_iff]
        refine map_decode_eq_iff fun _ j w hj hw => ?_
        have hj := mem_parts_of_getElem? hj
        exact ih j hj (inRange_of_mem_parts ha hj) (inRange_of_mem_parts hb (mem_parts_of_getElem? hw))
      | _ => simp [decode, isSubset]
    | num literal =>
      cases b with
      | num other =>
        rw [decode, decode, Decoded.num.injEq, ← numberKey_eq_iff ha hb, isSubset, isSubset, decide_eq_true_eq,
          decide_eq_true_eq, eq_comm (a := numberKey other), and_self]
      | _ => simp [decode, isSubset]
    | _ => cases b <;> simp [decode, isSubset, eq_comm]

/-! ## Growth -/

/-- Somewhere in the document an object gets a new key, or an array gets further items. -/
inductive Grows : Json → Json → Prop
  | key {before after : List (String × Json)} {name : String} (j : Json) :
    get? (before ++ after) name = none → Grows (.obj (before ++ after)) (.obj (before ++ (name, j) :: after))
  | items (items more : List Json) : Grows (.arr items) (.arr (items ++ more))
  | inField {j j' : Json} (before : List (String × Json)) (name : String) (after : List (String × Json)) :
    Grows j j' → Grows (.obj (before ++ (name, j) :: after)) (.obj (before ++ (name, j') :: after))
  | inItem {j j' : Json} (before after : List Json) :
    Grows j j' → Grows (.arr (before ++ j :: after)) (.arr (before ++ j' :: after))

theorem Within.of_extends {κ : Type} {p q : κ → Option Json} (h : ∀ k j, p k = some j → q k = some j) : Within p q :=
  fun k j hj => ⟨j, h k j hj, isSubset_refl j⟩

/-- One part was replaced by one that includes it. -/
theorem Within.of_replaced {κ : Type} {p q : κ → Option Json} {j j' : Json} (hj : isSubset j j' = true)
    (h : ∀ k, q k = p k ∨ p k = some j ∧ q k = some j') : Within p q := by
  intro k x hx
  rcases h k with heq | ⟨hold, hnew⟩
  · exact ⟨x, heq.trans hx, isSubset_refl x⟩
  · cases hold.symm.trans hx
    exact ⟨j', hnew, hj⟩

theorem get?_replace (before after : List (String × Json)) (name : String) (j j' : Json) (k : String) :
    get? (before ++ (name, j') :: after) k = get? (before ++ (name, j) :: after) k ∨
    get? (before ++ (name, j) :: after) k = some j ∧ get? (before ++ (name, j') :: after) k = some j' := by
  simp only [get?_append, get?_cons]
  cases get? after k with
  | some later => exact .inl rfl
  | none =>
    by_cases hk : name = k
    · simp [hk]
    · simp [hk]

theorem getElem?_replace (before after : List Json) (j j' : Json) (i : Nat) :
    (before ++ j' :: after)[i]? = (before ++ j :: after)[i]? ∨
    (before ++ j :: after)[i]? = some j ∧ (before ++ j' :: after)[i]? = some j' := by
  rcases Nat.lt_trichotomy i before.length with hlt | rfl | hgt
  · left
    rw [List.getElem?_append_left hlt, List.getElem?_append_left hlt]
  · right
    simp
  · left
    obtain ⟨n, hn⟩ := Nat.exists_eq_add_of_lt hgt
    have hoffset : i - before.length = n + 1 := by omega
    rw [List.getElem?_append_right hgt.le, List.getElem?_append_right hgt.le, hoffset, List.getElem?_cons_succ,
      List.getElem?_cons_succ]

/-- What a document was before it grew is included in it. -/
theorem isSubset_of_grows {b b' : Json} (h : Grows b b') : isSubset b b' = true := by
  induction h with
  | @key before after name j hnew =>
    rw [isSubset, areFields_iff]
    refine .of_extends fun k x hx => ?_
    have hk : name ≠ k := by
      rintro rfl
      cases hnew.symm.trans hx
    rw [get?_append, get?_cons, if_neg hk, Option.or_none, ← get?_append, hx]
  | items items more =>
    rw [isSubset, areItems_iff]
    refine .of_extends fun i x hx => ?_
    rw [List.getElem?_append_left (List.getElem?_eq_some_iff.mp hx).1, hx]
  | @inField j j' before name after _ ih =>
    rw [isSubset, areFields_iff]
    exact .of_replaced ih (get?_replace before after name j j')
  | @inItem j j' before after _ ih =>
    rw [isSubset, areItems_iff]
    exact .of_replaced ih (getElem?_replace before after j j')

/-- **Inclusion is a partial order on the values of documents.** Every document includes itself, and what is included in a
document is included in every document that includes that one. Documents in range include each other exactly if they have the
same value. A document keeps what is included in it when somewhere in it an object gets a new key or an array further items. -/
theorem isSubset_partial_order :
    (∀ a : Json, isSubset a a = true) ∧
    (∀ a b c : Json, isSubset a b = true → isSubset b c = true → isSubset a c = true) ∧
    (∀ a b : Json, a.inRange = true → b.inRange = true →
      (isSubset a b = true ∧ isSubset b a = true ↔ decode a = decode b)) ∧
    ∀ a b b' : Json, isSubset a b = true → Grows b b' → isSubset a b' = true :=
  ⟨isSubset_refl, fun _ _ _ => isSubset_trans, fun _ _ ha hb => (decode_eq_iff ha hb).symm,
    fun _ _ _ hab hgrows => isSubset_trans hab (isSubset_of_grows hgrows)⟩

/-- A document with a number and an array of one number. -/
def sparse : Json :=
  .obj [("at", .num "0"), ("of", .arr [.num "1"])]

/-- The same fields in another order, with other literals of the same numbers. -/
def respelled : Json :=
  .obj [("of", .arr [.num "1e0"]), ("at", .num "-0.0")]

/-- A further item in the array. -/
def grown : Json :=
  .obj [("of", .arr [.num "1e0", .null]), ("at", .num "-0.0")]

/-- The two spellings have the same value, also where a zero has a sign. The grown document includes both and is not included
in them. -/
theorem isSubset_partial_order_respelled :
    decode sparse = decode respelled ∧ Grows respelled grown ∧ isSubset sparse grown = true ∧ isSubset grown sparse = false := by
  have hincludes : isSubset sparse respelled = true ∧ isSubset respelled sparse = true := by decide +kernel
  have hgrows : Grows respelled grown := .inField [] "of" _ (.items [.num "1e0"] [.null])
  obtain ⟨-, -, hequal, hgrowth⟩ := isSubset_partial_order
  exact ⟨(hequal sparse respelled (by decide +kernel) (by decide +kernel)).mp hincludes, hgrows,
    hgrowth sparse respelled grown hincludes.1 hgrows, by decide +kernel⟩

end FormLang.Json
