import FormLang.Proofs.Text.Bytes
import FormLang.Text.Case
import FormLang.Text.Replace

/-!
# Held texts

Of all texts with the same bytes one is held (`Held.eq_of_bytes_eq`), so that texts which are held are equal exactly if their
bytes are. A string of characters is held as it comes in (`held_ofUnicode`). Text in upper case comes from such a string
(`held_append_upper`), and where something is erased or replaced the result is held anew.
-/

namespace FormLang.Text

/-- The text is held as its bytes are. -/
def Held (text : String) : Prop :=
  hold text = text

theorem held_hold (text : String) : Held (hold text) := by
  rw [Held, hold, bytes_hold, ← hold]

/-- **Each text is held in one way.** -/
theorem Held.eq_of_bytes_eq {s t : String} (hs : Held s) (ht : Held t) (h : bytes s = bytes t) : s = t := by
  rw [← hs, ← ht, hold, hold, h]

theorem held_erase (c : Char) (text : String) : Held (erase c text) :=
  held_hold _

theorem held_replaceFirst {text : String} (h : Held text) (word fill : String) : Held (replaceFirst word fill text) := by
  rw [replaceFirst]
  split
  · exact held_hold _
  · exact h

/-! ## Strings of characters -/

theorem settleFrom_of_skip (join stray : Char → List Char) (skip : Nat) (done cs : List Char) :
    settleFrom join stray skip done cs = settleFrom join stray 0 done (cs.drop skip) := by
  induction cs generalizing skip with
  | nil => rw [List.drop_nil, settleFrom, settleFrom]
  | cons c cs ih =>
    cases skip with
    | zero => rfl
    | succ n => exact ih n

/-- The bytes of a character are settled as the character is held. -/
theorem settleFrom_encoding (stray : Char → List Char) (done : List Char) (c : Char) (rest : List Char) :
    settleFrom holdChar stray 0 done ((String.utf8EncodeChar c).map holdByte ++ rest) =
      settleFrom holdChar stray 0 ((holdChar c).reverse ++ done) rest := by
  by_cases hc : c.toNat < 128
  · have hstand := isStandIn_of_lt hc
    have hbyte : (UInt8.ofNat c.toNat).toNat = c.toNat := UInt8.toNat_ofNat_of_lt' (Nat.lt_trans hc (by decide))
    have hbytes : (String.utf8EncodeChar c).map holdByte = [c] := by
      rw [utf8EncodeChar_of_lt hc, List.map_singleton, holdByte_of_lt (by rwa [hbyte]), hbyte, Char.ofNat_toNat]
    have hhold : holdChar c = [c] := by rw [holdChar, hstand, if_neg Bool.false_ne_true]
    rw [hbytes, hhold, List.singleton_append, settleFrom, hstand]
    rfl
  · have hlow : 128 ≤ c.toNat := Nat.le_of_not_lt hc
    have hmap : (String.utf8EncodeChar c).map holdByte = (String.utf8EncodeChar c).map standIn :=
      List.map_congr_left fun b hb => holdByte_of_le (le_of_mem_utf8EncodeChar hlow hb)
    obtain ⟨b, bs, hbs⟩ := List.exists_cons_of_ne_nil String.utf8EncodeChar_ne_nil
    have hb : 128 ≤ b.toNat := le_of_mem_utf8EncodeChar hlow (hbs ▸ List.mem_cons_self)
    have hjoined := joined?_encoding hlow rest
    rw [hmap]
    rw [hbs, List.map_cons, List.cons_append] at hjoined ⊢
    rw [settleFrom, isStandIn_standIn hb, Bool.not_true, if_neg Bool.false_ne_true, hjoined]
    simp only [List.length_cons, Nat.add_sub_cancel]
    rw [settleFrom_of_skip, List.drop_left' (by rw [List.length_map])]

theorem settleFrom_encodings (stray : Char → List Char) (done cs : List Char) :
    settleFrom holdChar stray 0 done ((cs.flatMap String.utf8EncodeChar).map holdByte) =
      done.reverse ++ cs.flatMap holdChar := by
  induction cs generalizing done with
  | nil => rw [List.flatMap_nil, List.map_nil, settleFrom, List.flatMap_nil, List.append_nil]
  | cons c cs ih =>
    rw [List.flatMap_cons, List.map_append, settleFrom_encoding, ih, List.reverse_append, List.reverse_reverse,
      List.flatMap_cons, List.append_assoc]

theorem bytes_ofUnicode (s : String) : bytes (ofUnicode s) = s.toList.flatMap String.utf8EncodeChar := by
  rw [ofUnicode, bytes_ofList, List.flatMap_assoc]
  exact List.flatMap_congr fun c _ => flatMap_charBytes_holdChar c

/-- The texts of strings of characters are held. -/
theorem held_ofUnicode (s : String) : Held (ofUnicode s) := by
  rw [Held, hold, bytes_ofUnicode, ofBytes, settleFrom_encodings]
  rfl

theorem ofUnicode_append (s t : String) : ofUnicode (s ++ t) = ofUnicode s ++ ofUnicode t := by
  rw [ofUnicode, String.toList_append, List.flatMap_append, String.ofList_append, ofUnicode, ofUnicode]

/-- Where stray bytes are replaced, characters are left. -/
theorem exists_settleFrom_replacement (skip : Nat) (done cs : List Char) :
    ∃ us : List Char, settleFrom holdChar (fun _ => [replacement]) skip done cs = done.reverse ++ us.flatMap holdChar := by
  induction cs generalizing skip done with
  | nil => exact ⟨[], by rw [settleFrom, List.flatMap_nil, List.append_nil]⟩
  | cons c cs ih =>
    -- One more character is done, and it stands in front of those that the rest leaves.
    have hstep (d : Char) (n : Nat) : ∃ us : List Char, settleFrom holdChar (fun _ => [replacement]) n
        ((holdChar d).reverse ++ done) cs = done.reverse ++ us.flatMap holdChar := by
      obtain ⟨us, hus⟩ := ih n ((holdChar d).reverse ++ done)
      refine ⟨d :: us, ?_⟩
      rw [hus, List.reverse_append, List.reverse_reverse, List.flatMap_cons, List.append_assoc]
    cases skip with
    | succ n => exact ih n done
    | zero =>
      rw [settleFrom]
      split
      · rename_i hstand
        have hhold : holdChar c = [c] := if_neg (Bool.not_eq_true _ ▸ (Bool.not_eq_true' _).mp hstand)
        have hplain := hstep c 0
        rwa [hhold] at hplain
      · split
        · exact hstep _ _
        · exact hstep replacement 0

theorem exists_repair (text : String) : ∃ u : String, repair text = ofUnicode u := by
  obtain ⟨us, hus⟩ := exists_settleFrom_replacement 0 [] text.toList
  refine ⟨String.ofList us, ?_⟩
  rw [repair, hus, ofUnicode, String.toList_ofList]
  rfl

/-! ## Upper case -/

theorem toNat_ofNat_le (n : Nat) : (Char.ofNat n).toNat ≤ n := by
  rw [toNat_ofNat]
  split
  · exact Nat.le_refl n
  · exact Nat.zero_le n

/-- The runs of letters begin and end below the stand-ins. -/
theorem last_lt_of_mem_upperRuns : ∀ r ∈ upperRuns, r.last < 0x10FF80 ∧ r.last + r.shift < 0x10FF80 := by
  have hall : upperRuns.all (fun r => decide (r.last < 0x10FF80 ∧ r.last + r.shift < 0x10FF80)) = true := by decide
  exact fun r hr => of_decide_eq_true (List.all_eq_true.mp hall r hr)

theorem le_last_of_holds {r : CaseRun} {n : Nat} (h : r.holds n = true) : n ≤ r.last := by
  simp only [CaseRun.holds, Bool.and_eq_true, decide_eq_true_eq] at h
  exact h.1.2

theorem upperChar_of_isStandIn {c : Char} (h : isStandIn c = true) : upperChar c = c := by
  have hlow : 0x10FF80 ≤ c.toNat := of_decide_eq_true h
  have hletter : ¬ (decide ('a' ≤ c) && decide (c ≤ 'z')) = true := by
    rw [Bool.and_eq_true, decide_eq_true_eq, decide_eq_true_eq]
    rintro ⟨-, hz⟩
    have hz : c.toNat ≤ 122 := hz
    omega
  have hnone : upperRuns.find? (·.holds c.toNat) = none := by
    rw [List.find?_eq_none]
    intro r hr hholds
    have hlast := (last_lt_of_mem_upperRuns r hr).1
    have hle := le_last_of_holds hholds
    omega
  rw [upperChar, if_neg hletter, if_neg (by omega), shiftCase, hnone]

theorem isStandIn_upperChar {c : Char} (h : isStandIn c = false) : isStandIn (upperChar c) = false := by
  rw [isStandIn, decide_eq_false_iff_not] at h ⊢
  rw [upperChar]
  split
  · have hle := toNat_ofNat_le (c.toNat - 32)
    omega
  · split
    · exact h
    · rw [shiftCase]
      split
      · rename_i r hfind
        have hlast := (last_lt_of_mem_upperRuns r (List.mem_of_find?_eq_some hfind)).2
        have hholds := List.find?_some hfind
        have hle := le_last_of_holds hholds
        have hchar := toNat_ofNat_le (c.toNat + r.shift).toNat
        omega
      · exact h

/-- Characters are put in upper case as they are held. -/
theorem map_upperChar_holdChar (c : Char) : (holdChar c).map upperChar = holdChar (upperChar c) := by
  cases hstand : isStandIn c with
  | false => rw [holdChar, holdChar, hstand, isStandIn_upperChar hstand, if_neg Bool.false_ne_true, List.map_singleton,
      if_neg Bool.false_ne_true]
  | true =>
    have hlow : 0x10FF80 ≤ c.toNat := of_decide_eq_true hstand
    have hself : ∀ b ∈ String.utf8EncodeChar c, (upperChar ∘ standIn) b = standIn b := fun b hb =>
      upperChar_of_isStandIn (isStandIn_standIn (le_of_mem_utf8EncodeChar (Nat.le_trans (by decide) hlow) hb))
    rw [upperChar_of_isStandIn hstand, holdChar, if_pos hstand, List.map_map, List.map_congr_left hself]

theorem exists_upper (text : String) : ∃ u : String, upper text = ofUnicode u := by
  obtain ⟨u, hu⟩ := exists_repair text
  refine ⟨String.ofList (u.toList.map upperChar), ?_⟩
  rw [upper, hu, ofUnicode, ofUnicode, String.toList_ofList, String.toList_ofList, List.map_flatMap, List.flatMap_map]
  exact congrArg String.ofList (List.flatMap_congr fun c _ => map_upperChar_holdChar c)

/-- What is written in front of a text in upper case is held with it. -/
theorem held_append_upper {front : String} (h : ofUnicode front = front) (text : String) : Held (front ++ upper text) := by
  obtain ⟨u, hu⟩ := exists_upper text
  rw [hu, ← h, ← ofUnicode_append]
  exact held_ofUnicode _

end FormLang.Text
