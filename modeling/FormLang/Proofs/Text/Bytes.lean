import Mathlib.Data.List.Basic
import FormLang.Text.Bytes

/-!
# Texts and their bytes

Stand-ins are put together to a character exactly where their bytes are its encoding (`encoding_of_joined?`, `joined?_encoding`).
So the text of a sequence of bytes has these bytes (`bytes_ofBytes`), and holding a text anew keeps its bytes (`bytes_hold`).
-/

namespace FormLang.Text

/-! ## Bytes of a character -/

theorem toNat_lt_of_char (c : Char) : c.toNat < 0x110000 := by
  rcases c.valid with h | h
  · exact Nat.lt_trans h (by decide)
  · exact h.2

/-- A number that is no code point stands for the null character. -/
theorem toNat_ofNat (n : Nat) : (Char.ofNat n).toNat = if n.isValidChar then n else 0 := by
  have hdef : Char.ofNat n = if hv : n.isValidChar then Char.ofNatAux n hv else '\x00' := rfl
  by_cases hv : n.isValidChar
  · rw [if_pos hv, hdef, dif_pos hv]
    rfl
  · rw [if_neg hv, hdef, dif_neg hv]
    rfl

theorem toNat_standIn (b : UInt8) : (standIn b).toNat = 0x10FF00 + b.toNat := by
  have hb : b.toNat < 256 := b.toNat_lt
  rw [standIn, toNat_ofNat, if_pos (.inr ⟨by omega, by omega⟩)]

theorem isStandIn_standIn {b : UInt8} (h : 128 ≤ b.toNat) : isStandIn (standIn b) = true := by
  rw [isStandIn, toNat_standIn, decide_eq_true_eq]
  omega

theorem charBytes_standIn {b : UInt8} (h : 128 ≤ b.toNat) : charBytes (standIn b) = [b] := by
  rw [charBytes, if_pos (isStandIn_standIn h), toNat_standIn, Nat.add_sub_cancel_left, UInt8.ofNat_toNat]

theorem isStandIn_of_lt {c : Char} (h : c.toNat < 128) : isStandIn c = false := by
  rw [isStandIn, decide_eq_false_iff_not]
  omega

theorem utf8EncodeChar_of_lt {c : Char} (h : c.toNat < 128) : String.utf8EncodeChar c = [UInt8.ofNat c.toNat] := by
  have hv : c.val.toNat ≤ 127 := Nat.le_of_lt_succ h
  rw [String.utf8EncodeChar, if_pos hv]
  rfl

theorem charBytes_of_lt {c : Char} (h : c.toNat < 128) : charBytes c = [UInt8.ofNat c.toNat] := by
  rw [charBytes, isStandIn_of_lt h, if_neg Bool.false_ne_true, utf8EncodeChar_of_lt h]

theorem holdByte_of_lt {b : UInt8} (h : b.toNat < 128) : holdByte b = Char.ofNat b.toNat :=
  if_pos (UInt8.lt_iff_toNat_lt.mpr h)

theorem holdByte_of_le {b : UInt8} (h : 128 ≤ b.toNat) : holdByte b = standIn b :=
  if_neg fun hlt => Nat.not_lt_of_le h (UInt8.lt_iff_toNat_lt.mp hlt)

theorem charBytes_holdByte (b : UInt8) : charBytes (holdByte b) = [b] := by
  by_cases hb : b.toNat < 128
  · have hchar : (Char.ofNat b.toNat).toNat = b.toNat := by rw [toNat_ofNat, if_pos (.inl (by omega))]
    rw [holdByte_of_lt hb, charBytes_of_lt (by rwa [hchar]), hchar, UInt8.ofNat_toNat]
  · have hle : 128 ≤ b.toNat := Nat.le_of_not_lt hb
    rw [holdByte_of_le hle, charBytes_standIn hle]

/-- An encoding of several bytes has none below 128. -/
theorem le_of_mem_utf8EncodeChar {c : Char} (h : 128 ≤ c.toNat) {b : UInt8} (hb : b ∈ String.utf8EncodeChar c) :
    128 ≤ b.toNat := by
  have hv : ¬ c.val.toNat ≤ 127 := Nat.not_le_of_lt h
  have hbyte (n : Nat) (hlow : 128 ≤ n) (hhigh : n < 256) : 128 ≤ (UInt8.ofNat n).toNat := by
    rwa [UInt8.toNat_ofNat_of_lt' hhigh]
  rw [String.utf8EncodeChar, if_neg hv] at hb
  split at hb
  · simp only [List.mem_cons, List.not_mem_nil, or_false] at hb
    rcases hb with rfl | rfl <;> exact hbyte _ (by omega) (by omega)
  · split at hb
    · simp only [List.mem_cons, List.not_mem_nil, or_false] at hb
      rcases hb with rfl | rfl | rfl <;> exact hbyte _ (by omega) (by omega)
    · simp only [List.mem_cons, List.not_mem_nil, or_false] at hb
      rcases hb with rfl | rfl | rfl | rfl <;> exact hbyte _ (by omega) (by omega)

theorem le_of_mem_charBytes {c : Char} (h : 128 ≤ c.toNat) {b : UInt8} (hb : b ∈ charBytes c) : 128 ≤ b.toNat := by
  rw [charBytes] at hb
  split at hb
  · rename_i hstand
    have hlow : 0x10FF80 ≤ c.toNat := of_decide_eq_true hstand
    have hhigh := toNat_lt_of_char c
    have hbyte : c.toNat - 0x10FF00 < 256 := by omega
    rw [List.mem_singleton.mp hb, UInt8.toNat_ofNat_of_lt' hbyte]
    omega
  · exact le_of_mem_utf8EncodeChar h hb

theorem charBytes_ne_nil (c : Char) : charBytes c ≠ [] := by
  rw [charBytes]
  split
  · exact List.cons_ne_nil _ _
  · exact String.utf8EncodeChar_ne_nil

/-- However a character is held, its bytes are those of its encoding. -/
theorem flatMap_charBytes_holdChar (c : Char) : (holdChar c).flatMap charBytes = String.utf8EncodeChar c := by
  rw [holdChar]
  split
  · rename_i hstand
    have hlow : 0x10FF80 ≤ c.toNat := of_decide_eq_true hstand
    rw [List.flatMap_map]
    have hself : ∀ b ∈ String.utf8EncodeChar c, charBytes (standIn b) = [b] :=
      fun b hb => charBytes_standIn (le_of_mem_utf8EncodeChar (Nat.le_trans (by decide) hlow) hb)
    rw [List.flatMap_congr hself, List.flatMap_singleton']
  · rename_i hstand
    rw [List.flatMap_singleton, charBytes, if_neg hstand]

/-! ## Encodings -/

/-- The first byte of an encoding gives the number of its bytes. -/
theorem length_utf8EncodeChar_of_head (c : Char) :
    (String.utf8EncodeChar c).length =
      if ((String.utf8EncodeChar c).headD 0).toNat < 128 then 1
      else if ((String.utf8EncodeChar c).headD 0).toNat < 224 then 2
      else if ((String.utf8EncodeChar c).headD 0).toNat < 240 then 3 else 4 := by
  have hbyte {n : Nat} (hn : n < 256) : (UInt8.ofNat n).toNat = n := UInt8.toNat_ofNat_of_lt' hn
  rw [String.utf8EncodeChar]
  by_cases h₁ : c.val.toNat ≤ 127
  · rw [if_pos h₁, List.headD_cons, hbyte (by omega), if_pos (by omega)]
    rfl
  rw [if_neg h₁]
  by_cases h₂ : c.val.toNat ≤ 2047
  · rw [if_pos h₂, List.headD_cons, hbyte (by omega), if_neg (by omega), if_pos (by omega)]
    rfl
  rw [if_neg h₂]
  by_cases h₃ : c.val.toNat ≤ 65535
  · rw [if_pos h₃, List.headD_cons, hbyte (by omega), if_neg (by omega), if_neg (by omega), if_pos (by omega)]
    rfl
  · rw [if_neg h₃, List.headD_cons, hbyte (by omega), if_neg (by omega), if_neg (by omega), if_neg (by omega)]
    rfl

/-- An encoding of several bytes is read as its character. -/
theorem ofEncoding?_utf8EncodeChar {c : Char} (h : 128 ≤ c.toNat) : ofEncoding? (String.utf8EncodeChar c) = some c := by
  have hbyte {n : Nat} (hn : n < 256) : (UInt8.ofNat n).toNat = n := UInt8.toNat_ofNat_of_lt' hn
  have hlast := toNat_lt_of_char c
  have hval : c.val.toNat = c.toNat := rfl
  have hvalue : (String.utf8EncodeChar c).tail.foldl (fun n b => n * 64 + b.toNat % 64)
      (((String.utf8EncodeChar c).headD 0).toNat % Nat.pow 2 (7 - (String.utf8EncodeChar c).length)) = c.toNat := by
    rw [String.utf8EncodeChar, hval, if_neg (by omega)]
    by_cases h₂ : c.toNat ≤ 2047
    · have hpow : Nat.pow 2 (7 - 2) = 32 := rfl
      rw [if_pos h₂]
      simp only [List.headD_cons, List.tail_cons, List.foldl_cons, List.foldl_nil, List.length_cons, List.length_nil,
        Nat.zero_add, Nat.reduceAdd, hpow, hbyte (show c.toNat / 64 % 32 + 192 < 256 by omega),
        hbyte (show c.toNat % 64 + 128 < 256 by omega)]
      omega
    rw [if_neg h₂]
    by_cases h₃ : c.toNat ≤ 65535
    · have hpow : Nat.pow 2 (7 - 3) = 16 := rfl
      rw [if_pos h₃]
      simp only [List.headD_cons, List.tail_cons, List.foldl_cons, List.foldl_nil, List.length_cons, List.length_nil,
        Nat.zero_add, Nat.reduceAdd, hpow, hbyte (show c.toNat / 4096 % 16 + 224 < 256 by omega),
        hbyte (show c.toNat / 64 % 64 + 128 < 256 by omega), hbyte (show c.toNat % 64 + 128 < 256 by omega)]
      omega
    · have hpow : Nat.pow 2 (7 - 4) = 8 := rfl
      rw [if_neg h₃]
      simp only [List.headD_cons, List.tail_cons, List.foldl_cons, List.foldl_nil, List.length_cons, List.length_nil,
        Nat.zero_add, Nat.reduceAdd, hpow, hbyte (show c.toNat / 262144 % 8 + 240 < 256 by omega),
        hbyte (show c.toNat / 4096 % 64 + 128 < 256 by omega), hbyte (show c.toNat / 64 % 64 + 128 < 256 by omega),
        hbyte (show c.toNat % 64 + 128 < 256 by omega)]
      omega
  simp only [ofEncoding?, hvalue, Char.ofNat_toNat, if_true]

/-- The beginning of an encoding is no encoding. -/
theorem ofEncoding?_take {c : Char} {k : Nat} (hpos : 0 < k) (hk : k < (String.utf8EncodeChar c).length) :
    ofEncoding? ((String.utf8EncodeChar c).take k) = none := by
  cases hd : ofEncoding? ((String.utf8EncodeChar c).take k) with
  | none => rfl
  | some d =>
    rw [ofEncoding?, Option.ite_none_right_eq_some] at hd
    obtain ⟨hencoding, heq⟩ := hd
    rw [Option.some.inj heq] at hencoding
    -- Both encodings have the same first byte, and so the same length.
    have hhead : (String.utf8EncodeChar d).headD 0 = (String.utf8EncodeChar c).headD 0 := by
      obtain ⟨n, rfl⟩ := Nat.exists_eq_succ_of_ne_zero (Nat.ne_of_gt hpos)
      rw [hencoding]
      cases String.utf8EncodeChar c <;> rfl
    have hlength := length_utf8EncodeChar_of_head d
    rw [hhead, ← length_utf8EncodeChar_of_head c, hencoding, List.length_take] at hlength
    omega

theorem leadingBytes?_map_standIn {bs : List UInt8} (hbs : ∀ b ∈ bs, 128 ≤ b.toNat) {k : Nat} (hk : k ≤ bs.length)
    (rest : List Char) : leadingBytes? k (bs.map standIn ++ rest) = some (bs.take k) := by
  have hfirst : (bs.map standIn ++ rest).take k = (bs.take k).map standIn := by
    rw [List.take_append_of_le_length (by rwa [List.length_map]), List.map_take]
  have hlow : ∀ b ∈ bs.take k, 128 ≤ b.toNat := fun b hb => hbs b (List.mem_of_mem_take hb)
  have hall : ((bs.take k).map standIn).all isStandIn = true := by
    rw [List.all_map, List.all_eq_true]
    exact fun b hb => isStandIn_standIn (hlow b hb)
  have hbytes : ((bs.take k).map standIn).flatMap charBytes = bs.take k := by
    rw [List.flatMap_map]
    exact (List.flatMap_congr fun b hb => charBytes_standIn (hlow b hb)).trans (List.flatMap_singleton' _)
  have hlength : ((bs.take k).map standIn).length = k := by
    rw [List.length_map, List.length_take, Nat.min_eq_left hk]
  simp only [leadingBytes?, hfirst, hall, hbytes, hlength, decide_true, Bool.and_self, if_true]

/-- The stand-ins of an encoding are put together to its character. -/
theorem joined?_encoding {c : Char} (h : 128 ≤ c.toNat) (rest : List Char) :
    joined? ((String.utf8EncodeChar c).map standIn ++ rest) = some (c, (String.utf8EncodeChar c).length - 1) := by
  have hlow : ∀ b ∈ String.utf8EncodeChar c, 128 ≤ b.toNat := fun b hb => le_of_mem_utf8EncodeChar h hb
  have hlead {k : Nat} (hk : k ≤ (String.utf8EncodeChar c).length) :
      leadingBytes? k ((String.utf8EncodeChar c).map standIn ++ rest) = some ((String.utf8EncodeChar c).take k) :=
    leadingBytes?_map_standIn hlow hk rest
  have hwhole {k : Nat} (hk : (String.utf8EncodeChar c).length = k) :
      ((leadingBytes? k ((String.utf8EncodeChar c).map standIn ++ rest)).bind ofEncoding?).map (fun d => (d, k - 1)) =
        some (c, k - 1) := by
    rw [hlead (Nat.le_of_eq hk.symm), Option.bind_some, ← hk, List.take_length, ofEncoding?_utf8EncodeChar h]
    rfl
  have hpart {k : Nat} (hpos : 0 < k) (hk : k < (String.utf8EncodeChar c).length) :
      ((leadingBytes? k ((String.utf8EncodeChar c).map standIn ++ rest)).bind ofEncoding?).map (fun d => (d, k - 1)) =
        none := by
    rw [hlead (Nat.le_of_lt hk), Option.bind_some, ofEncoding?_take hpos hk]
    rfl
  have hhead : ¬ ((String.utf8EncodeChar c).headD 0).toNat < 128 := by
    obtain ⟨b, bs, hbs⟩ := List.exists_cons_of_ne_nil String.utf8EncodeChar_ne_nil
    rw [hbs]
    exact Nat.not_lt_of_le (hlow b (hbs ▸ List.mem_cons_self))
  have hlength := length_utf8EncodeChar_of_head c
  rw [if_neg hhead] at hlength
  rw [joined?]
  split at hlength
  · rw [List.findSome?_cons, hwhole hlength, hlength]
  · split at hlength
    · rw [List.findSome?_cons, hpart (by decide) (by omega), List.findSome?_cons, hwhole hlength, hlength]
    · rw [List.findSome?_cons, hpart (by decide) (by omega), List.findSome?_cons, hpart (by decide) (by omega),
        List.findSome?_cons, hwhole hlength, hlength]

/-! ## Bytes of a text -/

theorem bytes_append (s t : String) : bytes (s ++ t) = bytes s ++ bytes t := by
  rw [bytes, String.toList_append, List.flatMap_append, bytes, bytes]

theorem bytes_ofList (cs : List Char) : bytes (String.ofList cs) = cs.flatMap charBytes := by
  rw [bytes, String.toList_ofList]

/-- Stand-ins are put together to the character whose encoding their bytes are. -/
theorem encoding_of_joined? {cs : List Char} {d : Char} {n : Nat} (h : joined? cs = some (d, n)) :
    (∀ c ∈ cs.take (n + 1), isStandIn c = true) ∧ (cs.take (n + 1)).flatMap charBytes = String.utf8EncodeChar d := by
  obtain ⟨k, hk, hfound⟩ := List.exists_of_findSome?_eq_some h
  obtain ⟨c, hc, hpair⟩ := Option.map_eq_some_iff.mp hfound
  obtain ⟨bs, hbs, hchar⟩ := Option.bind_eq_some_iff.mp hc
  obtain ⟨rfl, rfl⟩ := Prod.mk.inj hpair
  have hpos : 0 < k := by
    simp only [List.mem_cons, List.not_mem_nil, or_false] at hk
    omega
  rw [Nat.sub_add_cancel hpos]
  rw [leadingBytes?, Option.ite_none_right_eq_some, Bool.and_eq_true] at hbs
  obtain ⟨⟨-, hall⟩, hflat⟩ := hbs
  rw [ofEncoding?, Option.ite_none_right_eq_some] at hchar
  obtain ⟨hencoding, heq⟩ := hchar
  refine ⟨fun x hx => List.all_eq_true.mp hall x hx, ?_⟩
  rw [Option.some.inj hflat, ← hencoding, Option.some.inj heq]

/-- Replacing stand-ins by the characters that they encode keeps the bytes. -/
theorem flatMap_charBytes_settleFrom (skip : Nat) (done cs : List Char) :
    (settleFrom holdChar (fun c => [c]) skip done cs).flatMap charBytes =
      done.reverse.flatMap charBytes ++ (cs.drop skip).flatMap charBytes := by
  induction cs generalizing skip done with
  | nil => rw [settleFrom, List.drop_nil, List.flatMap_nil, List.append_nil]
  | cons c cs ih =>
    have hplain : (c :: done).reverse.flatMap charBytes ++ cs.flatMap charBytes =
        done.reverse.flatMap charBytes ++ (c :: cs).flatMap charBytes := by
      rw [List.reverse_cons, List.flatMap_append, List.flatMap_singleton, List.flatMap_cons, List.append_assoc]
    cases skip with
    | succ n => exact ih n done
    | zero =>
      rw [settleFrom, List.drop_zero]
      split
      · rw [ih, List.drop_zero]
        exact hplain
      · split
        · rename_i d n hjoined
          have hsplit : (c :: cs).flatMap charBytes = String.utf8EncodeChar d ++ (cs.drop n).flatMap charBytes := by
            rw [← (encoding_of_joined? hjoined).2, ← List.flatMap_append]
            exact congrArg _ (List.take_append_drop (n + 1) (c :: cs)).symm
          rw [ih, List.reverse_append, List.reverse_reverse, List.flatMap_append, flatMap_charBytes_holdChar, hsplit,
            List.append_assoc]
        · rw [ih, List.drop_zero]
          exact hplain

theorem bytes_ofBytes (bs : List UInt8) : bytes (ofBytes bs) = bs := by
  have hbyte : ∀ b ∈ bs, (charBytes ∘ holdByte) b = [b] := fun b _ => charBytes_holdByte b
  rw [ofBytes, bytes_ofList, flatMap_charBytes_settleFrom, List.drop_zero, List.flatMap_map]
  exact (List.flatMap_congr hbyte).trans (List.flatMap_singleton' bs)

theorem bytes_hold (text : String) : bytes (hold text) = bytes text := by
  rw [hold, bytes_ofBytes]

end FormLang.Text
