import FormLang.Proofs.Text.Bytes
import FormLang.Proofs.Text.Occurrence

/-!
# ASCII words in a text

A byte below 128 is a character by itself. So an ASCII word occurs in a text where its bytes occur (`exists_of_bytes_eq_append`),
and texts with the same bytes have the same first occurrence of it (`IsFirst.of_bytes_eq`). Whether a text was held anew before
a word is replaced in it makes no difference (`replaceFirst_hold`).
-/

namespace FormLang.Text

/-! ## Occurrences -/

/-- All characters are below 128. -/
def Ascii (word : String) : Prop :=
  ∀ c ∈ word.toList, c.toNat < 128

theorem ascii_of_all {word : String} (h : word.toList.all (fun c => decide (c.toNat < 128)) = true) : Ascii word :=
  fun c hc => of_decide_eq_true (List.all_eq_true.mp h c hc)

section occurrence

variable {cs ws : List Char}

/-- An ASCII character stands where its byte stands. -/
theorem exists_of_flatMap_eq_append {c : Char} (hc : c.toNat < 128) {x y : List UInt8}
    (h : cs.flatMap charBytes = x ++ (charBytes c ++ y)) :
    ∃ b a, cs = b ++ c :: a ∧ b.flatMap charBytes = x ∧ a.flatMap charBytes = y := by
  rw [charBytes_of_lt hc, List.singleton_append] at h
  induction cs generalizing x with
  | nil => exact absurd h.symm (by simp)
  | cons d cs ih =>
    rw [List.flatMap_cons] at h
    have hlater (x' : List UInt8) (hx : x = charBytes d ++ x')
        (hrest : cs.flatMap charBytes = x' ++ UInt8.ofNat c.toNat :: y) :
        ∃ b a, d :: cs = b ++ c :: a ∧ b.flatMap charBytes = x ∧ a.flatMap charBytes = y := by
      obtain ⟨b, a, rfl, hb, ha⟩ := ih hrest
      exact ⟨d :: b, a, rfl, by rw [List.flatMap_cons, hb, hx], ha⟩
    rcases List.append_eq_append_iff.mp h with ⟨x', hx, hrest⟩ | ⟨y', hd, hrest⟩
    · exact hlater x' hx hrest
    · cases y' with
      | nil =>
        rw [List.append_nil] at hd
        exact hlater [] (by rw [hd, List.append_nil]) hrest.symm
      | cons n y' =>
        -- The byte is one of `d`, which then has no other byte and is the character.
        obtain ⟨hn, htail⟩ := List.cons.inj hrest
        have hbyte {x : Char} (hx : x.toNat < 128) : (UInt8.ofNat x.toNat).toNat = x.toNat :=
          UInt8.toNat_ofNat_of_lt' (Nat.lt_trans hx (by decide))
        have hmem : n ∈ charBytes d := hd ▸ List.mem_append_right x List.mem_cons_self
        have hsmall : d.toNat < 128 := by
          refine Nat.lt_of_not_le fun hle => ?_
          have hlow := le_of_mem_charBytes hle hmem
          rw [← hn, hbyte hc] at hlow
          omega
        rw [charBytes_of_lt hsmall] at hd
        obtain ⟨rfl, hone⟩ := List.append_eq_singleton_iff.mp hd.symm |>.resolve_right fun h => by simp at h
        obtain ⟨rfl, rfl⟩ := List.cons.inj hone
        have heq : d = c := by
          have hnat := congrArg UInt8.toNat hn
          rw [hbyte hc, hbyte hsmall] at hnat
          exact Char.toNat_inj.mp hnat.symm
        exact ⟨[], cs, by rw [heq, List.nil_append], rfl, htail.symm⟩

theorem eq_nil_of_flatMap_charBytes (h : cs.flatMap charBytes = []) : cs = [] := by
  cases cs with
  | nil => rfl
  | cons c cs =>
    rw [List.flatMap_cons, List.append_eq_nil_iff] at h
    exact absurd h.1 (charBytes_ne_nil c)

/-- A text begins with an ASCII word if its bytes do. -/
theorem exists_of_flatMap_eq (hws : ∀ c ∈ ws, c.toNat < 128) {y : List UInt8}
    (h : cs.flatMap charBytes = ws.flatMap charBytes ++ y) : ∃ a, cs = ws ++ a ∧ a.flatMap charBytes = y := by
  induction ws generalizing cs with
  | nil => exact ⟨cs, rfl, h⟩
  | cons c ws ih =>
    rw [List.forall_mem_cons] at hws
    rw [List.flatMap_cons, List.append_assoc] at h
    obtain ⟨b, a, rfl, hb, ha⟩ := exists_of_flatMap_eq_append (x := []) hws.1 h
    rw [eq_nil_of_flatMap_charBytes hb]
    obtain ⟨a', rfl, ha'⟩ := ih hws.2 ha
    exact ⟨a', rfl, ha'⟩

end occurrence

variable {word s t : String}

theorem mem_of_bytes_eq {c : Char} (hc : c.toNat < 128) (h : bytes s = bytes t) (hmem : c ∈ t.toList) : c ∈ s.toList := by
  obtain ⟨b, a, ht⟩ := List.append_of_mem hmem
  have hs : s.toList.flatMap charBytes = b.flatMap charBytes ++ (charBytes c ++ a.flatMap charBytes) := by
    rw [← bytes, h, bytes, ht, List.flatMap_append, List.flatMap_cons]
  obtain ⟨b', a', hs', -⟩ := exists_of_flatMap_eq_append hc hs
  rw [hs']
  exact List.mem_append_right b' List.mem_cons_self

/-- An ASCII word occurs in a text where its bytes occur. -/
theorem exists_of_bytes_eq_append (hascii : Ascii word) (hne : word ≠ "") {x y : List UInt8}
    (h : bytes t = x ++ bytes word ++ y) : ∃ b a, t = b ++ word ++ a ∧ bytes b = x ∧ bytes a = y := by
  obtain ⟨c, ws, hword⟩ : ∃ c ws, word.toList = c :: ws := by
    refine List.exists_cons_of_ne_nil fun hnil => hne ?_
    rw [← String.toList_inj, hnil]
    rfl
  rw [Ascii, hword, List.forall_mem_cons] at hascii
  rw [bytes, bytes, hword, List.flatMap_cons, List.append_assoc, List.append_assoc] at h
  obtain ⟨b, a, ht, hb, ha⟩ := exists_of_flatMap_eq_append hascii.1 h
  obtain ⟨a', rfl, ha'⟩ := exists_of_flatMap_eq hascii.2 ha
  refine ⟨String.ofList b, String.ofList a', ?_, by rw [bytes_ofList, hb], by rw [bytes_ofList, ha']⟩
  rw [toList_eq_append, ht, hword, String.toList_ofList, String.toList_ofList]
  simp

theorem exists_of_bytes_eq (hascii : Ascii word) (hne : word ≠ "") (hbytes : bytes s = bytes t) {b a : String}
    (h : t = b ++ word ++ a) : ∃ b' a', s = b' ++ word ++ a' ∧ bytes b' = bytes b ∧ bytes a' = bytes a := by
  refine exists_of_bytes_eq_append hascii hne ?_
  rw [hbytes, h, bytes_append, bytes_append]

/-- Of two texts at the front of a third, one that has no more bytes has no more characters. -/
theorem length_le_of_bytes_le {b a b' a' : String} (h : b ++ a = b' ++ a') (hle : (bytes b).length ≤ (bytes b').length) :
    b.length ≤ b'.length := by
  have hlists : b.toList ++ a.toList = b'.toList ++ a'.toList := by
    rw [← String.toList_append, h, String.toList_append]
  rw [← String.length_toList, ← String.length_toList]
  rcases List.append_eq_append_iff.mp hlists with ⟨d, hd, -⟩ | ⟨d, hd, -⟩
  · rw [hd, List.length_append]
    exact Nat.le_add_right _ _
  · rw [bytes, bytes, hd, List.flatMap_append, List.length_append] at hle
    have hnil : d = [] := eq_nil_of_flatMap_charBytes (List.length_eq_zero_iff.mp (by omega))
    exact Nat.le_of_eq (by rw [hd, hnil, List.append_nil])

/-- **Texts with the same bytes have the same first occurrence of an ASCII word.** -/
theorem IsFirst.of_bytes_eq (hascii : Ascii word) (hne : word ≠ "") (hbytes : bytes s = bytes t) {b a : String}
    (h : IsFirst word t b a) : ∃ b' a', IsFirst word s b' a' ∧ bytes b' = bytes b ∧ bytes a' = bytes a := by
  obtain ⟨b', a', hs, hb, ha⟩ := exists_of_bytes_eq hascii hne hbytes h.occurs
  refine ⟨b', a', ⟨hs, fun b₁ a₁ h₁ => ?_⟩, hb, ha⟩
  -- Another occurrence in `s` is one in `t`, and there it does not come earlier.
  obtain ⟨b₂, a₂, h₂, hb₂, -⟩ := exists_of_bytes_eq hascii hne hbytes.symm h₁
  have hle := h.first b₂ a₂ h₂
  have hfront {b a : String} (h : t = b ++ word ++ a) : b.toList <+: t.toList :=
    ⟨word.toList ++ a.toList, by rw [← List.append_assoc, ← toList_eq_append.mp h]⟩
  have hprefix : b.toList <+: b₂.toList :=
    List.prefix_of_prefix_length_le (hfront h.occurs) (hfront h₂) (by rwa [String.length_toList, String.length_toList])
  have hfewer : (bytes b).length ≤ (bytes b₂).length := by
    obtain ⟨d, hd⟩ := hprefix
    rw [bytes, bytes, ← hd, List.flatMap_append, List.length_append]
    exact Nat.le_add_right _ _
  have hsame : b' ++ (word ++ a') = b₁ ++ (word ++ a₁) := by
    rw [← String.append_assoc, ← String.append_assoc, ← hs, ← h₁]
  exact length_le_of_bytes_le hsame (by rw [hb, ← hb₂]; exact hfewer)

theorem exists_append_iff_of_bytes_eq (hascii : Ascii word) (hne : word ≠ "") (hbytes : bytes s = bytes t) :
    (∃ b a, s = b ++ word ++ a) ↔ ∃ b a, t = b ++ word ++ a := by
  constructor
  · rintro ⟨b, a, h⟩
    obtain ⟨b', a', h', -⟩ := exists_of_bytes_eq hascii hne hbytes.symm h
    exact ⟨b', a', h'⟩
  · rintro ⟨b, a, h⟩
    obtain ⟨b', a', h', -⟩ := exists_of_bytes_eq hascii hne hbytes h
    exact ⟨b', a', h'⟩

/-! ## Replacing in a held text -/

theorem hasInfix_hold_iff (hascii : Ascii word) (hne : word ≠ "") :
    hasInfix word (hold t) = true ↔ ∃ b a, t = b ++ word ++ a :=
  hasInfix_iff.trans (exists_append_iff_of_bytes_eq hascii hne (bytes_hold t))

theorem replaceFirst_hold (hascii : Ascii word) (hne : word ≠ "") {b a : String} (h : IsFirst word t b a) (fill : String) :
    replaceFirst word fill (hold t) = hold (b ++ fill ++ a) := by
  obtain ⟨b', a', hfirst, hb, ha⟩ := h.of_bytes_eq hascii hne (bytes_hold t)
  rw [replaceFirst_of_isFirst hfirst, hold, hold, bytes_append, bytes_append, bytes_append, bytes_append, hb, ha]

end FormLang.Text
