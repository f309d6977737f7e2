import MutationTesting.Coverage.Decoder
/-!
# Written strings are read back

A text is written as the bytes of its 16-bit units. The bytes of a unit tell by the first of them
how many they are, so units are read back one by one; and the units of a character tell by the
first of them whether there is a second one, so characters are, too.

## Main results

* `Utf16.text?_units` — the text of the units of a text
* `ModifiedUtf8.units?_flatMap_encodeUnit` — the units of the bytes of units
* `ModifiedUtf8.decode?_encode` — the text of the bytes of a text
-/

namespace MutationTesting

namespace Utf16

/-- Characters lie on both sides of the surrogates. -/
theorem toNat_char_cases (c : Char) :
    c.toNat < 0xD800 ∨ (0xDFFF < c.toNat ∧ c.toNat < 0x110000) := c.valid

/-- Units have 16 bits. -/
theorem lt_of_mem_ofChar {c : Char} {unit : Nat} (h : unit ∈ ofChar c) : unit < 0x10000 := by
  have hc := toNat_char_cases c
  rw [ofChar] at h
  split at h
  · next hsmall =>
    rw [List.mem_singleton.mp h]
    exact hsmall
  · simp only [List.mem_cons, List.not_mem_nil, or_false] at h
    omega

theorem text?_cons_of_unpaired {unit : Nat} (hhigh : isHigh unit = false)
    (hlow : isLow unit = false) (rest : List Nat) :
    text? (unit :: rest) = (text? rest).map (Char.ofNat unit :: ·) := by
  rw [text?.eq_def]
  simp only [hhigh, hlow, Bool.false_eq_true, if_false]

theorem text?_cons_of_pair {high low : Nat} (hhigh : isHigh high = true)
    (hlow : isLow low = true) (rest : List Nat) :
    text? (high :: low :: rest) = (text? rest).map (Char.ofNat (pair high low) :: ·) := by
  rw [text?.eq_def]
  simp only [hhigh, hlow, if_true]

theorem pair_add (a b : Nat) : pair (0xD800 + a) (0xDC00 + b) = 0x10000 + a * 0x400 + b := by
  unfold pair
  rw [Nat.add_sub_cancel_left, Nat.add_sub_cancel_left]

/-- The units of a character are read back, whatever comes after them. -/
theorem text?_ofChar_append (c : Char) (rest : List Nat) :
    text? (ofChar c ++ rest) = (text? rest).map (c :: ·) := by
  have hc := toNat_char_cases c
  rw [ofChar]
  split
  · have hhigh : isHigh c.toNat = false := by
      simp only [isHigh, Bool.and_eq_false_iff, decide_eq_false_iff_not]
      omega
    have hlow : isLow c.toNat = false := by
      simp only [isLow, Bool.and_eq_false_iff, decide_eq_false_iff_not]
      omega
    rw [List.singleton_append, text?_cons_of_unpaired hhigh hlow, Char.ofNat_toNat]
  · next hlarge =>
    have hhigh : isHigh (0xD800 + (c.toNat - 0x10000) / 0x400) = true := by
      simp only [isHigh, Bool.and_eq_true, decide_eq_true_eq]
      omega
    have hlow : isLow (0xDC00 + (c.toNat - 0x10000) % 0x400) = true := by
      simp only [isLow, Bool.and_eq_true, decide_eq_true_eq]
      omega
    have hpair : pair (0xD800 + (c.toNat - 0x10000) / 0x400)
        (0xDC00 + (c.toNat - 0x10000) % 0x400) = c.toNat := by
      rw [pair_add, Nat.add_assoc, Nat.div_add_mod', Nat.add_sub_cancel' (Nat.le_of_not_lt hlarge)]
    rw [List.cons_append, List.singleton_append, text?_cons_of_pair hhigh hlow, hpair,
      Char.ofNat_toNat]

/-- **A text is the text of its units.** -/
theorem text?_units (text : List Char) : text? (units text) = some text := by
  induction text with
  | nil => rfl
  | cons c text ih =>
    change text? (ofChar c ++ units text) = _
    rw [text?_ofChar_append, ih, Option.map_some]

end Utf16

namespace ModifiedUtf8

theorem units?_cons_of_one {a : UInt8} (ha : a.toNat < 0x80) (rest : Bytes) :
    units? (a :: rest) = (units? rest).map (a.toNat :: ·) := by
  rw [units?.eq_def]
  simp only [if_pos ha]

theorem units?_cons_of_two {a : UInt8} (ha : 0xC0 ≤ a.toNat ∧ a.toNat < 0xE0) (b : UInt8)
    (rest : Bytes) :
    units? (a :: b :: rest) = (units? rest).map ((a.toNat % 32 * 64 + b.toNat % 64) :: ·) := by
  have hone : ¬ a.toNat < 0x80 := by omega
  rw [units?.eq_def]
  simp only [if_neg hone, if_pos ha]

theorem units?_cons_of_three {a : UInt8} (ha : 0xE0 ≤ a.toNat ∧ a.toNat < 0xF0) (b c : UInt8)
    (rest : Bytes) :
    units? (a :: b :: c :: rest) =
      (units? rest).map ((a.toNat % 16 * 4096 + b.toNat % 64 * 64 + c.toNat % 64) :: ·) := by
  have hone : ¬ a.toNat < 0x80 := by omega
  have htwo : ¬ (0xC0 ≤ a.toNat ∧ a.toNat < 0xE0) := by omega
  rw [units?.eq_def]
  simp only [if_neg hone, if_neg htwo, if_pos ha]

/-- The bytes of a unit are read back, whatever comes after them. -/
theorem units?_encodeUnit_append {unit : Nat} (h : unit < 0x10000) (rest : Bytes) :
    units? (encodeUnit unit ++ rest) = (units? rest).map (unit :: ·) := by
  have hbyte {n : Nat} (hn : n < 256) : (UInt8.ofNat n).toNat = n := by
    rw [UInt8.toNat_ofNat', Nat.mod_eq_of_lt hn]
  rw [encodeUnit]
  split
  · have ha : (UInt8.ofNat unit).toNat = unit := hbyte (by omega)
    rw [List.singleton_append, units?_cons_of_one (by omega), ha]
  · split
    · have ha : (UInt8.ofNat (0xC0 + unit / 64)).toNat = 0xC0 + unit / 64 := hbyte (by omega)
      have hb : (UInt8.ofNat (0x80 + unit % 64)).toNat = 0x80 + unit % 64 := hbyte (by omega)
      have hunit : (0xC0 + unit / 64) % 32 * 64 + (0x80 + unit % 64) % 64 = unit := by omega
      rw [List.cons_append, List.singleton_append, units?_cons_of_two (by omega), ha, hb, hunit]
    · have ha : (UInt8.ofNat (0xE0 + unit / 4096)).toNat = 0xE0 + unit / 4096 :=
        hbyte (by omega)
      have hb : (UInt8.ofNat (0x80 + unit / 64 % 64)).toNat = 0x80 + unit / 64 % 64 :=
        hbyte (by omega)
      have hc : (UInt8.ofNat (0x80 + unit % 64)).toNat = 0x80 + unit % 64 := hbyte (by omega)
      have hunit : (0xE0 + unit / 4096) % 16 * 4096 + (0x80 + unit / 64 % 64) % 64 * 64 +
          (0x80 + unit % 64) % 64 = unit := by omega
      rw [List.cons_append, List.cons_append, List.singleton_append,
        units?_cons_of_three (by omega), ha, hb, hc, hunit]

/-- Units are read back from their bytes. -/
theorem units?_flatMap_encodeUnit {us : List Nat} (h : ∀ unit ∈ us, unit < 0x10000) :
    units? (us.flatMap encodeUnit) = some us := by
  induction us with
  | nil => rw [List.flatMap_nil, units?]
  | cons unit us ih =>
    obtain ⟨hunit, hus⟩ := List.forall_mem_cons.mp h
    rw [List.flatMap_cons, units?_encodeUnit_append hunit, ih hus, Option.map_some]

/-- **A text is the text of its bytes.** -/
theorem decode?_encode (text : String) : decode? (encode text) = some text := by
  have hunits : ∀ unit ∈ Utf16.units text.toList, unit < 0x10000 := by
    intro unit h
    obtain ⟨c, -, hc⟩ := List.mem_flatMap.mp h
    exact Utf16.lt_of_mem_ofChar hc
  rw [decode?, encode, units?_flatMap_encodeUnit hunits, Option.bind_some, Utf16.text?_units,
    Option.map_some, String.ofList_toList]

end ModifiedUtf8

end MutationTesting
