import MutationTesting.Proofs.Coverage.BlockSequence
import MutationTesting.Proofs.Coverage.WrittenText
import MutationTesting.Text.Octets
/-!
# Strings as groups of bytes

The payload of a string is cut into groups, each of one to three bytes, and each group stands for a
16-bit unit. How many bytes a group has is told by the first of them alone; so a payload is cut in
one way at most, and what is denied a text is a payload that cannot be cut, or whose units have a
surrogate without its partner.

The form of a group also asks that the bytes behind the first one be of the form `10xxxxxx`. The
reader does not look at this: it takes the six low bits of whatever byte is there. This is the only
liberty it takes. A payload of which no group is improper is read as the form asks, and any other
one is read where it should be refused, unless its units denote no text.

## Main definitions

* `Utf16.IsWellFormed` — units in which surrogates come in pairs
* `ModifiedUtf8.Group`, `Group.unit`, `Group.IsProper`
* `Coverage.IsStringLead` — the bytes of a block before its string

## Main results

* `Utf16.text?_eq_some_iff`, `Utf16.isSome_text?_iff`
* `ModifiedUtf8.spelled_inj` — a payload is cut in one way
* `ModifiedUtf8.decode?_eq_some_iff` — the payloads that are read, and their texts
* `Coverage.decode_badString` — what is reported of the others
* `Coverage.strings_are_read_by_leading_bytes`
-/

namespace MutationTesting

/-! ### Units that denote a text -/

namespace Utf16

/-- Every unit is a character of its own, or it opens a pair and the next unit closes it. -/
inductive IsWellFormed : List Nat → Prop where
  | nil : IsWellFormed []
  | unpaired {unit : Nat} {us : List Nat} (high : isHigh unit = false) (low : isLow unit = false)
      (rest : IsWellFormed us) : IsWellFormed (unit :: us)
  | paired {unit next : Nat} {us : List Nat} (high : isHigh unit = true) (low : isLow next = true)
      (rest : IsWellFormed us) : IsWellFormed (unit :: next :: us)

theorem isHigh_iff {unit : Nat} : isHigh unit = true ↔ 0xD800 ≤ unit ∧ unit < 0xDC00 := by
  simp [isHigh]

theorem isLow_iff {unit : Nat} : isLow unit = true ↔ 0xDC00 ≤ unit ∧ unit < 0xE000 := by
  simp [isLow]

/-- A unit that is no surrogate is the one unit of its character. -/
theorem ofChar_of_unpaired {unit : Nat} (hunit : unit < 0x10000) (hhigh : isHigh unit = false)
    (hlow : isLow unit = false) : ofChar (Char.ofNat unit) = [unit] := by
  rw [← Bool.not_eq_true, isHigh_iff] at hhigh
  rw [← Bool.not_eq_true, isLow_iff] at hlow
  have hvalid : unit.isValidChar := by
    rw [Nat.isValidChar]
    omega
  rw [ofChar, Octets.toNat_charOfNat hvalid, if_pos hunit]

/-- A pair of surrogates are the two units of its character. -/
theorem ofChar_of_pair {high low : Nat} (hhigh : isHigh high = true) (hlow : isLow low = true) :
    ofChar (Char.ofNat (pair high low)) = [high, low] := by
  rw [isHigh_iff] at hhigh
  rw [isLow_iff] at hlow
  have hpair : pair high low = 0x10000 + (high - 0xD800) * 0x400 + (low - 0xDC00) := rfl
  have hvalid : (pair high low).isValidChar := by
    rw [Nat.isValidChar]
    omega
  have hlarge : ¬ pair high low < 0x10000 := by omega
  have hfirst : 0xD800 + (pair high low - 0x10000) / 0x400 = high := by omega
  have hsecond : 0xDC00 + (pair high low - 0x10000) % 0x400 = low := by omega
  rw [ofChar, Octets.toNat_charOfNat hvalid, if_neg hlarge, hfirst, hsecond]

/-- The text of units has these units. -/
theorem units_of_text? {us : List Nat} {text : List Char} (hus : ∀ unit ∈ us, unit < 0x10000)
    (h : text? us = some text) : units text = us := by
  fun_induction text? us generalizing text with
  | case1 =>
    obtain rfl := Option.some.inj h
    rfl
  | case2 unit hhigh low rest hlow ih =>
    obtain ⟨later, hlater, rfl⟩ := Option.map_eq_some_iff.mp h
    have hrest := ih (fun u hu => hus u (List.mem_cons_of_mem _ (List.mem_cons_of_mem _ hu))) hlater
    rw [units, List.flatMap_cons, ofChar_of_pair hhigh hlow, ← units, hrest]
    rfl
  | case3 => cases h
  | case4 => cases h
  | case5 => cases h
  | case6 unit rest hhigh hlow ih =>
    obtain ⟨later, hlater, rfl⟩ := Option.map_eq_some_iff.mp h
    obtain ⟨hunit, hrest⟩ := List.forall_mem_cons.mp hus
    rw [units, List.flatMap_cons,
      ofChar_of_unpaired hunit (Bool.not_eq_true _ ▸ hhigh) (Bool.not_eq_true _ ▸ hlow), ← units,
      ih hrest hlater]
    rfl

/-- **The text of units** is the one that has them. -/
theorem text?_eq_some_iff {us : List Nat} {text : List Char} (hus : ∀ unit ∈ us, unit < 0x10000) :
    text? us = some text ↔ us = units text := by
  constructor
  · exact fun h => (units_of_text? hus h).symm
  · rintro rfl
    exact text?_units text

/-- **The units that have a text** are those that are well formed. -/
theorem isSome_text?_iff {us : List Nat} : (text? us).isSome ↔ IsWellFormed us := by
  constructor
  · intro h
    fun_induction text? us with
    | case1 => exact .nil
    | case2 unit hhigh low rest hlow ih => exact .paired hhigh hlow (ih (by simpa using h))
    | case3 => cases h
    | case4 => cases h
    | case5 => cases h
    | case6 unit rest hhigh hlow ih =>
      exact .unpaired (by simpa using hhigh) (by simpa using hlow) (ih (by simpa using h))
  · intro h
    induction h with
    | nil => rfl
    | unpaired high low _ ih => rwa [text?_cons_of_unpaired high low, Option.isSome_map]
    | paired high low _ ih => rwa [text?_cons_of_pair high low, Option.isSome_map]

end Utf16

/-! ### Groups -/

namespace ModifiedUtf8

/-- Bytes that stand for a unit. The first of them tells how many they are. -/
inductive Group where
  /-- `0xxxxxxx` -/
  | one (a : UInt8) (lead : a.toNat < 0x80)
  /-- `110xxxxx` and another byte -/
  | two (a b : UInt8) (lead : 0xC0 ≤ a.toNat ∧ a.toNat < 0xE0)
  /-- `1110xxxx` and two other bytes -/
  | three (a b c : UInt8) (lead : 0xE0 ≤ a.toNat ∧ a.toNat < 0xF0)

namespace Group

/-- The first byte of a group. -/
def first : Group → UInt8
  | one a _ => a
  | two a _ _ => a
  | three a _ _ _ => a

/-- The bytes behind the first one. -/
def following : Group → Bytes
  | one _ _ => []
  | two _ b _ => [b]
  | three _ b c _ => [b, c]

/-- The bytes of a group. -/
def bytes (g : Group) : Bytes := g.first :: g.following

/-- The unit that a group stands for: the free bits of its bytes. -/
def unit : Group → Nat
  | one a _ => a.toNat
  | two a b _ => a.toNat % 32 * 64 + b.toNat % 64
  | three a b c _ => a.toNat % 16 * 4096 + b.toNat % 64 * 64 + c.toNat % 64

/-- Every byte behind the first one is of the form `10xxxxxx`. -/
def IsProper (g : Group) : Prop := ∀ b ∈ g.following, 0x80 ≤ b.toNat ∧ b.toNat < 0xC0

instance (g : Group) : Decidable g.IsProper := inferInstanceAs (Decidable (∀ _ ∈ _, _))

theorem unit_lt (g : Group) : g.unit < 0x10000 := by
  cases g with
  | one a lead => exact Nat.lt_trans lead (by decide)
  | two a b lead =>
    rw [unit]
    omega
  | three a b c lead =>
    rw [unit]
    omega

theorem units?_bytes_append (g : Group) (rest : Bytes) :
    units? (g.bytes ++ rest) = (units? rest).map (g.unit :: ·) := by
  cases g with
  | one a lead => exact units?_cons_of_one lead rest
  | two a b lead => exact units?_cons_of_two lead b rest
  | three a b c lead => exact units?_cons_of_three lead b c rest

/-- A group ends where its first byte says. -/
theorem eq_of_bytes_append {g g' : Group} {x x' : Bytes} (h : g.bytes ++ x = g'.bytes ++ x') :
    g = g' ∧ x = x' := by
  obtain ⟨hfirst, hrest⟩ := List.cons.inj h
  cases g with
  | one a lead =>
    cases g' with
    | one a' lead' =>
      obtain rfl : a = a' := hfirst
      exact ⟨rfl, hrest⟩
    | two a' b' lead' =>
      obtain rfl : a = a' := hfirst
      omega
    | three a' b' c' lead' =>
      obtain rfl : a = a' := hfirst
      omega
  | two a b lead =>
    cases g' with
    | one a' lead' =>
      obtain rfl : a = a' := hfirst
      omega
    | two a' b' lead' =>
      obtain rfl : a = a' := hfirst
      obtain ⟨rfl, hx⟩ := List.cons.inj hrest
      exact ⟨rfl, hx⟩
    | three a' b' c' lead' =>
      obtain rfl : a = a' := hfirst
      omega
  | three a b c lead =>
    cases g' with
    | one a' lead' =>
      obtain rfl : a = a' := hfirst
      omega
    | two a' b' lead' =>
      obtain rfl : a = a' := hfirst
      omega
    | three a' b' c' lead' =>
      obtain rfl : a = a' := hfirst
      obtain ⟨rfl, hlater⟩ := List.cons.inj hrest
      obtain ⟨rfl, hx⟩ := List.cons.inj hlater
      exact ⟨rfl, hx⟩

end Group

/-- The payload of groups. -/
def spelled (gs : List Group) : Bytes := gs.flatMap Group.bytes

/-- The units of groups are read, whatever comes behind them. -/
theorem units?_spelled_append (gs : List Group) (rest : Bytes) :
    units? (spelled gs ++ rest) = (units? rest).map (gs.map Group.unit ++ ·) := by
  induction gs with
  | nil => simp [spelled]
  | cons g gs ih =>
    rw [spelled, List.flatMap_cons, ← spelled, List.append_assoc, g.units?_bytes_append, ih,
      Option.map_map]
    rfl

/-- **The payloads that have units** are those of groups. -/
theorem units?_eq_some_iff {raw : Bytes} {us : List Nat} :
    units? raw = some us ↔ ∃ gs, raw = spelled gs ∧ us = gs.map Group.unit := by
  constructor
  · intro h
    fun_induction units? raw generalizing us with
    | case1 => exact ⟨[], rfl, (Option.some.inj h).symm⟩
    | case2 a rest ha ih =>
      obtain ⟨later, hlater, rfl⟩ := Option.map_eq_some_iff.mp h
      obtain ⟨gs, rfl, rfl⟩ := ih hlater
      exact ⟨.one a ha :: gs, rfl, rfl⟩
    | case3 a _ ha b rest ih =>
      obtain ⟨later, hlater, rfl⟩ := Option.map_eq_some_iff.mp h
      obtain ⟨gs, rfl, rfl⟩ := ih hlater
      exact ⟨.two a b ha :: gs, rfl, rfl⟩
    | case4 => cases h
    | case5 a _ _ ha b c rest ih =>
      obtain ⟨later, hlater, rfl⟩ := Option.map_eq_some_iff.mp h
      obtain ⟨gs, rfl, rfl⟩ := ih hlater
      exact ⟨.three a b c ha :: gs, rfl, rfl⟩
    | case6 => cases h
    | case7 => cases h
  · rintro ⟨gs, rfl, rfl⟩
    have h := units?_spelled_append gs []
    rwa [List.append_nil, units?, Option.map_some, List.append_nil] at h

/-- **A payload is cut in one way.** -/
theorem spelled_inj {gs gs' : List Group} (h : spelled gs = spelled gs') : gs = gs' := by
  induction gs generalizing gs' with
  | nil =>
    cases gs' with
    | nil => rfl
    | cons g' gs' => cases h
  | cons g gs ih =>
    cases gs' with
    | nil => cases h
    | cons g' gs' =>
      obtain ⟨rfl, hrest⟩ := Group.eq_of_bytes_append h
      rw [ih hrest]

theorem units_lt (gs : List Group) : ∀ unit ∈ gs.map Group.unit, unit < 0x10000 := by
  intro unit h
  obtain ⟨g, -, rfl⟩ := List.mem_map.mp h
  exact g.unit_lt

/-- **The payloads that are read** are cut into groups, and their texts have the units of the
groups. -/
theorem decode?_eq_some_iff {raw : Bytes} {s : String} : decode? raw = some s ↔
    ∃ gs, raw = spelled gs ∧ gs.map Group.unit = Utf16.units s.toList := by
  rw [decode?, Option.map_eq_some_iff]
  constructor
  · rintro ⟨text, htext, rfl⟩
    obtain ⟨us, hus, htext⟩ := Option.bind_eq_some_iff.mp htext
    obtain ⟨gs, rfl, rfl⟩ := units?_eq_some_iff.mp hus
    refine ⟨gs, rfl, ?_⟩
    rw [String.toList_ofList]
    exact (Utf16.text?_eq_some_iff (units_lt gs)).mp htext
  · rintro ⟨gs, rfl, hunits⟩
    refine ⟨s.toList, ?_, String.ofList_toList⟩
    rw [units?_eq_some_iff.mpr ⟨gs, rfl, rfl⟩, Option.bind_some]
    exact (Utf16.text?_eq_some_iff (units_lt gs)).mpr hunits

theorem isSome_decode?_iff {raw : Bytes} : (decode? raw).isSome ↔
    ∃ gs, raw = spelled gs ∧ Utf16.IsWellFormed (gs.map Group.unit) := by
  rw [decode?, Option.isSome_map]
  constructor
  · intro h
    obtain ⟨text, htext⟩ := Option.isSome_iff_exists.mp h
    obtain ⟨us, hus, htext⟩ := Option.bind_eq_some_iff.mp htext
    obtain ⟨gs, rfl, rfl⟩ := units?_eq_some_iff.mp hus
    exact ⟨gs, rfl, Utf16.isSome_text?_iff.mp (Option.isSome_of_eq_some htext)⟩
  · rintro ⟨gs, rfl, hwell⟩
    rw [units?_eq_some_iff.mpr ⟨gs, rfl, rfl⟩, Option.bind_some]
    exact Utf16.isSome_text?_iff.mpr hwell

/-- What the payload of a text has to be: proper groups with the units of the text. -/
def Denotes (raw : Bytes) (s : String) : Prop :=
  ∃ gs, raw = spelled gs ∧ (∀ g ∈ gs, g.IsProper) ∧ gs.map Group.unit = Utf16.units s.toList

/-- **A payload is read as it should be** unless it is cut into groups that have a text and of which
one is improper. -/
theorem forall_decode?_iff_denotes {raw : Bytes} :
    (∀ s, decode? raw = some s ↔ Denotes raw s) ↔
      ∀ gs, raw = spelled gs → Utf16.IsWellFormed (gs.map Group.unit) → ∀ g ∈ gs, g.IsProper := by
  constructor
  · intro hdenotes gs hraw hwell
    obtain ⟨s, hs⟩ := Option.isSome_iff_exists.mp (isSome_decode?_iff.mpr ⟨gs, hraw, hwell⟩)
    obtain ⟨gs', hraw', hproper, -⟩ := (hdenotes s).mp hs
    rwa [spelled_inj (hraw.symm.trans hraw')]
  · intro hproper s
    rw [decode?_eq_some_iff]
    constructor
    · rintro ⟨gs, hraw, hunits⟩
      have hwell : Utf16.IsWellFormed (gs.map Group.unit) := by
        rw [hunits, ← Utf16.isSome_text?_iff, Utf16.text?_units]
        rfl
      exact ⟨gs, hraw, hproper gs hraw hwell, hunits⟩
    · rintro ⟨gs, hraw, -, hunits⟩
      exact ⟨gs, hraw, hunits⟩

end ModifiedUtf8

/-! ### Strings in files -/

namespace Coverage

/-- The field of a string: the length of its payload and the payload. -/
def stringField (raw : Bytes) : Bytes := bigEndianBytes 2 raw.length ++ raw

/-- A payload without a text is reported at the offset of its string. -/
theorem text_badString {raw : Bytes} (hlength : raw.length < 65536)
    (h : ModifiedUtf8.decode? raw = none) (offset : Nat) (rest : Bytes) :
    text ⟨offset, stringField raw ++ rest⟩ = .error (.badString offset) := by
  have hword := reads_word16 (length_bigEndianBytes 2 raw.length)
  rw [bigEndian_bigEndianBytes, Nat.mod_eq_of_lt (show _ < 256 ^ 2 by omega)] at hword
  have hraw : take raw.length ⟨offset + 2, raw ++ rest⟩ =
      .ok (raw, ⟨offset + 2 + raw.length, rest⟩) := (reads_take (x := raw) rfl).whole _ _
  rw [text_eq, stringField, List.append_assoc, hword.whole, length_bigEndianBytes]
  change (take raw.length ⟨offset + 2, raw ++ rest⟩ >>= fun q => decoded offset q.1 q.2) = _
  rw [hraw]
  change decoded offset raw _ = _
  rw [decoded, h, Option.elim]

/-- The bytes of a block before its string: the kind of a session, or that of a record and the
identifier of its class. -/
inductive IsStringLead : Bytes → Prop where
  | session : IsStringLead [0x10]
  | record {id : Bytes} (length : id.length = 8) : IsStringLead (0x11 :: id)

theorem block_badString {lead raw : Bytes} (hlead : IsStringLead lead)
    (hlength : raw.length < 65536) (h : ModifiedUtf8.decode? raw = none) (offset : Nat)
    (rest : Bytes) : block ⟨offset, lead ++ (stringField raw ++ rest)⟩ =
      .error (.badString (offset + lead.length)) := by
  rw [block_eq]
  cases hlead with
  | session =>
    rw [(reads_byte 0x10).whole]
    change sessionFields ⟨offset + 1, stringField raw ++ rest⟩ = _
    rw [sessionFields, text_badString hlength h]
    rfl
  | @record id hid =>
    rw [List.cons_append, ← List.singleton_append, (reads_byte 0x11).whole]
    change recordFields ⟨offset + 1, id ++ (stringField raw ++ rest)⟩ = _
    rw [recordFields, (reads_word64 hid).whole]
    change (text ⟨offset + 1 + id.length, stringField raw ++ rest⟩ >>= _) = _
    rw [text_badString hlength h, List.length_cons, Nat.add_assoc, Nat.add_comm 1]
    rfl

/-- **What is reported of a payload without a text**: the offset of its string, whatever blocks come
before it and whatever comes behind it. -/
theorem decode_badString {y lead raw : Bytes} {bs : List Block} (hy : SpellBlocks y bs)
    (hlead : IsStringLead lead) (hlength : raw.length < 65536)
    (h : ModifiedUtf8.decode? raw = none) (rest : Bytes) :
    decode (preamble ++ (y ++ (lead ++ (stringField raw ++ rest)))) =
      .error (.badString (preamble.length + y.length + lead.length)) := by
  have hblocks (data : ExecutionData) (fuel offset : Nat)
      (hfuel : (y ++ (lead ++ (stringField raw ++ rest))).length ≤ fuel) :
      blocks data fuel ⟨offset, y ++ (lead ++ (stringField raw ++ rest))⟩ =
        .error (.badString (offset + y.length + lead.length)) := by
    induction hy generalizing data fuel offset with
    | nil =>
      have hne : lead ++ (stringField raw ++ rest) ≠ [] := by
        cases hlead <;> exact List.cons_ne_nil _ _
      obtain ⟨fuel, rfl⟩ : ∃ fuel', fuel = fuel' + 1 :=
        Nat.exists_eq_add_of_le' (Nat.le_trans (List.length_pos_iff.mpr hne) hfuel)
      rw [List.nil_append, blocks_of_ne_nil data fuel hne, block_badString hlead hlength h]
      rfl
    | @cons x z b bs head _ ih =>
      have hpos : 0 < x.length := List.length_pos_iff.mpr head.ne_nil
      rw [List.append_assoc] at hfuel ⊢
      rw [List.length_append] at hfuel
      obtain ⟨fuel, rfl⟩ : ∃ fuel', fuel = fuel' + 1 := Nat.exists_eq_add_of_le' (by omega)
      rw [blocks_append head, ih _ _ _ (by omega), List.length_append, Nat.add_assoc offset]
  rw [decode_preamble_append, hblocks _ _ 5 (by simp)]
  rfl

open ModifiedUtf8 in
/-- **Strings are read by their leading bytes.** A payload is read iff it is cut into groups, whose
first bytes tell their lengths, and the units of the groups are well formed; its text then is the
one with these units. So it is read as it should be iff none of these groups is improper. Any other
payload is reported at the offset of its string, in a session or in a record. -/
theorem strings_are_read_by_leading_bytes (raw : Bytes) :
    (∀ s, decode? raw = some s ↔
      ∃ gs, raw = spelled gs ∧ gs.map Group.unit = Utf16.units s.toList) ∧
    ((decode? raw).isSome ↔
      ∃ gs, raw = spelled gs ∧ Utf16.IsWellFormed (gs.map Group.unit)) ∧
    ((∀ s, decode? raw = some s ↔ Denotes raw s) ↔
      ∀ gs, raw = spelled gs → Utf16.IsWellFormed (gs.map Group.unit) → ∀ g ∈ gs, g.IsProper) ∧
    (decode? raw = none → raw.length < 65536 →
      ∀ y bs lead rest, SpellBlocks y bs → IsStringLead lead →
        decode (preamble ++ (y ++ (lead ++ (stringField raw ++ rest)))) =
          .error (.badString (preamble.length + y.length + lead.length))) :=
  ⟨fun _ => decode?_eq_some_iff, isSome_decode?_iff, forall_decode?_iff_denotes,
    fun h hlength _ _ _ rest hy hlead => decode_badString hy hlead hlength h rest⟩

/-- A group that is cut off, in the name of a class behind another header. -/
theorem group_cut_off_is_reported :
    ModifiedUtf8.decode? [0x61, 0xE2, 0x82] = none ∧
      decode (preamble ++ (preamble ++ ((0x11 :: bigEndianBytes 8 7) ++
        (stringField [0x61, 0xE2, 0x82] ++ [0x01, 0x01])))) = .error (.badString 19) := by
  have hnone : ModifiedUtf8.decode? [0x61, 0xE2, 0x82] = none := by decide
  obtain ⟨-, -, -, hreport⟩ := strings_are_read_by_leading_bytes [0x61, 0xE2, 0x82]
  exact ⟨hnone, hreport hnone (by decide) preamble [.header] _ _ (.cons reads_preamble .nil)
    (.record (length_bigEndianBytes 8 7))⟩

/-- **A byte that continues nothing is read**: the letter `A` in the place of a byte of the form
`10xxxxxx` makes another letter of the byte before it. -/
theorem stray_byte_is_read :
    ModifiedUtf8.decode? [0xC1, 0x41] = some "A" ∧ ∀ s, ¬ ModifiedUtf8.Denotes [0xC1, 0x41] s := by
  refine ⟨by decide, ?_⟩
  rintro s ⟨gs, hgs, hproper, -⟩
  obtain rfl : [.two 0xC1 0x41 (by decide)] = gs := ModifiedUtf8.spelled_inj hgs
  exact absurd (hproper _ (List.mem_singleton_self _)) (by decide)

end Coverage

end MutationTesting
