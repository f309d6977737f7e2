import MutationTesting.Proofs.Coverage.RoundTrip
import MutationTesting.Proofs.Coverage.StringGroups
/-!
# Accepted files, written again

A file may be accepted that was never written so: numbers and groups of bytes may be longer than
they need to be, bits behind the probes may be set, headers may stand between the blocks. Written
again such a file gets its canonical form, which is hardly ever longer. It is where a string has
zero characters. Each of them may have been read from one byte and is written in two, so that the
payload of a string that just fits in its field may not fit any more.

The number that is written then is too small, and the rest of the payload is taken for something
else. So whether the data come back is decided by the lengths alone.

## Main results

* `Block.cases_of_read` — what a block is read from
* `ModifiedUtf8.length_encode_le` — the canonical form of a payload
* `text_textBytes_append` — a string that is read back has a payload that fits
* `SpellBlocks.of_written` — blocks that are read back
* `reencoding_keeps_content_iff`
-/

namespace MutationTesting

/-! ### Canonical forms of payloads -/

namespace Utf16

/-- Only the zero character has a unit that is zero. -/
theorem count_zero_units (text : List Char) : (units text).count 0 = text.count '\x00' := by
  induction text with
  | nil => rfl
  | cons c text ih =>
    have hchar : (ofChar c).count 0 = if c = '\x00' then 1 else 0 := by
      by_cases hc : c = '\x00'
      · rw [hc]
        rfl
      · have hne : c.toNat ≠ 0 := fun hzero => hc (Char.toNat_inj.mp hzero)
        rw [if_neg hc, List.count_eq_zero, ofChar]
        split
        · simpa using hne.symm
        · simp only [List.mem_cons, List.not_mem_nil, or_false]
          omega
    rw [units, List.flatMap_cons, ← units, List.count_append, hchar, ih, List.count_cons,
      Nat.add_comm]
    simp

end Utf16

namespace ModifiedUtf8

theorem length_encodeUnit (unit : Nat) : (encodeUnit unit).length =
    if 1 ≤ unit ∧ unit ≤ 0x7F then 1 else if unit ≤ 0x7FF then 2 else 3 := by
  rw [encodeUnit]
  split
  · rfl
  · split <;> rfl

/-- The canonical form of a group is longer only where a zero stands in one byte. -/
theorem Group.length_encodeUnit_le (g : Group) :
    (encodeUnit g.unit).length ≤ g.bytes.length + if g.unit = 0 then 1 else 0 := by
  rw [length_encodeUnit]
  cases g with
  | one a lead =>
    have hunit : (one a lead).unit ≤ 0x7F := Nat.le_of_lt_succ lead
    have hbytes : (one a lead).bytes.length = 1 := rfl
    split_ifs <;> omega
  | two a b lead =>
    have hunit : (two a b lead).unit ≤ 0x7FF := by
      rw [unit]
      omega
    have hbytes : (two a b lead).bytes.length = 2 := rfl
    split_ifs <;> omega
  | three a b c lead =>
    have hbytes : (three a b c lead).bytes.length = 3 := rfl
    split_ifs <;> omega

/-- **The canonical form of a payload** is longer by at most a byte for each zero character. -/
theorem length_encode_le {raw : Bytes} {s : String} (h : decode? raw = some s) :
    (encode s).length ≤ raw.length + s.toList.count '\x00' := by
  obtain ⟨gs, rfl, hunits⟩ := decode?_eq_some_iff.mp h
  rw [encode, ← Utf16.count_zero_units, ← hunits]
  clear h hunits
  induction gs with
  | nil => decide
  | cons g gs ih =>
    have hg := g.length_encodeUnit_le
    rw [spelled, List.flatMap_cons, ← spelled, List.map_cons, List.flatMap_cons,
      List.length_append, List.length_append, List.count_cons]
    simp only [beq_iff_eq]
    omega

/-- Zero bytes are zero characters. -/
theorem decode?_zeros (n : Nat) :
    decode? (List.replicate n 0) = some (String.ofList (List.replicate n '\x00')) := by
  refine decode?_eq_some_iff.mpr ⟨List.replicate n (.one 0 (by decide)), ?_, ?_⟩
  · induction n with
    | zero => rfl
    | succ n ih =>
      rw [List.replicate_succ, ih]
      rfl
  · rw [String.toList_ofList]
    induction n with
    | zero => rfl
    | succ n ih =>
      rw [List.replicate_succ, List.map_cons, ih]
      rfl

/-- In the canonical form each of them has two bytes. -/
theorem length_encode_zeros (n : Nat) :
    (encode (String.ofList (List.replicate n '\x00'))).length = 2 * n := by
  rw [encode, String.toList_ofList]
  induction n with
  | zero => rfl
  | succ n ih =>
    have hchar : Utf16.units (List.replicate (n + 1) '\x00') =
        0 :: Utf16.units (List.replicate n '\x00') := rfl
    rw [hchar, List.flatMap_cons, List.length_append, ih, length_encodeUnit]
    simp only [Nat.reduceLeDiff, false_and, if_false, Nat.zero_le, if_true]
    omega

/-- The payload of a text is no other payload of it with more bytes behind it. -/
theorem eq_nil_of_encode_eq_append {raw more : Bytes} {s : String} (h : decode? raw = some s)
    (heq : encode s = raw ++ more) : more = [] := by
  obtain ⟨gs, rfl, hunits⟩ := decode?_eq_some_iff.mp h
  obtain ⟨gs', hgs', hunits'⟩ := decode?_eq_some_iff.mp (decode?_encode s)
  have hread : units? (spelled gs ++ more) = some (gs.map Group.unit) := by
    rw [← heq, hgs', hunits, ← hunits']
    exact units?_eq_some_iff.mpr ⟨gs', rfl, rfl⟩
  rw [units?_spelled_append] at hread
  obtain ⟨us, hus, happend⟩ := Option.map_eq_some_iff.mp hread
  obtain ⟨gs'', rfl, rfl⟩ := units?_eq_some_iff.mp hus
  have hnil : gs'' = [] := by simpa using happend
  rw [hnil]
  rfl

end ModifiedUtf8

namespace Coverage

/-! ### What blocks are read from -/

/-- A payload that fits in its field is read. -/
theorem reads_stringField {raw : Bytes} {s : String} (hlength : raw.length < 65536)
    (h : ModifiedUtf8.decode? raw = some s) : text.Reads (stringField raw) s := by
  have hword := reads_word16 (length_bigEndianBytes 2 raw.length)
  rw [bigEndian_bigEndianBytes, Nat.mod_eq_of_lt (show _ < 256 ^ 2 by omega)] at hword
  exact reads_text hword h

theorem word16_lt {c d : Cursor} {n : Nat} (h : word16 c = .ok (n, d)) : n < 65536 := by
  obtain ⟨⟨x, d'⟩, hx, hn⟩ := exists_of_bind_eq_ok h
  obtain ⟨rfl, rfl⟩ := Prod.mk.inj (Except.ok.inj hn)
  have hlt := bigEndian_lt x
  rwa [(take_eq_ok hx).1] at hlt

/-- A string that was read has a payload that fits in its field. -/
theorem exists_payload_of_text {c d : Cursor} {s : String} (h : text c = .ok (s, d)) :
    ∃ raw : Bytes, raw.length < 65536 ∧ ModifiedUtf8.decode? raw = some s := by
  obtain ⟨⟨n, d'⟩, hn, hbytes⟩ := exists_of_bind_eq_ok h
  obtain ⟨⟨raw, d''⟩, hraw, hs⟩ := exists_of_bind_eq_ok hbytes
  have hlength : raw.length = n := (take_eq_ok hraw).1
  refine ⟨raw, hlength ▸ word16_lt hn, ?_⟩
  dsimp only at hs
  split at hs
  · next s' hdecode =>
    obtain ⟨rfl, rfl⟩ := Prod.mk.inj (Except.ok.inj hs)
    exact hdecode
  · cases hs

theorem number_lt {c d : Cursor} {n : Nat} (h : number c = .ok (n, d)) : n < 2 ^ 32 := by
  obtain ⟨gs, -, -, -, -, rfl⟩ := number_eq_ok_iff.mp h
  exact Nat.mod_lt _ (by decide)

/-- The number of truth values that were read has thirty-two bits. -/
theorem length_lt_of_truthValues {c d : Cursor} {bs : List Bool}
    (h : truthValues c = .ok (bs, d)) : bs.length < 2 ^ 32 := by
  obtain ⟨⟨n, d'⟩, hn, hbytes⟩ := exists_of_bind_eq_ok h
  obtain ⟨⟨packed, d''⟩, -, hbits⟩ := exists_of_bind_eq_ok hbytes
  obtain ⟨rfl, rfl⟩ := Prod.mk.inj (Except.ok.inj hbits)
  exact Nat.lt_of_le_of_lt (List.length_take_le _ _) (number_lt hn)

/-- **What a block is read from**, by its kind. -/
theorem Block.cases_of_read {c d : Cursor} {b : Block} (h : block c = .ok (b, d)) :
    (∃ c', byte c = .ok (0x01, c') ∧ b = .header) ∨
    (∃ s c' d', byte c = .ok (0x10, c') ∧ b = .session s ∧ text c' = .ok (s.id, d')) ∨
    (∃ r c' c'' d' d'', byte c = .ok (0x11, c') ∧ b = .record r ∧ word64 c' = .ok (r.id, c'') ∧
      text c'' = .ok (r.name, d') ∧ truthValues d' = .ok (r.probes, d'')) := by
  rw [block_eq] at h
  obtain ⟨⟨kind, c'⟩, hkind, hfields⟩ := exists_of_bind_eq_ok h
  dsimp only [fieldsOf?] at hfields
  split at hfields
  · next fields hof =>
    split at hof
    · next h1 =>
      obtain rfl := Option.some.inj hof
      obtain ⟨_, -, hb⟩ := exists_of_bind_eq_ok hfields
      obtain ⟨rfl, -⟩ := Prod.mk.inj (Except.ok.inj hb)
      exact .inl ⟨c', h1 ▸ hkind, rfl⟩
    · split at hof
      · next h2 =>
        obtain rfl := Option.some.inj hof
        obtain ⟨⟨id, d'⟩, hid, hrest⟩ := exists_of_bind_eq_ok hfields
        obtain ⟨⟨begun, _⟩, -, hrest⟩ := exists_of_bind_eq_ok hrest
        obtain ⟨⟨dump, _⟩, -, hb⟩ := exists_of_bind_eq_ok hrest
        obtain ⟨rfl, -⟩ := Prod.mk.inj (Except.ok.inj hb)
        exact .inr (.inl ⟨⟨id, begun, dump⟩, c', d', h2 ▸ hkind, rfl, hid⟩)
      · split at hof
        · next h3 =>
          obtain rfl := Option.some.inj hof
          obtain ⟨⟨id, c''⟩, hid, hrest⟩ := exists_of_bind_eq_ok hfields
          obtain ⟨⟨name, d'⟩, hname, hrest⟩ := exists_of_bind_eq_ok hrest
          obtain ⟨⟨probes, d''⟩, hprobes, hb⟩ := exists_of_bind_eq_ok hrest
          obtain ⟨rfl, -⟩ := Prod.mk.inj (Except.ok.inj hb)
          exact .inr (.inr ⟨⟨id, name, probes⟩, c', c'', d', d'', h3 ▸ hkind, rfl, hid, hname,
            hprobes⟩)
        · cases hof
  · cases hfields

theorem SpellBlocks.exists_reads {y : Bytes} {bs : List Block} (h : SpellBlocks y bs) :
    ∀ b ∈ bs, ∃ c d, block c = .ok (b, d) := by
  induction h with
  | nil => exact nofun
  | cons head _ ih => exact List.forall_mem_cons.mpr ⟨⟨_, _, head.whole 0 []⟩, ih⟩

/-- The strings of an accepted file have payloads that fit in their fields. -/
theorem exists_payload_of_session {b : Bytes} {d : ExecutionData} (h : decode b = .ok d) :
    ∀ s ∈ d.sessions, ∃ raw : Bytes, raw.length < 65536 ∧
      ModifiedUtf8.decode? raw = some s.id := by
  obtain ⟨y, bs, rfl, hspell, rfl⟩ := decode_eq_ok_iff.mp h
  intro s hs
  obtain ⟨b, hb, hsession⟩ := List.mem_filterMap.mp hs
  obtain ⟨c, d, hread⟩ := hspell.exists_reads b hb
  obtain ⟨_, -, rfl⟩ | ⟨s', _, _, -, rfl, htext⟩ | ⟨_, _, _, _, _, -, rfl, -⟩ :=
    Block.cases_of_read hread
  · cases hsession
  · obtain rfl := Option.some.inj hsession
    exact exists_payload_of_text htext
  · cases hsession

/-- So have the names of its classes, and their probes can be counted. -/
theorem exists_payload_of_record {b : Bytes} {d : ExecutionData} (h : decode b = .ok d) :
    ∀ r ∈ d.records, (∃ raw : Bytes, raw.length < 65536 ∧
      ModifiedUtf8.decode? raw = some r.name) ∧ r.probes.length < 2 ^ 32 := by
  obtain ⟨y, bs, rfl, hspell, rfl⟩ := decode_eq_ok_iff.mp h
  intro r hr
  obtain ⟨b, hb, hrecord⟩ := List.mem_filterMap.mp hr
  obtain ⟨c, d, hread⟩ := hspell.exists_reads b hb
  obtain ⟨_, -, rfl⟩ | ⟨_, _, _, -, rfl, -⟩ | ⟨r', _, _, _, _, -, rfl, -, htext, hprobes⟩ :=
    Block.cases_of_read hread
  · cases hrecord
  · cases hrecord
  · obtain rfl := Option.some.inj hrecord
    exact ⟨exists_payload_of_text htext, length_lt_of_truthValues hprobes⟩

/-! ### What is read back -/

/-- **A string that is read back has a payload that fits.** Of one that does not, only the beginning
is taken for the string. -/
theorem text_textBytes_append {s : String} {offset : Nat} {rest : Bytes} {d : Cursor}
    (h : text ⟨offset, textBytes s ++ rest⟩ = .ok (s, d)) :
    (ModifiedUtf8.encode s).length ≤ 65535 := by
  by_contra hlong
  have hword := reads_word16 (length_bigEndianBytes 2 (ModifiedUtf8.encode s).length)
  rw [bigEndian_bigEndianBytes] at hword
  obtain ⟨⟨n, d'⟩, hn, hbytes⟩ := exists_of_bind_eq_ok h
  rw [textBytes, List.append_assoc, hword.whole] at hn
  obtain ⟨rfl, rfl⟩ := Prod.mk.inj (Except.ok.inj hn)
  obtain ⟨⟨raw, d''⟩, hraw, hs⟩ := exists_of_bind_eq_ok hbytes
  obtain ⟨hlength, hrest⟩ := take_eq_ok hraw
  have hdecode : ModifiedUtf8.decode? raw = some s := by
    dsimp only at hs
    split at hs
    · next s' hdecode =>
      obtain ⟨rfl, -⟩ := Prod.mk.inj (Except.ok.inj hs)
      exact hdecode
    · cases hs
  have hshort : raw.length < (ModifiedUtf8.encode s).length := by
    rw [hlength]
    omega
  obtain ⟨more, hmore⟩ : raw <+: ModifiedUtf8.encode s :=
    List.prefix_of_prefix_length_le ⟨d''.rest, hrest.symm⟩ (List.prefix_append _ _)
      (Nat.le_of_lt hshort)
  obtain rfl := ModifiedUtf8.eq_nil_of_encode_eq_append hdecode hmore.symm
  rw [← hmore, List.append_nil] at hshort
  exact Nat.lt_irrefl _ hshort

/-- The identifier of a session fits in its field. -/
def SessionFits (s : SessionInfo) : Prop := (ModifiedUtf8.encode s.id).length ≤ 65535

/-- The name of a class fits in its field, and the number of its probes in what is written of it. -/
def RecordFits (r : ExecutionRecord) : Prop :=
  (ModifiedUtf8.encode r.name).length ≤ 65535 ∧ r.probes.length < 2 ^ 32

/-- A session that is read back fits. -/
theorem fits_of_block_sessionBytes {s : SessionInfo} {rest : Bytes} {b : Block} {d : Cursor}
    (h : block ⟨0, sessionBytes s ++ rest⟩ = .ok (b, d)) :
    ∃ s', b.session? = some s' ∧ (s' = s → SessionFits s) := by
  have hbyte (more : Bytes) : byte ⟨0, 0x10 :: more⟩ = .ok (0x10, ⟨1, more⟩) :=
    (reads_byte 0x10).whole 0 more
  rw [sessionBytes, List.append_assoc, List.append_assoc, List.cons_append] at h
  obtain ⟨c', hkind, -⟩ | ⟨s', c', d', hkind, rfl, htext⟩ | ⟨_, _, _, _, _, hkind, -⟩ :=
    Block.cases_of_read h
  · cases (hbyte _).symm.trans hkind
  · obtain ⟨-, rfl⟩ := Prod.mk.inj (Except.ok.inj ((hbyte _).symm.trans hkind))
    refine ⟨s', rfl, ?_⟩
    rintro rfl
    exact text_textBytes_append htext
  · cases (hbyte _).symm.trans hkind

/-- A record that is read back fits. -/
theorem fits_of_block_recordBytes {r : ExecutionRecord} {rest : Bytes} {b : Block} {d : Cursor}
    (h : block ⟨0, recordBytes r ++ rest⟩ = .ok (b, d)) :
    ∃ r', b.record? = some r' ∧ (r' = r → RecordFits r) := by
  have hbyte (more : Bytes) : byte ⟨0, 0x11 :: more⟩ = .ok (0x11, ⟨1, more⟩) :=
    (reads_byte 0x11).whole 0 more
  rw [recordBytes, List.append_assoc, List.append_assoc, List.append_assoc, List.cons_append] at h
  obtain ⟨c', hkind, -⟩ | ⟨_, _, _, hkind, -⟩ | ⟨r', c', c'', d', d'', hkind, rfl, hid, htext,
    hprobes⟩ := Block.cases_of_read h
  · cases (hbyte _).symm.trans hkind
  · cases (hbyte _).symm.trans hkind
  · obtain ⟨-, rfl⟩ := Prod.mk.inj (Except.ok.inj ((hbyte _).symm.trans hkind))
    refine ⟨r', rfl, ?_⟩
    rintro rfl
    rw [(reads_wordBytes r'.id).whole] at hid
    obtain ⟨-, rfl⟩ := Prod.mk.inj (Except.ok.inj hid)
    exact ⟨text_textBytes_append htext, length_lt_of_truthValues hprobes⟩

/-- **Blocks that are read back.** If what is written one by one is read as blocks with these values
in front, each of the values fits, and its block is the one that was written. -/
theorem SpellBlocks.of_written {α : Type} {write : α → Bytes} {toBlock : α → Block}
    {pick : Block → Option α} {Fits : α → Prop}
    (hreads : ∀ x, Fits x → block.Reads (write x) (toBlock x))
    (hfits : ∀ {x rest b d}, block ⟨0, write x ++ rest⟩ = .ok (b, d) →
      ∃ x', pick b = some x' ∧ (x' = x → Fits x))
    {xs later : List α} {z : Bytes} {bs : List Block}
    (hspell : SpellBlocks (xs.flatMap write ++ z) bs) (hpick : bs.filterMap pick = xs ++ later) :
    (∀ x ∈ xs, Fits x) ∧ ∃ bs', bs = xs.map toBlock ++ bs' ∧ SpellBlocks z bs' := by
  induction xs generalizing bs with
  | nil => exact ⟨nofun, bs, rfl, hspell⟩
  | cons x xs ih =>
    rw [List.flatMap_cons, List.append_assoc] at hspell
    generalize hy : write x ++ (xs.flatMap write ++ z) = y at hspell
    cases hspell with
    | nil => cases hpick
    | @cons x₀ y₀ b bs head tail =>
      have hread : block ⟨0, write x ++ (xs.flatMap write ++ z)⟩ = .ok (b, ⟨0 + x₀.length, y₀⟩) :=
        hy ▸ head.whole 0 y₀
      obtain ⟨x', hx', hfit⟩ := hfits hread
      rw [List.filterMap_cons_some hx', List.cons_append] at hpick
      obtain ⟨rfl, htail⟩ := List.cons.inj hpick
      have hx := hfit rfl
      rw [(hreads x' hx).whole] at hread
      obtain ⟨rfl, hcursor⟩ := Prod.mk.inj (Except.ok.inj hread)
      obtain rfl := (Cursor.mk.inj hcursor).2
      obtain ⟨hxs, bs', rfl, hz⟩ := ih tail htail
      exact ⟨List.forall_mem_cons.mpr ⟨hx, hxs⟩, bs', rfl, hz⟩

/-- **Data that are read back** fit in what is written of them. -/
theorem fits_of_decode_encode {d : ExecutionData} (h : decode (encode d) = .ok d) :
    (∀ s ∈ d.sessions, SessionFits s) ∧ ∀ r ∈ d.records, RecordFits r := by
  obtain ⟨y, bs, hy, hspell, hd⟩ := decode_eq_ok_iff.mp h
  have hencode : encode d =
      preamble ++ (d.sessions.flatMap sessionBytes ++ d.records.flatMap recordBytes) := by
    have hpreamble : magic ++ bigEndianBytes 2 version = preamble := rfl
    rw [encode, hpreamble, List.append_assoc]
  obtain rfl := List.append_cancel_left (hencode.symm.trans hy)
  have hsessions : bs.filterMap (·.session?) = d.sessions ++ [] := by
    rw [List.append_nil]
    exact (congrArg ExecutionData.sessions hd).symm
  obtain ⟨hids, bs', rfl, hlater⟩ :=
    hspell.of_written (fun _ => reads_sessionBytes) fits_of_block_sessionBytes hsessions
  have hnone : (d.sessions.map Block.session).filterMap (·.record?) = [] := by
    simp [List.filterMap_map, Block.record?]
  have hrecords : bs'.filterMap (·.record?) = d.records ++ [] := by
    rw [List.append_nil, ← List.nil_append (bs'.filterMap _), ← hnone, ← List.filterMap_append]
    exact (congrArg ExecutionData.records hd).symm
  rw [← List.append_nil (d.records.flatMap recordBytes)] at hlater
  obtain ⟨hnames, -⟩ :=
    hlater.of_written (fun _ hr => reads_recordBytes hr.1 hr.2) fits_of_block_recordBytes hrecords
  exact ⟨hids, hnames⟩

/-- **Written again, an accepted file keeps its content** iff the canonical form of each of its
strings fits in the sixteen bits of its length. It does if no string has a zero character. -/
theorem reencoding_keeps_content_iff {b : Bytes} {d : ExecutionData} (h : decode b = .ok d) :
    (decode (encode d) = .ok d ↔
      (∀ s ∈ d.sessions, (ModifiedUtf8.encode s.id).length ≤ 65535) ∧
        ∀ r ∈ d.records, (ModifiedUtf8.encode r.name).length ≤ 65535) ∧
    ((∀ s ∈ d.sessions, '\x00' ∉ s.id.toList) → (∀ r ∈ d.records, '\x00' ∉ r.name.toList) →
      decode (encode d) = .ok d) := by
  have hiff : decode (encode d) = .ok d ↔
      (∀ s ∈ d.sessions, (ModifiedUtf8.encode s.id).length ≤ 65535) ∧
        ∀ r ∈ d.records, (ModifiedUtf8.encode r.name).length ≤ 65535 := by
    constructor
    · intro hback
      obtain ⟨hsessions, hrecords⟩ := fits_of_decode_encode hback
      exact ⟨hsessions, fun r hr => (hrecords r hr).1⟩
    · rintro ⟨hsessions, hrecords⟩
      exact decode_encode hsessions fun r hr =>
        ⟨hrecords r hr, (exists_payload_of_record h r hr).2⟩
  have hplain {raw : Bytes} {s : String} (hlength : raw.length < 65536)
      (hs : ModifiedUtf8.decode? raw = some s) (hzero : '\x00' ∉ s.toList) :
      (ModifiedUtf8.encode s).length ≤ 65535 := by
    have hle := ModifiedUtf8.length_encode_le hs
    rw [List.count_eq_zero.mpr hzero] at hle
    omega
  refine ⟨hiff, fun hids hnames => hiff.mpr ⟨fun s hs => ?_, fun r hr => ?_⟩⟩
  · obtain ⟨raw, hlength, hraw⟩ := exists_payload_of_session h s hs
    exact hplain hlength hraw (hids s hs)
  · obtain ⟨⟨raw, hlength, hraw⟩, -⟩ := exists_payload_of_record h r hr
    exact hplain hlength hraw (hnames r hr)

/-- A file that nobody writes so: a header between the blocks, a zero in one byte, an `A` in three
bytes, two probes whose number has two groups, and all the bits set behind them. -/
theorem reencoding_keeps_loose_file :
    let r : ExecutionRecord := ⟨7, "\x00A", [true, true]⟩
    let b := preamble ++ (preamble ++ ((0x11 :: bigEndianBytes 8 7) ++
      (stringField [0x00, 0xE0, 0x81, 0x81] ++ [0x82, 0x00, 0xFF])))
    decode b = .ok ⟨[], [r]⟩ ∧ encode ⟨[], [r]⟩ ≠ b ∧
      decode (encode ⟨[], [r]⟩) = .ok ⟨[], [r]⟩ := by
  intro r b
  have hread : decode b = .ok ⟨[], [r]⟩ := by decide
  have hother : encode ⟨[], [r]⟩ ≠ b := by decide
  exact ⟨hread, hother,
    (reencoding_keeps_content_iff hread).1.mpr ⟨nofun, by decide⟩⟩

/-- The file of a session whose identifier has so many zero characters, each in one byte. -/
def fileOfZeros (n : Nat) : Bytes :=
  preamble ++ (0x10 :: (stringField (List.replicate n 0) ++
    (bigEndianBytes 8 0 ++ bigEndianBytes 8 0)))

theorem decode_fileOfZeros {n : Nat} (h : n < 65536) :
    decode (fileOfZeros n) = .ok ⟨[⟨String.ofList (List.replicate n '\x00'), 0, 0⟩], []⟩ := by
  have hid : text.Reads (stringField (List.replicate n 0))
      (String.ofList (List.replicate n '\x00')) :=
    reads_stringField (by rwa [List.length_replicate]) (ModifiedUtf8.decode?_zeros n)
  have htime : word64.Reads (bigEndianBytes 8 0) 0 := reads_wordBytes 0
  have hsession := reads_block rfl (reads_byte 0x10)
    (reads_sessionFields (s := ⟨_, 0, 0⟩) hid htime htime)
  have hspell := SpellBlocks.cons hsession .nil
  rw [List.append_nil] at hspell
  exact decode_eq_ok_iff.mpr ⟨_, _, rfl, hspell, rfl⟩

/-- **An identifier that does not fit when it is written again**: of 32768 zero characters, each of
which was read from one byte. -/
theorem reencoding_loses_zeros :
    let id := String.ofList (List.replicate 32768 '\x00')
    decode (fileOfZeros 32768) = .ok ⟨[⟨id, 0, 0⟩], []⟩ ∧
      decode (encode ⟨[⟨id, 0, 0⟩], []⟩) ≠ .ok ⟨[⟨id, 0, 0⟩], []⟩ := by
  intro id
  refine ⟨decode_fileOfZeros (by decide), fun hback => ?_⟩
  have hfits := (fits_of_decode_encode hback).1 _ (List.mem_singleton_self _)
  rw [SessionFits, ModifiedUtf8.length_encode_zeros] at hfits
  omega

end Coverage

end MutationTesting
