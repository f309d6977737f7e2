import Mathlib.Logic.Relation
import MutationTesting.Proofs.Coverage.Reader
/-!
# Files as sequences of blocks

The bytes that are accepted as a coverage file are a first header and any number of blocks, each of
which is read from its own bytes. What can be said of files that are put together or cut off follows
from this: where one file is appended to another, the first header of the second is one more block
between the blocks of both; where a file is cut off, all blocks before the cut are as they were, and
the reader notices the cut unless it lies between two blocks.

## Main definitions

* `SpellBlocks` — bytes that are blocks, one behind the other
* `ExecutionData.ofBlocks` — what blocks add to the data
* `IsBoundary` — the places of a file between its blocks

## Main results

* `decode_eq_ok_iff` — the files that are accepted, and their data
* `blocks_take` — the reading of blocks that are cut off
* `decode_append` — files that are appended to one another
* `decode_take` — files that are cut off
-/

namespace MutationTesting

namespace Coverage

/-- The session of a session block. -/
def Block.session? : Block → Option SessionInfo
  | .session s => some s
  | _ => none

/-- The record of a record block. -/
def Block.record? : Block → Option ExecutionRecord
  | .record r => some r
  | _ => none

end Coverage

open Coverage

/-- The data of a file with the given blocks. -/
def ExecutionData.ofBlocks (bs : List Block) : ExecutionData :=
  ⟨bs.filterMap (·.session?), bs.filterMap (·.record?)⟩

theorem ExecutionData.ofBlocks_append (bs bs' : List Block) :
    ofBlocks (bs ++ bs') = ⟨(ofBlocks bs).sessions ++ (ofBlocks bs').sessions,
      (ofBlocks bs).records ++ (ofBlocks bs').records⟩ := by
  simp [ofBlocks]

namespace Coverage

/-- The bytes are those of the blocks, one block behind the other. -/
inductive SpellBlocks : Bytes → List Block → Prop where
  | nil : SpellBlocks [] []
  | cons {x y : Bytes} {b : Block} {bs : List Block} (head : block.Reads x b)
      (tail : SpellBlocks y bs) : SpellBlocks (x ++ y) (b :: bs)

theorem SpellBlocks.append {x y : Bytes} {bs bs' : List Block} (hx : SpellBlocks x bs)
    (hy : SpellBlocks y bs') : SpellBlocks (x ++ y) (bs ++ bs') := by
  induction hx with
  | nil => exact hy
  | cons head _ ih =>
    rw [List.append_assoc]
    exact .cons head ih

/-- A block has at least the byte of its kind. -/
theorem Reader.Reads.ne_nil {x : Bytes} {b : Block} (h : block.Reads x b) : x ≠ [] := by
  rintro rfl
  exact nomatch h.whole 0 []

/-! ### The reading of blocks -/

/-- What blocks add to lists that hold the latest first. -/
theorem foldl_addTo (bs : List Block) (data : ExecutionData) :
    bs.foldl Block.addTo data =
      ⟨(ExecutionData.ofBlocks bs).sessions.reverse ++ data.sessions,
        (ExecutionData.ofBlocks bs).records.reverse ++ data.records⟩ := by
  induction bs generalizing data with
  | nil => rfl
  | cons b bs ih =>
    rw [List.foldl_cons, ih]
    cases b <;> simp [ExecutionData.ofBlocks, Block.addTo, Block.session?, Block.record?]

/-- With bytes left, a block is read. -/
theorem blocks_of_ne_nil (data : ExecutionData) (fuel : Nat) {c : Cursor} (h : c.rest ≠ []) :
    blocks data (fuel + 1) c = block c >>= fun p => blocks (p.1.addTo data) fuel p.2 := by
  rw [blocks, if_neg (by simpa using h)]

/-- Behind a block, the reading goes on with what it has added. -/
theorem blocks_append {x y : Bytes} {b : Block} (h : block.Reads x b) (data : ExecutionData)
    (offset fuel : Nat) :
    blocks data (fuel + 1) ⟨offset, x ++ y⟩ =
      blocks (b.addTo data) fuel ⟨offset + x.length, y⟩ := by
  have hne : x ++ y ≠ [] := fun hnil => h.ne_nil (List.append_eq_nil_iff.mp hnil).1
  rw [blocks_of_ne_nil data fuel hne, h.whole]
  rfl

/-- Blocks are read to the end of the file. -/
theorem SpellBlocks.blocks_eq {y : Bytes} {bs : List Block} (h : SpellBlocks y bs)
    (data : ExecutionData) (offset : Nat) {fuel : Nat} (hfuel : y.length ≤ fuel) :
    blocks data fuel ⟨offset, y⟩ = .ok (bs.foldl Block.addTo data) := by
  induction h generalizing data offset fuel with
  | nil => cases fuel <;> rfl
  | @cons x y b bs head _ ih =>
    have hpos : 0 < x.length := List.length_pos_iff.mpr head.ne_nil
    rw [List.length_append] at hfuel
    obtain ⟨fuel, rfl⟩ : ∃ fuel', fuel = fuel' + 1 := Nat.exists_eq_add_of_le' (by omega)
    rw [blocks_append head]
    exact ih _ _ (by omega)

/-- What has been read are blocks. -/
theorem spellBlocks_of_blocks {data data' : ExecutionData} {fuel : Nat} {c : Cursor}
    (h : blocks data fuel c = .ok data') (hfuel : c.rest.length ≤ fuel) :
    ∃ bs, SpellBlocks c.rest bs ∧ data' = bs.foldl Block.addTo data := by
  induction fuel generalizing data c with
  | zero =>
    rw [List.eq_nil_of_length_eq_zero (Nat.le_zero.mp hfuel)]
    exact ⟨[], .nil, (Except.ok.inj h).symm⟩
  | succ fuel ih =>
    by_cases hc : c.rest = []
    · rw [blocks, if_pos (by simpa using hc)] at h
      rw [hc]
      exact ⟨[], .nil, (Except.ok.inj h).symm⟩
    · rw [blocks_of_ne_nil data fuel hc] at h
      obtain ⟨⟨b, d⟩, hd, hblocks⟩ := exists_of_bind_eq_ok h
      obtain ⟨x, hx, hreads⟩ := isLocal_block c b d hd
      have hpos : 0 < x.length := List.length_pos_iff.mpr hreads.ne_nil
      rw [hx, List.length_append] at hfuel
      have hd' : d.rest.length ≤ fuel := by omega
      obtain ⟨bs, hbs, rfl⟩ := ih hblocks hd'
      exact ⟨b :: bs, hx ▸ .cons hreads hbs, rfl⟩

/-! ### Whole files -/

/-- What follows the first byte of a header. -/
def headerBytes : Bytes := magic.drop 1 ++ bigEndianBytes 2 version

/-- The bytes with which every file begins. -/
def preamble : Bytes := 0x01 :: headerBytes

theorem reads_headerBytes : header.Reads headerBytes () := by
  have hmagic : (take 2).Reads (magic.drop 1) (magic.drop 1) := reads_take rfl
  have hversion : word16.Reads (bigEndianBytes 2 version) version :=
    reads_word16 (x := bigEndianBytes 2 version) rfl
  refine hmagic.bind fun _ => ?_
  simp only [if_neg (not_not.mpr (rfl : magic.drop 1 = magic.drop 1))]
  rw [← List.append_nil (bigEndianBytes 2 version)]
  refine hversion.bind fun _ => ?_
  simp only [if_neg (not_not.mpr (rfl : version = version))]
  exact reads_pure ()

/-- A header has this form only. -/
theorem header_eq_ok {c d : Cursor} (h : header c = .ok ((), d)) :
    c.rest = headerBytes ++ d.rest := by
  obtain ⟨⟨found, c'⟩, hfound, hrest⟩ := exists_of_bind_eq_ok h
  dsimp only at hrest
  split at hrest
  · cases hrest
  · next hmagic =>
    obtain ⟨⟨v, d'⟩, hv, hend⟩ := exists_of_bind_eq_ok hrest
    dsimp only at hend
    split at hend
    · cases hend
    · next hversion =>
      obtain ⟨⟨x, e⟩, hx, hword⟩ := exists_of_bind_eq_ok hv
      obtain ⟨hlength, hx'⟩ := take_eq_ok hx
      obtain ⟨rfl, rfl⟩ := Prod.mk.inj (Except.ok.inj hword)
      obtain ⟨-, rfl⟩ := Prod.mk.inj (Except.ok.inj hend)
      have hbytes : x = bigEndianBytes 2 version := by
        rw [← not_not.mp hversion, ← hlength]
        exact eq_bigEndianBytes x
      rw [(take_eq_ok hfound).2, not_not.mp hmagic, hx', hbytes, headerBytes, List.append_assoc]

/-- A header between the blocks of a file adds nothing. -/
theorem reads_preamble : block.Reads preamble .header :=
  reads_block rfl (reads_byte 0x01) (reads_headerBytes.map fun _ => Block.header)

/-- A file with the right first bytes is read on. -/
theorem decode_of_magic {x : Bytes} (h : x.take 3 = magic) :
    decode x = header ⟨1, x.drop 1⟩ >>= fun p => blocks ⟨[], []⟩ x.length p.2 >>= fun data =>
      .ok ⟨data.sessions.reverse, data.records.reverse⟩ := by
  have hmagic : validateHeader x = .ok () := if_pos h
  rw [decode, hmagic]
  rfl

/-- A file that begins with a header is read on behind it. -/
theorem decode_preamble_append (y : Bytes) :
    decode (preamble ++ y) = blocks ⟨[], []⟩ (preamble ++ y).length ⟨5, y⟩ >>= fun data =>
      .ok ⟨data.sessions.reverse, data.records.reverse⟩ := by
  have hheader : header ⟨1, (preamble ++ y).drop 1⟩ = .ok ((), ⟨5, y⟩) :=
    reads_headerBytes.whole 1 y
  rw [decode_of_magic rfl, hheader]
  rfl

/-- Only files that begin with a header are accepted. -/
theorem exists_of_decode_eq_ok {x : Bytes} {d : ExecutionData} (h : decode x = .ok d) :
    ∃ y, x = preamble ++ y := by
  obtain ⟨⟨⟩, hmagic, hread⟩ := exists_of_bind_eq_ok h
  obtain ⟨⟨⟨⟩, c⟩, hheader, -⟩ := exists_of_bind_eq_ok hread
  have hx : x.take 3 = magic := by
    rw [validateHeader] at hmagic
    split at hmagic
    · assumption
    · cases hmagic
  have hfirst : x.take 1 = [0x01] := by
    have hmin : min 1 3 = 1 := rfl
    rw [← hmin, ← List.take_take, hx]
    rfl
  have hrest : x.drop 1 = headerBytes ++ c.rest := header_eq_ok hheader
  refine ⟨c.rest, ?_⟩
  rw [← x.take_append_drop 1, hfirst, hrest]
  rfl

/-- **The files that are accepted** are blocks behind a header, and their data are what the blocks
add. -/
theorem decode_eq_ok_iff {x : Bytes} {d : ExecutionData} :
    decode x = .ok d ↔ ∃ y bs, x = preamble ++ y ∧ SpellBlocks y bs ∧ d = .ofBlocks bs := by
  have hdata (bs : List Block) :
      (⟨(bs.foldl Block.addTo ⟨[], []⟩).sessions.reverse,
        (bs.foldl Block.addTo ⟨[], []⟩).records.reverse⟩ : ExecutionData) = .ofBlocks bs := by
    simp [foldl_addTo]
  have hlength (y : Bytes) : y.length ≤ (preamble ++ y).length := by simp
  constructor
  · intro h
    obtain ⟨y, rfl⟩ := exists_of_decode_eq_ok h
    rw [decode_preamble_append] at h
    obtain ⟨data, hblocks, hd⟩ := exists_of_bind_eq_ok h
    obtain ⟨bs, hy, rfl⟩ := spellBlocks_of_blocks hblocks (hlength y)
    exact ⟨y, bs, rfl, hy, (Except.ok.inj hd).symm.trans (hdata bs)⟩
  · rintro ⟨y, bs, rfl, hy, rfl⟩
    rw [decode_preamble_append, hy.blocks_eq _ _ (hlength y), ← hdata]
    rfl

/-! ### Files that are appended to one another -/

/-- **Appended files** are read as the data of one after the data of the other. The header of the
second one is taken for a block between those of both. -/
theorem decode_append {x y : Bytes} {d e : ExecutionData} (hx : decode x = .ok d)
    (hy : decode y = .ok e) :
    decode (x ++ y) = .ok ⟨d.sessions ++ e.sessions, d.records ++ e.records⟩ := by
  obtain ⟨x, bs, rfl, hxs, rfl⟩ := decode_eq_ok_iff.mp hx
  obtain ⟨y, bs', rfl, hys, rfl⟩ := decode_eq_ok_iff.mp hy
  have hboth : SpellBlocks (x ++ (preamble ++ y)) (bs ++ .header :: bs') :=
    hxs.append (.cons reads_preamble hys)
  refine decode_eq_ok_iff.mpr ⟨_, _, List.append_assoc .., hboth, ?_⟩
  exact (ExecutionData.ofBlocks_append bs (.header :: bs')).symm

/-- Two files, each with a record. The second one has bytes that are not written so: its number of
probes takes a byte more than it needs, and the bits behind its probes are set. -/
theorem decode_two_records :
    let x := encode ⟨[⟨"one", 1, 2⟩], [⟨7, "a/A", [true, false]⟩]⟩
    let y := preamble ++ 0x11 :: bigEndianBytes 8 8 ++ textBytes "b/B" ++ [0x81, 0x00, 0xFF]
    decode x = .ok ⟨[⟨"one", 1, 2⟩], [⟨7, "a/A", [true, false]⟩]⟩ ∧
      decode y = .ok ⟨[], [⟨8, "b/B", [true]⟩]⟩ ∧
      decode (x ++ y) =
        .ok ⟨[⟨"one", 1, 2⟩], [⟨7, "a/A", [true, false]⟩, ⟨8, "b/B", [true]⟩]⟩ := by
  intro x y
  have hx : decode x = .ok ⟨[⟨"one", 1, 2⟩], [⟨7, "a/A", [true, false]⟩]⟩ := by decide +kernel
  have hy : decode y = .ok ⟨[], [⟨8, "b/B", [true]⟩]⟩ := by decide +kernel
  exact ⟨hx, hy, decode_append hx hy⟩

/-! ### Files that are cut off -/

/-- The reading of a block takes a cursor to another one. -/
def Advances (c d : Cursor) : Prop := ∃ b, block c = .ok (b, d)

/-- The reading of blocks from a cursor comes by an offset. -/
def ComesBy (c : Cursor) (n : Nat) : Prop := ∃ d, Relation.ReflTransGen Advances c d ∧ d.offset = n

/-- The places of a file between its blocks: where its first header ends, and where a block ends
that is read behind it. -/
def IsBoundary (x : Bytes) (n : Nat) : Prop := ComesBy ⟨5, x.drop 5⟩ n

theorem ComesBy.offset_le {c : Cursor} {n : Nat} (h : ComesBy c n) : c.offset ≤ n := by
  obtain ⟨d, hd, rfl⟩ := h
  induction hd with
  | refl => exact Nat.le_refl _
  | tail _ hstep ih =>
    obtain ⟨b, hb⟩ := hstep
    exact Nat.le_trans ih (isLocal_block.offset_le hb)

/-- Behind a block, its end is the next place to come by. -/
theorem comesBy_append_iff {x y : Bytes} {b : Block} {offset n : Nat} (h : block.Reads x b) :
    ComesBy ⟨offset, x ++ y⟩ n ↔ n = offset ∨ ComesBy ⟨offset + x.length, y⟩ n := by
  constructor
  · rintro ⟨d, hd, rfl⟩
    obtain rfl | ⟨e, ⟨b', he⟩, hde⟩ := Relation.ReflTransGen.cases_head hd
    · exact .inl rfl
    · obtain ⟨-, rfl⟩ := Prod.mk.inj (Except.ok.inj (he.symm.trans (h.whole offset y)))
      exact .inr ⟨d, hde, rfl⟩
  · rintro (rfl | ⟨d, hd, rfl⟩)
    · exact ⟨_, .refl, rfl⟩
    · exact ⟨d, .head ⟨b, h.whole offset y⟩ hd, rfl⟩

/-- A block that is cut off behind its first byte is not read. -/
theorem blocks_take_within {x : Bytes} {b : Block} (h : block.Reads x b) (offset : Nat) {n : Nat}
    (hpos : 0 < n) (hn : n < x.length) :
    ∃ k ≤ offset + n, ∀ data fuel, n ≤ fuel →
      blocks data fuel ⟨offset, x.take n⟩ = .error (.truncated k) := by
  obtain ⟨k, hk, hfail⟩ := h.cut offset n hn
  refine ⟨k, hk, fun data fuel hfuel => ?_⟩
  obtain ⟨fuel, rfl⟩ : ∃ fuel', fuel = fuel' + 1 := Nat.exists_eq_add_of_le' (by omega)
  have hne : x.take n ≠ [] := fun hnil =>
    (List.take_eq_nil_iff.mp hnil).elim (Nat.ne_of_gt hpos) h.ne_nil
  rw [blocks_of_ne_nil data fuel hne, hfail]
  rfl

/-- **Blocks that are cut off.** Between two of them the reading ends as if no others had followed;
within one of them it fails. -/
theorem SpellBlocks.blocks_take {y : Bytes} {bs : List Block} (h : SpellBlocks y bs)
    (offset : Nat) {n : Nat} (hn : n ≤ y.length) :
    (ComesBy ⟨offset, y⟩ (offset + n) ∧ ∃ bs', bs' <+: bs ∧ SpellBlocks (y.take n) bs') ∨
      (¬ ComesBy ⟨offset, y⟩ (offset + n) ∧ ∃ k ≤ offset + n, ∀ data fuel, n ≤ fuel →
        blocks data fuel ⟨offset, y.take n⟩ = .error (.truncated k)) := by
  induction h generalizing offset n with
  | nil =>
    obtain rfl : n = 0 := Nat.le_zero.mp hn
    exact .inl ⟨⟨_, .refl, rfl⟩, [], List.nil_prefix, .nil⟩
  | @cons x y b bs head tail ih =>
    rw [comesBy_append_iff head]
    obtain rfl | hpos := Nat.eq_zero_or_pos n
    · exact .inl ⟨.inl rfl, [], List.nil_prefix, .nil⟩
    by_cases hcut : n < x.length
    · -- the cut lies within the first block
      have hnot : ¬ ComesBy ⟨offset + x.length, y⟩ (offset + n) := fun hby => by
        have hle : offset + x.length ≤ offset + n := hby.offset_le
        omega
      rw [List.take_append_of_le_length (Nat.le_of_lt hcut)]
      exact .inr ⟨not_or.mpr ⟨by omega, hnot⟩, blocks_take_within head offset hpos hcut⟩
    · -- the first block stays, and the cut lies behind it
      have hle : x.length ≤ n := Nat.le_of_not_lt hcut
      have htake : (x ++ y).take n = x ++ y.take (n - x.length) := by
        rw [List.take_append, List.take_of_length_le hle]
      have hoffset : offset + n = offset + x.length + (n - x.length) := by omega
      have hrest : n - x.length ≤ y.length := by
        rw [List.length_append] at hn
        omega
      rw [htake, hoffset]
      obtain ⟨hby, bs', hprefix, hspell⟩ | ⟨hnot, k, hk, hfail⟩ := ih (offset + x.length) hrest
      · exact .inl ⟨.inr hby, b :: bs', (List.prefix_cons_inj b).mpr hprefix, .cons head hspell⟩
      · have hpos' : 0 < x.length := List.length_pos_iff.mpr head.ne_nil
        refine .inr ⟨not_or.mpr ⟨by omega, hnot⟩, k, hk, fun data fuel hfuel => ?_⟩
        obtain ⟨fuel, rfl⟩ : ∃ fuel', fuel = fuel' + 1 := Nat.exists_eq_add_of_le' (by omega)
        rw [blocks_append head]
        exact hfail _ fuel (by omega)

/-- Too few bytes for the first check of a file are shown in its failure. -/
theorem decode_of_length_lt {x : Bytes} (h : x.length < 3) : decode x = .error (.badMagic x) := by
  have htake : x.take 3 = x := List.take_of_length_le (Nat.le_of_lt h)
  have hne : x ≠ magic := fun heq => absurd (heq ▸ h) (by decide)
  have hvalidate : validateHeader x = .error (.badMagic x) := by
    rw [validateHeader, htake, if_neg hne]
  rw [decode, hvalidate]
  rfl

/-- The version of a file is cut off. -/
theorem decode_take_preamble {n : Nat} (hmagic : 3 ≤ n) (hn : n < 5) :
    ∃ k ≤ n, decode (preamble.take n) = .error (.truncated k) := by
  have htake : (preamble.take n).take 3 = magic := by
    rw [List.take_take, Nat.min_eq_left hmagic]
    rfl
  obtain ⟨k, hk, hfail⟩ := reads_headerBytes.cut 1 (n - 1) (show n - 1 < 4 by omega)
  refine ⟨k, by omega, ?_⟩
  rw [decode_of_magic htake, List.drop_take, show preamble.drop 1 = headerBytes from rfl, hfail]
  rfl

/-- Blocks behind the first header of a file are cut off. -/
theorem SpellBlocks.decode_preamble_take {y : Bytes} {bs : List Block} (h : SpellBlocks y bs)
    {n : Nat} (hn : n ≤ y.length) :
    (IsBoundary (preamble ++ y) (5 + n) ∧
      ∃ bs', bs' <+: bs ∧ decode (preamble ++ y.take n) = .ok (.ofBlocks bs')) ∨
      (¬ IsBoundary (preamble ++ y) (5 + n) ∧
        ∃ k ≤ 5 + n, decode (preamble ++ y.take n) = .error (.truncated k)) := by
  obtain ⟨hby, bs', hprefix, hspell⟩ | ⟨hnot, k, hk, hfail⟩ := h.blocks_take 5 hn
  · exact .inl ⟨hby, bs', hprefix, decode_eq_ok_iff.mpr ⟨_, bs', rfl, hspell, rfl⟩⟩
  · have hfuel : n ≤ (preamble ++ y.take n).length := by
      rw [List.length_append, List.length_take_of_le hn]
      exact Nat.le_add_left _ _
    refine .inr ⟨hnot, k, hk, ?_⟩
    rw [decode_preamble_append, hfail _ _ hfuel]
    rfl

/-- **A file that is cut off** is refused for its first bytes if not all three of them are left, and
as truncated, unless the cut lies between two blocks behind the first header. Then, and only then,
it is accepted, with the data of the blocks that are left. -/
theorem decode_take {x : Bytes} {d : ExecutionData} (hx : decode x = .ok d) {n : Nat}
    (hn : n < x.length) :
    (n < 3 ∧ decode (x.take n) = .error (.badMagic (x.take n))) ∨
      (3 ≤ n ∧ ¬ IsBoundary x n ∧ ∃ k ≤ n, decode (x.take n) = .error (.truncated k)) ∨
      (5 ≤ n ∧ IsBoundary x n ∧ ∃ d', decode (x.take n) = .ok d' ∧
        d'.sessions <+: d.sessions ∧ d'.records <+: d.records) := by
  obtain ⟨y, bs, rfl, hy, rfl⟩ := decode_eq_ok_iff.mp hx
  have hlength : (preamble ++ y).length = 5 + y.length := List.length_append
  obtain hmagic | hmagic := Nat.lt_or_ge n 3
  · refine .inl ⟨hmagic, decode_of_length_lt ?_⟩
    rwa [List.length_take_of_le (Nat.le_of_lt hn)]
  right
  obtain hheader | hheader := Nat.lt_or_ge n 5
  · have hnot : ¬ IsBoundary (preamble ++ y) n := fun hby =>
      absurd (ComesBy.offset_le hby) (Nat.not_le_of_lt hheader)
    rw [List.take_append_of_le_length (show n ≤ 5 by omega)]
    exact .inl ⟨hmagic, hnot, decode_take_preamble hmagic hheader⟩
  · obtain ⟨m, rfl⟩ := Nat.exists_eq_add_of_le hheader
    have htake : (preamble ++ y).take (preamble.length + m) = preamble ++ y.take m :=
      List.take_length_add_append m
    rw [show (preamble ++ y).take (5 + m) = preamble ++ y.take m from htake]
    obtain ⟨hby, _, ⟨bs', rfl⟩, hok⟩ | ⟨hnot, hfail⟩ :=
      hy.decode_preamble_take (n := m) (by omega)
    · refine .inr ⟨hheader, hby, _, hok, ?_⟩
      rw [ExecutionData.ofBlocks_append]
      exact ⟨List.prefix_append .., List.prefix_append ..⟩
    · exact .inl ⟨hmagic, hnot, hfail⟩

/-- A file with a session and a record, of which the session is left. -/
theorem decode_take_session :
    let d : ExecutionData := ⟨[⟨"one", 1, 2⟩], [⟨7, "a/A", [true, false]⟩]⟩
    decode (encode d) = .ok d ∧ 27 < (encode d).length ∧ IsBoundary (encode d) 27 ∧
      decode ((encode d).take 27) = .ok ⟨d.sessions, []⟩ := by
  intro d
  have hd : decode (encode d) = .ok d := by decide +kernel
  have hlength : 27 < (encode d).length := by decide +kernel
  have hcut : decode ((encode d).take 27) = .ok ⟨d.sessions, []⟩ := by decide +kernel
  refine ⟨hd, hlength, ?_, hcut⟩
  obtain ⟨hshort, -⟩ | ⟨-, -, k, -, hfail⟩ | ⟨-, hboundary, -⟩ := decode_take hd hlength
  · exact absurd hshort (by decide)
  · cases hcut.symm.trans hfail
  · exact hboundary

end Coverage

end MutationTesting
