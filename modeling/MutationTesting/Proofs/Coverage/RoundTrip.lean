import Mathlib.Data.Nat.Bitwise
import MutationTesting.Proofs.Coverage.BlockSequence
import MutationTesting.Proofs.Coverage.Number
import MutationTesting.Proofs.Coverage.WrittenText
/-!
# Coverage files are read back

Each field is written so that its reader takes exactly its bytes for its value, so a block is the
block of its bytes and a file the file of its data. The limits are those of the lengths that are
written: sixteen bits for the bytes of a string, thirty-two for the number of probes of a class.

## Main results

* `reads_textBytes`, `reads_numberBytes`, `reads_numberBytes_packBits` — the fields
* `reads_sessionBytes`, `reads_recordBytes` — the blocks
* `decode_encode` — whole files
-/

namespace MutationTesting.Coverage

/-! ### Words and strings -/

theorem ofInt_toNat_toBitVec (v : Int64) : Int64.ofInt v.toBitVec.toNat = v := by
  rw [← Int64.toBitVec_inj, Int64.toBitVec_ofInt, BitVec.ofInt_natCast, BitVec.ofNat_toNat,
    BitVec.setWidth_eq]

theorem reads_wordBytes (v : Int64) : word64.Reads (bigEndianBytes 8 v.toBitVec.toNat) v := by
  have h := reads_word64 (length_bigEndianBytes 8 v.toBitVec.toNat)
  have hlt : v.toBitVec.toNat < 256 ^ 8 := v.toBitVec.isLt
  rwa [bigEndian_bigEndianBytes, Nat.mod_eq_of_lt hlt, ofInt_toNat_toBitVec] at h

/-- Sixteen bits hold the length of a string that is not too long. -/
theorem reads_textBytes {s : String} (h : (ModifiedUtf8.encode s).length ≤ 65535) :
    text.Reads (textBytes s) s := by
  have hlength := reads_word16 (length_bigEndianBytes 2 (ModifiedUtf8.encode s).length)
  rw [bigEndian_bigEndianBytes, Nat.mod_eq_of_lt (show _ < 256 ^ 2 by omega)] at hlength
  exact reads_text hlength (ModifiedUtf8.decode?_encode s)

/-! ### Numbers -/

theorem isNumber_numberBytes (n : Nat) : IsNumber (numberBytes n) := by
  fun_induction numberBytes n with
  | case1 n hsmall =>
    refine .last ?_
    rw [UInt8.toNat_ofNat']
    omega
  | case2 n hlarge ih =>
    refine .more ?_ ih
    rw [UInt8.toNat_ofNat']
    omega

theorem groupSum_numberBytes (n : Nat) : groupSum (numberBytes n) = n := by
  fun_induction numberBytes n with
  | case1 n hsmall =>
    rw [groupSum_cons, groupSum_nil, UInt8.toNat_ofNat']
    omega
  | case2 n hlarge ih =>
    rw [groupSum_cons, ih, UInt8.toNat_ofNat']
    omega

/-- A number has as many groups as it needs. -/
theorem length_numberBytes_le {n left : Nat} (h : n < 128 ^ (left + 1)) :
    (numberBytes n).length ≤ left + 1 := by
  induction left generalizing n with
  | zero => rw [numberBytes, if_pos (show n < 128 from h), List.length_singleton]
  | succ left ih =>
    rw [numberBytes]
    split
    · exact Nat.le_add_left 1 (left + 1)
    · refine Nat.succ_le_succ (ih ?_)
      rwa [Nat.div_lt_iff_lt_mul (by decide), ← Nat.pow_succ]

theorem reads_numberBytes {n : Nat} (h : n < 2 ^ 32) : number.Reads (numberBytes n) n := by
  have hlength : (numberBytes n).length ≤ 4 + 1 := length_numberBytes_le (by omega)
  have hreads := reads_groups (isNumber_numberBytes n) 0 0 hlength
  rwa [groupSum_numberBytes, Nat.zero_add, Nat.pow_zero, Nat.mul_one, Nat.mod_eq_of_lt h]
    at hreads

/-! ### Truth values -/

/-- The number of truth values, the first in the lowest bit, has them as its bits. -/
theorem testBit_foldr (bs : List Bool) (i : Nat) :
    (bs.foldr (fun (b : Bool) n => b.toNat + 2 * n) 0).testBit i = bs[i]?.getD false := by
  induction bs generalizing i with
  | nil => simp
  | cons b bs ih =>
    rw [List.foldr_cons, Nat.add_comm, ← Nat.bit_val]
    cases i with
    | zero => simp
    | succ i => rw [Nat.testBit_bit_succ, ih, List.getElem?_cons_succ]

theorem testBit_packByte (bs : List Bool) {i : Nat} (hi : i < 8) :
    (packByte bs).toNat.testBit i = bs[i]?.getD false := by
  have hmod : (packByte bs).toNat =
      bs.foldr (fun b n => b.toNat + 2 * n) 0 % 2 ^ 8 := UInt8.toNat_ofNat'
  rw [hmod, Nat.testBit_mod_two_pow, testBit_foldr, decide_eq_true hi, Bool.true_and]

theorem take_map_getD (bs : List Bool) (n : Nat) :
    ((List.range n).map fun i => bs[i]?.getD false).take bs.length = bs.take n := by
  apply List.ext_getElem
  · simp [Nat.min_comm]
  · intro i hi hi'
    simp only [List.length_take, lt_min_iff] at hi'
    simp [hi'.2]

theorem length_packBits (bs : List Bool) : (packBits bs).length = (bs.length + 7) / 8 := by
  fun_induction packBits bs with
  | case1 bs h =>
    rw [List.isEmpty_iff.mp h]
    rfl
  | case2 bs h ih =>
    have hpos : 0 < bs.length := List.length_pos_iff.mpr (by simpa using h)
    rw [List.length_cons, ih, List.length_drop]
    omega

theorem bits_packBits (bs : List Bool) : bits bs.length (packBits bs) = bs := by
  fun_induction packBits bs with
  | case1 bs h =>
    rw [List.isEmpty_iff.mp h]
    rfl
  | case2 bs h ih =>
    have hbyte : ((List.range 8).map (packByte (bs.take 8)).toNat.testBit) =
        (List.range 8).map fun i => bs[i]?.getD false := by
      refine List.map_congr_left fun i hi => ?_
      have hi' : i < 8 := List.mem_range.mp hi
      rw [testBit_packByte _ hi', List.getElem?_take_of_lt hi']
    rw [bits, List.flatMap_cons, List.take_append, hbyte, take_map_getD, List.length_map,
      List.length_range, ← List.length_drop]
    rw [bits] at ih
    rw [ih, List.take_append_drop]

theorem reads_numberBytes_packBits {bs : List Bool} (h : bs.length < 2 ^ 32) :
    truthValues.Reads (numberBytes (bs.length % 2 ^ 32) ++ packBits bs) bs := by
  rw [Nat.mod_eq_of_lt h]
  have hreads := reads_truthValues (reads_numberBytes h) (length_packBits bs)
  rwa [bits_packBits] at hreads

/-! ### Blocks and files -/

theorem reads_sessionBytes {s : SessionInfo} (h : (ModifiedUtf8.encode s.id).length ≤ 65535) :
    block.Reads (sessionBytes s) (.session s) := by
  have hfields := reads_sessionFields (reads_textBytes h) (reads_wordBytes s.start)
    (reads_wordBytes s.dump)
  have hblock := reads_block rfl (reads_byte 0x10) hfields
  rwa [sessionBytes, List.append_assoc, List.cons_append]

theorem reads_recordBytes {r : ExecutionRecord} (h : (ModifiedUtf8.encode r.name).length ≤ 65535)
    (hprobes : r.probes.length < 2 ^ 32) : block.Reads (recordBytes r) (.record r) := by
  have hfields := reads_recordFields (reads_wordBytes r.id) (reads_textBytes h)
    (reads_numberBytes_packBits hprobes)
  have hblock := reads_block rfl (reads_byte 0x11) hfields
  rwa [recordBytes, List.append_assoc, List.append_assoc, List.cons_append]

/-- Blocks that are written one by one are those of what is written. -/
theorem spellBlocks_flatMap {α : Type} {write : α → Bytes} {toBlock : α → Block} {xs : List α}
    (h : ∀ x ∈ xs, block.Reads (write x) (toBlock x)) :
    SpellBlocks (xs.flatMap write) (xs.map toBlock) := by
  induction xs with
  | nil => exact .nil
  | cons x xs ih =>
    obtain ⟨hx, hxs⟩ := List.forall_mem_cons.mp h
    exact .cons hx (ih hxs)

theorem ofBlocks_sessions (sessions : List SessionInfo) :
    ExecutionData.ofBlocks (sessions.map .session) = ⟨sessions, []⟩ := by
  induction sessions with
  | nil => rfl
  | cons s sessions ih => exact congrArg (fun d => ExecutionData.mk (s :: d.sessions) d.records) ih

theorem ofBlocks_records (records : List ExecutionRecord) :
    ExecutionData.ofBlocks (records.map .record) = ⟨[], records⟩ := by
  induction records with
  | nil => rfl
  | cons r records ih => exact congrArg (fun d => ExecutionData.mk d.sessions (r :: d.records)) ih

theorem ofBlocks_blocks (d : ExecutionData) :
    .ofBlocks (d.sessions.map .session ++ d.records.map .record) = d := by
  rw [ExecutionData.ofBlocks_append, ofBlocks_sessions, ofBlocks_records, List.append_nil,
    List.nil_append]

/-- **What is written is read back**, as long as lengths fit in what is written of them. -/
theorem decode_encode {d : ExecutionData}
    (hsessions : ∀ s ∈ d.sessions, (ModifiedUtf8.encode s.id).length ≤ 65535)
    (hrecords : ∀ r ∈ d.records,
      (ModifiedUtf8.encode r.name).length ≤ 65535 ∧ r.probes.length < 2 ^ 32) :
    decode (encode d) = .ok d := by
  have hspell : SpellBlocks (d.sessions.flatMap sessionBytes ++ d.records.flatMap recordBytes)
      (d.sessions.map .session ++ d.records.map .record) :=
    (spellBlocks_flatMap fun s hs => reads_sessionBytes (hsessions s hs)).append
      (spellBlocks_flatMap fun r hr => reads_recordBytes (hrecords r hr).1 (hrecords r hr).2)
  refine decode_eq_ok_iff.mpr ⟨_, _, ?_, hspell, (ofBlocks_blocks d).symm⟩
  rw [encode, List.append_assoc]
  rfl

/-- Data at the limits of the format: a zero character and one of two units, the least and the
greatest times, and probes that do not fill their bytes. -/
theorem decode_encode_limits :
    let s : SessionInfo := ⟨"\x00é漢😀", Int64.minValue, Int64.maxValue⟩
    let r : ExecutionRecord := ⟨-1, "a/A", List.replicate 8 false ++ [true]⟩
    let d : ExecutionData := ⟨[s], [r, { r with name := "", probes := [] }]⟩
    (∀ s ∈ d.sessions, (ModifiedUtf8.encode s.id).length ≤ 65535) ∧
      (∀ r ∈ d.records,
        (ModifiedUtf8.encode r.name).length ≤ 65535 ∧ r.probes.length < 2 ^ 32) ∧
      decode (encode d) = .ok d := by
  intro s r d
  have hs : ∀ s ∈ d.sessions, (ModifiedUtf8.encode s.id).length ≤ 65535 := by decide
  have hr : ∀ r ∈ d.records,
      (ModifiedUtf8.encode r.name).length ≤ 65535 ∧ r.probes.length < 2 ^ 32 := by decide
  exact ⟨hs, hr, decode_encode hs hr⟩

end MutationTesting.Coverage
