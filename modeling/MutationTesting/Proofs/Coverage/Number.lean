import Mathlib.Data.Nat.Digits.Defs
import MutationTesting.Proofs.Coverage.Reader
/-!
# Numbers in groups of seven bits

A number is spelled by bytes of which all but the last have the top bit set; the other seven bits of
each are a digit, the lowest one first. There may be zeros at the end, so a number can be spelled in
more ways than one. The reader takes five groups at most, and of what they add up to it keeps
thirty-two bits. Five groups have three bits more: where the fifth one uses them, another number is
read, and so many truth values are expected behind it.

## Main definitions

* `IsNumber`, `groupSum` — the bytes of a number, and the number
* `continuing` — how many bytes go on

## Main results

* `reads_groups` — the bytes of a number are read
* `number_eq_ok_iff`, `truncated_of_number` — what is read, and what is reported
* `groupSum_lt_iff` — the numbers that fit
* `number_keeps_low_bits`
* `number_above_limit_is_read` — one that does not fit
-/

namespace MutationTesting.Coverage

/-! ### Groups -/

/-- The bytes of a number: the last one is the first that has its top bit clear. -/
inductive IsNumber : Bytes → Prop where
  | last {b : UInt8} (clear : b.toNat < 128) : IsNumber [b]
  | more {b : UInt8} {gs : Bytes} (set : 128 ≤ b.toNat) (rest : IsNumber gs) : IsNumber (b :: gs)

/-- The number that bytes spell: the lower seven bits of each are a digit, the lowest one first. -/
def groupSum (gs : Bytes) : Nat := Nat.ofDigits 128 (gs.map fun b => b.toNat % 128)

/-- How many bytes at the beginning have the top bit set. -/
def continuing (bytes : Bytes) : Nat := (bytes.takeWhile fun b => 128 ≤ b.toNat).length

@[simp] theorem groupSum_nil : groupSum [] = 0 := rfl

@[simp] theorem groupSum_cons (b : UInt8) (gs : Bytes) :
    groupSum (b :: gs) = b.toNat % 128 + 128 * groupSum gs :=
  Nat.ofDigits_cons ..

theorem groupSum_lt (gs : Bytes) : groupSum gs < 128 ^ gs.length := by
  have hdigits : ∀ d ∈ gs.map fun b => b.toNat % 128, d < 128 :=
    List.forall_mem_map.mpr fun b _ => Nat.mod_lt _ (by decide)
  have hlt := Nat.ofDigits_lt_base_pow_length (by decide) hdigits
  rwa [List.length_map] at hlt

/-- A number ends where its bytes say. -/
theorem IsNumber.eq_of_append {gs gs' rest rest' : Bytes} (h : IsNumber gs) (h' : IsNumber gs')
    (heq : gs ++ rest = gs' ++ rest') : gs = gs' ∧ rest = rest' := by
  induction h generalizing gs' with
  | @last b clear =>
    cases h' with
    | last _ =>
      obtain ⟨rfl, hrest⟩ := List.cons.inj heq
      exact ⟨rfl, hrest⟩
    | more set _ =>
      obtain ⟨rfl, -⟩ := List.cons.inj heq
      omega
  | @more b gs set _ ih =>
    cases h' with
    | last clear =>
      obtain ⟨rfl, -⟩ := List.cons.inj heq
      omega
    | more _ hrest' =>
      obtain ⟨rfl, htail⟩ := List.cons.inj heq
      obtain ⟨rfl, hrest⟩ := ih hrest' htail
      exact ⟨rfl, hrest⟩

/-- **The numbers that fit** in thirty-two bits, among those of five groups: the fifth group has
four bits. -/
theorem groupSum_lt_iff {gs : Bytes} (h : IsNumber gs) (hlength : gs.length ≤ 5) :
    groupSum gs < 2 ^ 32 ↔ ∀ b ∈ gs[4]?, b.toNat < 16 := by
  obtain hshort | hfive := Nat.lt_or_eq_of_le hlength
  · have hlt := groupSum_lt gs
    have hle : 128 ^ gs.length ≤ 128 ^ 4 := Nat.pow_le_pow_right (by decide) (by omega)
    rw [List.getElem?_eq_none (by omega)]
    exact ⟨nofun, fun _ => by omega⟩
  · match gs, hfive, h with
    | [a, b, c, d, e], _, .more _ (.more _ (.more _ (.more _ (.last clear)))) =>
      simp only [groupSum_cons, groupSum_nil, List.getElem?_cons_succ, List.getElem?_cons_zero,
        Option.mem_def, Option.some.injEq, forall_eq']
      omega

/-! ### Reading -/

theorem reads_groups_last (shift value left : Nat) {b : UInt8} (hb : b.toNat < 128) :
    (groups shift value (left + 1)).Reads [b] ((value + b.toNat * 2 ^ shift) % 2 ^ 32) := by
  rw [← List.append_nil [b]]
  refine (reads_byte b).bind fun _ => ?_
  simp only [if_pos hb, Nat.mod_eq_of_lt hb]
  exact reads_pure _

theorem reads_groups_more {shift value left n : Nat} {b : UInt8} {x : Bytes} (hb : ¬ b.toNat < 128)
    (hx : (groups (shift + 7) ((value + b.toNat % 128 * 2 ^ shift) % 2 ^ 32) left).Reads x n) :
    (groups shift value (left + 1)).Reads (b :: x) n := by
  rw [← List.singleton_append]
  refine (reads_byte b).bind fun _ => ?_
  simp only [if_neg hb]
  exact hx

/-- The first group of a number and the groups behind it make the number. -/
theorem first_group_add_rest (shift value digit rest : Nat) :
    ((value + digit * 2 ^ shift) % 2 ^ 32 + rest * 2 ^ (shift + 7)) % 2 ^ 32 =
      (value + (digit + 128 * rest) * 2 ^ shift) % 2 ^ 32 := by
  rw [Nat.mod_add_mod]
  ring_nf

/-- **The bytes of a number are read** if they are not too many. They add the number to what has
been read before, with the weight of the next group. -/
theorem reads_groups {gs : Bytes} (h : IsNumber gs) (shift value : Nat) {left : Nat}
    (hlength : gs.length ≤ left) :
    (groups shift value left).Reads gs ((value + groupSum gs * 2 ^ shift) % 2 ^ 32) := by
  induction h generalizing shift value left with
  | @last b clear =>
    obtain ⟨left, rfl⟩ := Nat.exists_eq_add_of_le' hlength
    rw [groupSum_cons, groupSum_nil, Nat.mod_eq_of_lt clear]
    exact reads_groups_last shift value left clear
  | @more b gs set _ ih =>
    obtain ⟨left, rfl⟩ := Nat.exists_eq_add_of_le' (Nat.le_trans (Nat.le_add_left 1 _) hlength)
    refine reads_groups_more (Nat.not_lt.mpr set) ?_
    rw [groupSum_cons, ← first_group_add_rest]
    exact ih _ _ (Nat.le_of_succ_le_succ hlength)

/-- A step of the reader. -/
theorem groups_cons (shift value left offset : Nat) (b : UInt8) (rest : Bytes) :
    groups shift value (left + 1) ⟨offset, b :: rest⟩ =
      if b.toNat < 128 then
        .ok ((value + b.toNat % 128 * 2 ^ shift) % 2 ^ 32, ⟨offset + 1, rest⟩)
      else
        groups (shift + 7) ((value + b.toNat % 128 * 2 ^ shift) % 2 ^ 32) left
          ⟨offset + 1, rest⟩ := rfl

/-- Only numbers are read. -/
theorem exists_isNumber_of_groups {shift value left n : Nat} {c d : Cursor}
    (h : groups shift value left c = .ok (n, d)) :
    ∃ gs, IsNumber gs ∧ gs.length ≤ left ∧ c.rest = gs ++ d.rest := by
  induction left generalizing shift value c with
  | zero =>
    obtain ⟨_, -, herror⟩ := exists_of_bind_eq_ok h
    cases herror
  | succ left ih =>
    obtain ⟨offset, rest⟩ := c
    cases rest with
    | nil => cases h
    | cons b rest =>
      rw [groups_cons] at h
      split at h
      · next clear =>
        obtain ⟨-, rfl⟩ := Prod.mk.inj (Except.ok.inj h)
        exact ⟨[b], .last clear, Nat.le_add_left 1 left, rfl⟩
      · next set =>
        obtain ⟨gs, hnumber, hlength, hrest⟩ := ih h
        exact ⟨b :: gs, .more (Nat.le_of_not_lt set) hnumber, Nat.succ_le_succ hlength,
          congrArg (b :: ·) hrest⟩

/-- What is reported: the offset of the byte that is missing or is one too many. -/
theorem truncated_of_groups {shift value left : Nat} {c : Cursor} {e : CoverageError}
    (h : groups shift value left c = .error e) :
    e = .truncated (c.offset + min left (continuing c.rest)) := by
  obtain ⟨offset, rest⟩ := c
  induction left generalizing shift value offset rest with
  | zero =>
    rw [Nat.zero_min]
    cases rest <;> exact (Except.error.inj h).symm
  | succ left ih =>
    cases rest with
    | nil => exact (Except.error.inj h).symm
    | cons b rest =>
      rw [groups_cons] at h
      split at h
      · cases h
      · next set =>
        have hcontinuing : continuing (b :: rest) = continuing rest + 1 := by
          rw [continuing, List.takeWhile_cons_of_pos (by simpa using set), List.length_cons,
            continuing]
        rw [ih _ _ h, hcontinuing]
        congr 1
        dsimp only
        omega

/-! ### Numbers -/

/-- **What is read as a number**: at most five groups, and the thirty-two lowest bits of what they
spell. -/
theorem number_eq_ok_iff {c d : Cursor} {n : Nat} : number c = .ok (n, d) ↔
    ∃ gs, IsNumber gs ∧ gs.length ≤ 5 ∧ c.rest = gs ++ d.rest ∧ d.offset = c.offset + gs.length ∧
      n = groupSum gs % 2 ^ 32 := by
  obtain ⟨offset, rest⟩ := c
  obtain ⟨offset', rest'⟩ := d
  have hread {gs : Bytes} (hnumber : IsNumber gs) (hlength : gs.length ≤ 5) :
      number ⟨offset, gs ++ rest'⟩ = .ok (groupSum gs % 2 ^ 32, ⟨offset + gs.length, rest'⟩) := by
    have hreads := reads_groups hnumber 0 0 hlength
    rw [Nat.zero_add, Nat.pow_zero, Nat.mul_one] at hreads
    exact hreads.whole offset rest'
  constructor
  · intro h
    obtain ⟨gs, hnumber, hlength, rfl⟩ := exists_isNumber_of_groups h
    rw [hread hnumber hlength] at h
    obtain ⟨rfl, hd⟩ := Prod.mk.inj (Except.ok.inj h)
    obtain ⟨rfl, -⟩ := Cursor.mk.inj hd
    exact ⟨gs, hnumber, hlength, rfl, rfl, rfl⟩
  · rintro ⟨gs, hnumber, hlength, hrest, hoffset, rfl⟩
    obtain rfl : rest = gs ++ rest' := hrest
    obtain rfl : offset' = offset + gs.length := hoffset
    exact hread hnumber hlength

/-- What is reported where no number is read. -/
theorem truncated_of_number {c : Cursor} {e : CoverageError} (h : number c = .error e) :
    e = .truncated (c.offset + min 5 (continuing c.rest)) :=
  truncated_of_groups h

/-- The number that is read is the one that is spelled, or none is read. -/
def IsExactAt (c : Cursor) : Prop :=
  ∀ n d, number c = .ok (n, d) ↔ ∃ gs, IsNumber gs ∧ gs.length ≤ 5 ∧ c.rest = gs ++ d.rest ∧
    d.offset = c.offset + gs.length ∧ n = groupSum gs ∧ groupSum gs < 2 ^ 32

/-- **Numbers are exact** unless a fifth group has more than four bits. -/
theorem isExactAt_iff {c : Cursor} : IsExactAt c ↔
    ∀ gs rest, IsNumber gs → gs.length ≤ 5 → c.rest = gs ++ rest → ∀ b ∈ gs[4]?, b.toNat < 16 := by
  constructor
  · intro hexact gs rest hnumber hlength hrest
    rw [← groupSum_lt_iff hnumber hlength]
    obtain ⟨gs', hnumber', -, hrest', -, -, hlt⟩ :=
      (hexact _ ⟨c.offset + gs.length, rest⟩).mp
        (number_eq_ok_iff.mpr ⟨gs, hnumber, hlength, hrest, rfl, rfl⟩)
    obtain ⟨rfl, -⟩ := hnumber.eq_of_append hnumber' (hrest.symm.trans hrest')
    exact hlt
  · intro hfits n d
    rw [number_eq_ok_iff]
    constructor
    · rintro ⟨gs, hnumber, hlength, hrest, hoffset, rfl⟩
      have hlt := (groupSum_lt_iff hnumber hlength).mpr (hfits gs _ hnumber hlength hrest)
      exact ⟨gs, hnumber, hlength, hrest, hoffset, Nat.mod_eq_of_lt hlt, hlt⟩
    · rintro ⟨gs, hnumber, hlength, hrest, hoffset, rfl, hlt⟩
      exact ⟨gs, hnumber, hlength, hrest, hoffset, (Nat.mod_eq_of_lt hlt).symm⟩

/-! ### Truth values -/

theorem length_flatMap_testBit (packed : Bytes) :
    (packed.flatMap fun b => (List.range 8).map b.toNat.testBit).length = 8 * packed.length := by
  simp [List.length_flatMap, List.map_const', Nat.mul_comm]

/-- **As many truth values are read** as their number says, if there are bytes for them. -/
theorem truthValues_of_number {c d : Cursor} {n : Nat} (h : number c = .ok (n, d)) :
    truthValues c = if (n + 7) / 8 ≤ d.rest.length then
        .ok (bits n (d.rest.take ((n + 7) / 8)),
          ⟨d.offset + (n + 7) / 8, d.rest.drop ((n + 7) / 8)⟩)
      else .error (.truncated d.offset) := by
  rw [truthValues, h]
  change (take ((n + 7) / 8) d >>= fun p => .ok (bits n p.1, p.2)) = _
  rw [take]
  split <;> rfl

theorem length_bits {n : Nat} {packed : Bytes} (h : packed.length = (n + 7) / 8) :
    (bits n packed).length = n := by
  rw [bits, List.length_take, length_flatMap_testBit]
  omega

/-- **A number keeps its low bits.** What is read are at most five groups, up to the first byte with
a clear top bit, and of the number that they spell the thirty-two lowest bits. Where there is no
such byte among the first five, a truncation is reported at the byte that is missing or the sixth
one. As many truth values are read then as the number says, or a truncation is reported. What is
read is the number that is spelled unless there is a fifth group of more than four bits; then it is
not, although nothing is reported. -/
theorem number_keeps_low_bits (c : Cursor) :
    (∀ n d, number c = .ok (n, d) ↔
      ∃ gs, IsNumber gs ∧ gs.length ≤ 5 ∧ c.rest = gs ++ d.rest ∧
        d.offset = c.offset + gs.length ∧ n = groupSum gs % 2 ^ 32) ∧
    (∀ e, number c = .error e → e = .truncated (c.offset + min 5 (continuing c.rest))) ∧
    (∀ n d, number c = .ok (n, d) →
      if (n + 7) / 8 ≤ d.rest.length then
        ∃ ps, ps.length = n ∧ truthValues c =
          .ok (ps, ⟨d.offset + (n + 7) / 8, d.rest.drop ((n + 7) / 8)⟩)
      else truthValues c = .error (.truncated d.offset)) ∧
    (IsExactAt c ↔ ∀ gs rest, IsNumber gs → gs.length ≤ 5 → c.rest = gs ++ rest →
      ∀ b ∈ gs[4]?, b.toNat < 16) := by
  refine ⟨fun n d => number_eq_ok_iff, fun e => truncated_of_number, fun n d h => ?_,
    isExactAt_iff⟩
  rw [truthValues_of_number h]
  split
  · next henough => exact ⟨_, length_bits (List.length_take_of_le henough), rfl⟩
  · rfl

/-- **A number that does not fit is read**: the fifth group adds nothing, and one truth value is
expected in the place of more than four thousand million. -/
theorem number_above_limit_is_read :
    let gs : Bytes := [0x81, 0x80, 0x80, 0x80, 0x10]
    IsNumber gs ∧ groupSum gs = 2 ^ 32 + 1 ∧ number ⟨0, gs ++ [1]⟩ = .ok (1, ⟨5, [1]⟩) ∧
      truthValues ⟨0, gs ++ [1]⟩ = .ok ([true], ⟨6, []⟩) ∧ ¬ IsExactAt ⟨0, gs ++ [1]⟩ := by
  intro gs
  have hnumber : IsNumber gs :=
    .more (by decide) (.more (by decide) (.more (by decide) (.more (by decide)
      (.last (by decide)))))
  refine ⟨hnumber, by decide, by decide, by decide, fun hexact => ?_⟩
  have hfifth := isExactAt_iff.mp hexact gs [1] hnumber (by decide) rfl 0x10 rfl
  exact absurd hfifth (by decide)

end MutationTesting.Coverage
