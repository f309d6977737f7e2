import MutationTesting.Proofs.Decimal.Shortest
import MutationTesting.Proofs.Json.Members
/-!
# Finite numbers are read back

The literal of a finite number can be read: whatever is rounded on the way, the result is finite
again. Reading collects the digits into a word and multiplies by a power of ten, so it rounds three
times: the word, the power and the product. The shortest decimal is at most half a unit of the last
place above the number, and the two roundings of the factors add less than two units, so the product
of all but the two largest doubles stays below the limit. The two largest are read directly.

A literal that is read as a double never gives an infinity. One that is read as a float may give
one, because the double is rounded once more and not checked.

## Main definitions

* `twoRoundings` — what two roundings multiply a number by at most

## Main results

* `Number.isReadable_ofBinary32`, `Number.isReadable_ofBinary64`
* `Number.isInfinite_of_toBinary64?`
-/

namespace MutationTesting

open Decimal

namespace Number

/-! ### Collecting digits -/

section Collect

variable (word : Nat) (ds : List Nat)

/-- The digits that are collected and those that are left. -/
theorem exists_collected : ∃ collected, ds = collected ++ (collect word ds).2 ∧
    (collect word ds).1 = word * 10 ^ collected.length + ofDigits collected := by
  induction ds generalizing word with
  | nil => exact ⟨[], rfl, by simp [collect, ofDigits]⟩
  | cons d ds ih =>
    rw [collect]
    split
    · exact ⟨[], rfl, by simp [ofDigits]⟩
    · obtain ⟨collected, hds, hword⟩ := ih (word * 10 + d)
      refine ⟨d :: collected, congrArg (d :: ·) hds, ?_⟩
      rw [hword, ofDigits_cons, List.length_cons]
      ring

theorem length_collect_le : (collect word ds).2.length ≤ ds.length := by
  obtain ⟨collected, hds, -⟩ := exists_collected word ds
  rw [congrArg List.length hds, List.length_append]
  exact Nat.le_add_left _ _

/-- What is collected is not above what the digits stand for. -/
theorem collect_le : (collect word ds).1 * 10 ^ (collect word ds).2.length ≤
    word * 10 ^ ds.length + ofDigits ds := by
  obtain ⟨collected, hds, hword⟩ := exists_collected word ds
  generalize (collect word ds).2 = left at *
  rw [hword, hds, ofDigits_concat, List.length_append, pow_add, add_mul, mul_assoc, ← add_assoc]
  exact Nat.le_add_right _ _

variable {word ds}

theorem collect_lt (h : word < 2 ^ 64) : (collect word ds).1 < 2 ^ 64 := by
  induction ds generalizing word with
  | nil => exact h
  | cons d ds ih =>
    rw [collect]
    split
    · exact h
    · next hfits => exact ih (not_le.mp fun hle => hfits (decide_eq_true hle))

/-- All digits of a number that fits into a word are collected. -/
theorem collect_of_lt (h : word * 10 ^ ds.length + ofDigits ds < 2 ^ 64) :
    collect word ds = (word * 10 ^ ds.length + ofDigits ds, []) := by
  induction ds generalizing word with
  | nil => simp [collect, ofDigits]
  | cons d ds ih =>
    have hvalue : word * 10 ^ (d :: ds).length + ofDigits (d :: ds) =
        (word * 10 + d) * 10 ^ ds.length + ofDigits ds := by
      rw [ofDigits_cons, List.length_cons]
      ring
    have hfits : overflows word d = false := by
      refine decide_eq_false (not_le.mpr ?_)
      calc word * 10 + d ≤ (word * 10 + d) * 10 ^ ds.length :=
            Nat.le_mul_of_pos_right _ (Nat.pow_pos (by decide))
        _ ≤ (word * 10 + d) * 10 ^ ds.length + ofDigits ds := Nat.le_add_right _ _
        _ < 2 ^ 64 := hvalue ▸ h
    rw [hvalue] at h ⊢
    rw [collect, hfits, if_neg Bool.false_ne_true, ih h]

end Collect

/-! ### Powers of ten -/

/-- Two roundings multiply a number by at most this. -/
def twoRoundings : ℚ := (1 + 2 ^ (-53 : ℤ)) ^ 2

theorem one_le_twoRoundings : 1 ≤ twoRoundings := by
  norm_num [twoRoundings]

theorem ten_pow_lt_limit {e : Nat} (he : e ≤ 308) : ((10 ^ e : Nat) : ℚ) < binary64Limit := by
  have hpow : 2 * 10 ^ e < (2 ^ 54 - 1) * 2 ^ 971 := by
    refine lt_of_le_of_lt (Nat.mul_le_mul_left 2 (Nat.pow_le_pow_right (by decide) he)) ?_
    decide +kernel
  have hcast : (2 * (10 ^ e : Nat) : ℚ) < (2 ^ 54 - 1 : Nat) * 2 ^ (971 : ℤ) := by
    rw [zpow_ofNat]
    exact_mod_cast hpow
  have hlimit : ((2 ^ 54 - 1 : Nat) : ℚ) * 2 ^ (971 : ℤ) = 2 * binary64Limit := by
    have hpowers : ((2 ^ 54 - 1 : Nat) : ℚ) = 2 * (2 ^ 53 - 1 / 2) := by norm_num
    rw [hpowers, binary64Limit, mul_assoc]
  rw [hlimit] at hcast
  linarith

theorem isInfinite_div_ten_pow {x : Binary64} (hx : x.isInfinite = false) {k : Nat}
    (hk : k ≤ 308) : (x.div (.ofNat (Nat.pow 10 k))).isInfinite = false := by
  have hpower := ten_pow_lt_limit hk
  exact Binary.isInfinite_div hx (Binary.isInfinite_ofNat hpower)
    (Binary.magnitude_ofNat (Nat.pow_pos (by decide)) hpower).1

theorem word_lt_limit {word : Nat} (h : word < 2 ^ 64) : (word : ℚ) < binary64Limit := by
  have hlt : word < 10 ^ 20 := h.trans (by decide)
  exact lt_trans (by exact_mod_cast hlt) (ten_pow_lt_limit (e := 20) (by decide))

/-- A number is divided by a power of ten, however small the result. -/
theorem isSome_scaled_of_neg {e : ℤ} (he : e < 0) (fuel : Nat) (x : Binary64) :
    (scaled x fuel e).isSome = true := by
  induction fuel generalizing e x with
  | zero => rfl
  | succ fuel ih =>
    have hneg : ¬0 ≤ e := by omega
    rw [scaled, if_neg hneg, if_neg hneg]
    split
    · rfl
    · split
      · rfl
      · exact ih (by omega) _

/-- A word is multiplied by a power of ten if the product is below the limit by two roundings. -/
theorem isSome_scaled_ofNat {word e : Nat} (he : e ≤ 308)
    (h : (word : ℚ) * 10 ^ e * twoRoundings < binary64Limit) (fuel : Nat) :
    (scaled (.ofNat word) fuel e).isSome = true := by
  cases fuel with
  | zero => rfl
  | succ fuel =>
    have hpower := ten_pow_lt_limit he
    have hpow : Nat.pow 10 e = 10 ^ e := rfl
    have hword : (word : ℚ) < binary64Limit := by
      refine lt_of_le_of_lt ?_ h
      calc (word : ℚ) = word * 1 * 1 := by ring
        _ ≤ word * 10 ^ e * twoRoundings := by
          gcongr
          · exact one_le_pow₀ (by norm_num)
          · exact one_le_twoRoundings
    have hproduct : (Binary.ofNat word : Binary64).magnitude *
        (Binary.ofNat (10 ^ e) : Binary64).magnitude < binary64Limit := by
      have hnonneg := (Binary.ofNat (10 ^ e) : Binary64).magnitude_nonneg
      refine lt_of_le_of_lt ?_ h
      calc (Binary.ofNat word : Binary64).magnitude * (Binary.ofNat (10 ^ e) : Binary64).magnitude
          ≤ word * (1 + 2 ^ (-53 : ℤ)) * ((10 ^ e : Nat) * (1 + 2 ^ (-53 : ℤ))) := by
            gcongr
            · exact Binary.magnitude_ofNat_le hword
            · exact Binary.magnitude_ofNat_le hpower
        _ = word * 10 ^ e * twoRoundings := by
          rw [twoRoundings]
          push_cast
          ring
    have hfinite := Binary.isInfinite_mul (Binary.isInfinite_ofNat hword)
      (Binary.isInfinite_ofNat hpower) hproduct
    rw [scaled, Int.natAbs_natCast, if_pos he, if_pos (Int.natCast_nonneg e), hpow]
    simp [hfinite]

/-- What is scaled stays finite. -/
theorem isInfinite_of_scaled {fuel : Nat} {e : ℤ} {x y : Binary64} (hx : x.isInfinite = false)
    (h : scaled x fuel e = some y) : y.isInfinite = false := by
  induction fuel generalizing e x with
  | zero =>
    cases h
    exact hx
  | succ fuel ih =>
    rw [scaled] at h
    split at h
    · next hsmall =>
      split at h
      · dsimp only at h
        split at h
        · cases h
        · next hfinite =>
          cases h
          exact Bool.eq_false_iff.mpr hfinite
      · cases h
        exact isInfinite_div_ten_pow hx hsmall
    · split at h
      · cases h
        exact hx
      · split at h
        · cases h
        · refine ih ?_ h
          generalize hk : 308 = k
          exact isInfinite_div_ten_pow hx hk.ge

/-! ### Literals -/

theorem isSome_ofParts {word : Nat} {e : ℤ} (negative : Bool)
    (h : (scaled (.ofNat word) 8 e).isSome = true) : (ofParts negative word e).isSome = true := by
  rwa [ofParts, Option.isSome_map]

theorem isSome_ofParts_of_nonpos {word : Nat} (hword : word < 2 ^ 64) {e : ℤ} (he : e ≤ 0)
    (negative : Bool) : (ofParts negative word e).isSome = true := by
  refine isSome_ofParts negative ?_
  obtain hneg | rfl := he.lt_or_eq
  · exact isSome_scaled_of_neg hneg 8 _
  · refine isSome_scaled_ofNat (Nat.zero_le 308) ?_ 8
    have hcast : (word : ℚ) < 2 ^ 64 := by exact_mod_cast hword
    have hlimit : ((10 ^ 20 : Nat) : ℚ) < binary64Limit := ten_pow_lt_limit (by decide)
    have htwo : twoRoundings ≤ 2 := by norm_num [twoRoundings]
    calc (word : ℚ) * 10 ^ 0 * twoRoundings ≤ (word : ℚ) * 10 ^ 0 * 2 := by gcongr
      _ = (word : ℚ) * 2 := by rw [pow_zero, mul_one]
      _ < (2 : ℚ) ^ 64 * 2 := by gcongr
      _ ≤ ((10 ^ 20 : Nat) : ℚ) := by norm_num
      _ < binary64Limit := hlimit

/-- A literal with a point whose digits before it fit into a word. -/
theorem isSome_double?_of_fraction {whole : List Nat} (hwhole : ofDigits whole < 2 ^ 64)
    (negative : Bool) (fraction : List Nat) :
    (double? ⟨negative, whole, some fraction, none⟩).isSome = true := by
  have hcollect : collect 0 whole = (ofDigits whole, []) := by
    have hvalue : 0 * 10 ^ whole.length + ofDigits whole = ofDigits whole := by ring
    rw [collect_of_lt (hvalue.trans_lt hwhole), hvalue]
  rw [double?, hcollect]
  exact isSome_ofParts_of_nonpos (collect_lt hwhole) (by simp) negative

/-- The digits of a literal with one digit before the point. -/
theorem double?_of_exponent {d : Nat} (hd : d < 10) (negative down : Bool) (ds es : List Nat) :
    double? ⟨negative, [d], if (d :: ds).length ≤ 1 then none else some ds, some (down, es)⟩ =
      withExponent ⟨negative, [d], if (d :: ds).length ≤ 1 then none else some ds, some (down, es)⟩
        (collect d ds).1 ((collect d ds).2.length - ds.length) := by
  have hlength := length_collect_le d ds
  have hcollect : collect 0 [d] = (d, []) := by
    have hfits : overflows 0 d = false := decide_eq_false (by norm_num; omega)
    simp [collect, hfits]
  rw [double?, hcollect]
  cases ds with
  | nil => rfl
  | cons d' ds =>
    rw [if_neg (by simp)]
    dsimp only
    congr 1
    simp only [List.length_nil, Nat.cast_zero, zero_sub]
    omega

theorem exponent_le_of_pow_le {e : ℤ} {v : ℚ} (hpow : 10 ^ e ≤ v)
    (hv : v * twoRoundings < binary64Limit) : e ≤ 308 := by
  have hpos : 0 < v := lt_of_lt_of_le (by positivity) hpow
  have hlt : (10 : ℚ) ^ e < 10 ^ (309 : ℤ) := by
    calc (10 : ℚ) ^ e ≤ v * 1 := by rwa [mul_one]
      _ ≤ v * twoRoundings := by
        gcongr
        exact one_le_twoRoundings
      _ < 2 ^ (1024 : ℤ) := hv.trans binary64Limit_lt
      _ ≤ 10 ^ (309 : ℤ) := by
        rw [zpow_ofNat, zpow_ofNat]
        have hpow : 2 ^ 1024 ≤ 10 ^ 309 := by decide +kernel
        exact_mod_cast hpow
  have hexponent := (zpow_lt_zpow_iff_right₀ (by norm_num)).mp hlt
  omega

theorem exponentLimit_eq : exponentLimit = 2147483647 := rfl

theorem clampExponent_neg {e : ℤ} (he : e < 0) : clampExponent e < 0 := by
  have hpow : Nat.pow 2 31 = 2147483648 := rfl
  rw [clampExponent, exponentLimit_eq, hpow]
  omega

theorem clampExponent_natCast {e : Nat} (he : e ≤ 308) : clampExponent e = e := by
  have hpow : Nat.pow 2 31 = 2147483648 := rfl
  rw [clampExponent, exponentLimit_eq, hpow]
  omega

/-- The collected word times the power of ten that belongs to it is not above the number. -/
theorem collect_le_value {d : Nat} {ds : List Nat} {e : ℤ} {k : Nat}
    (hk : ((collect d ds).2.length : ℤ) - ds.length + e = k) :
    ((collect d ds).1 : ℚ) * 10 ^ k ≤ (⟨d :: ds, e⟩ : Scientific).value := by
  have hcollect := collect_le d ds
  generalize (collect d ds).2.length = left at *
  have hexponent : (k : ℤ) = left + (e + 1 - (d :: ds).length) := by
    rw [List.length_cons]
    push_cast
    omega
  have hcast : ((collect d ds).1 : ℚ) * 10 ^ left ≤ ofDigits (d :: ds) := by
    rw [ofDigits_cons]
    exact_mod_cast hcollect
  calc ((collect d ds).1 : ℚ) * 10 ^ k
      = (collect d ds).1 * 10 ^ left * 10 ^ (e + 1 - (d :: ds).length) := by
        rw [← zpow_natCast, hexponent, zpow_add₀ (by norm_num), zpow_natCast, mul_assoc]
    _ ≤ (⟨d :: ds, e⟩ : Scientific).value := by
      rw [Scientific.value]
      gcongr

/-- A literal with an exponent whose value is below the limit by two roundings. -/
theorem isSome_double?_of_exponent {d : Nat} {ds : List Nat} {e : ℤ} (hd : d < 10)
    (hpow : 10 ^ e ≤ (⟨d :: ds, e⟩ : Scientific).value)
    (hvalue : (⟨d :: ds, e⟩ : Scientific).value * twoRoundings < binary64Limit) (negative : Bool) :
    (double? ⟨negative, [d], if (d :: ds).length ≤ 1 then none else some ds,
      some (e < 0, digits e.natAbs)⟩).isSome = true := by
  have hlength := length_collect_le d ds
  have hlarge := exponent_le_of_pow_le hpow hvalue
  rw [double?_of_exponent hd, withExponent]
  simp only [ofDigits_digits, exponentLimit_eq]
  by_cases hneg : e < 0
  · simp only [hneg, decide_true, Bool.not_true, Bool.and_false, Bool.false_eq_true, if_false,
      if_true]
    split
    · rfl
    · exact isSome_ofParts negative (isSome_scaled_of_neg (clampExponent_neg (by omega)) 8 _)
  · have hsmall : ¬2147483647 < e.natAbs := by omega
    have hexponent : (e.natAbs : ℤ) = e := by omega
    simp only [hneg, hsmall, decide_false, Bool.false_eq_true, if_false, hexponent]
    refine isSome_ofParts negative ?_
    -- the exponent of the word is less than that of the literal by the digits that were collected
    by_cases hdown : ((collect d ds).2.length : ℤ) - ds.length + e < 0
    · exact isSome_scaled_of_neg (clampExponent_neg hdown) 8 _
    · obtain ⟨k, hk⟩ := Int.eq_ofNat_of_zero_le (not_lt.mp hdown)
      have hle : k ≤ 308 := by omega
      have htwo := one_pos.le.trans one_le_twoRoundings
      have hword := mul_le_mul_of_nonneg_right (collect_le_value hk) htwo
      rw [hk, clampExponent_natCast hle]
      exact isSome_scaled_ofNat hle (hword.trans_lt hvalue) 8

/-! ### Literals that are written -/

theorem areDigits_iff {ds : List Nat} : areDigits ds = true ↔ ds ≠ [] ∧ ∀ d ∈ ds, d < 10 := by
  simp [areDigits]

theorem isWellFormed_iff {n : Number} : n.isWellFormed = true ↔
    areDigits n.whole = true ∧ (n.whole.head? ≠ some 0 ∨ n.whole = [0]) ∧
      n.fraction.all areDigits = true ∧ n.exponent.all (areDigits ·.2) = true := by
  simp [isWellFormed, and_assoc]

theorem forall_mem_append_zeros {ds : List Nat} (h : ∀ d ∈ ds, d < 10) (k : Nat) :
    ∀ d ∈ ds ++ List.replicate k 0, d < 10 :=
  List.forall_mem_append.mpr ⟨h, fun d hd => by simp [List.eq_of_mem_replicate hd]⟩

section Written

variable {s : Scientific}

/-- **The literal of significant digits** is well-formed. -/
theorem isWellFormed_ofScientific (hs : s.IsProper) (layout : Layout) (negative : Bool) :
    (ofScientific layout negative s).isWellFormed = true := by
  obtain ⟨digits, e⟩ := s
  obtain ⟨hdigits, d, ds, hd, rfl⟩ := hs
  have hfirst : some d ≠ some 0 := fun h => hd (Option.some.inj h)
  dsimp only at hdigits
  have htake : ∀ k, ∀ d' ∈ (d :: ds).take k, d' < 10 :=
    fun k d' hd' => hdigits d' (List.mem_of_mem_take hd')
  have hdrop : ∀ k, ∀ d' ∈ (d :: ds).drop k, d' < 10 :=
    fun k d' hd' => hdigits d' (List.mem_of_mem_drop hd')
  rw [ofScientific, isWellFormed_iff]
  split
  · split
    · refine ⟨rfl, .inr rfl, areDigits_iff.mpr ⟨by simp, ?_⟩, rfl⟩
      exact List.forall_mem_append.mpr
        ⟨fun d' hd' => by simp [List.eq_of_mem_replicate hd'], hdigits⟩
    · refine ⟨areDigits_iff.mpr ⟨by simp, forall_mem_append_zeros (htake _) _⟩, .inl hfirst, ?_,
        rfl⟩
      rw [Option.all_some]
      split
      · rfl
      · next hne => exact areDigits_iff.mpr ⟨by simpa using hne, hdrop _⟩
  · refine ⟨areDigits_iff.mpr ⟨by simp, htake 1⟩, .inl hfirst, ?_, areDigits_digits _⟩
    split
    · rfl
    · next hlength =>
      refine areDigits_iff.mpr ⟨fun hnil => hlength ?_, hdrop 1⟩
      exact Nat.sub_eq_zero_iff_le.mp (List.length_eq_zero_iff.mpr hnil ▸ List.length_drop.symm)

/-- The literal of significant digits can be read if their value is below the limit by two
roundings. -/
theorem isSome_double?_ofScientific (hs : s.IsProper) {layout : Layout}
    (hlayout : layout.bound ≤ 19) (hvalue : s.value * twoRoundings < binary64Limit)
    (negative : Bool) :
    (ofScientific layout negative s).double?.isSome = true := by
  have hpow := hs.pow_le_value
  obtain ⟨digits, e⟩ := s
  obtain ⟨hdigits, d, ds, hd, rfl⟩ := hs
  dsimp only at hdigits hpow
  rw [ofScientific]
  split
  · next hpositional =>
    split
    · exact isSome_double?_of_fraction (by decide) negative _
    · refine isSome_double?_of_fraction ?_ negative _
      -- there are as many digits before the point as the exponent says, so they fit into a word
      have hdigits' := ofDigits_lt <| forall_mem_append_zeros
        (fun d' hd' => hdigits d' (List.mem_of_mem_take (i := e.toNat + 1) hd'))
        (e.toNat + 1 - (d :: ds).length)
      have hlength : ((d :: ds).take (e.toNat + 1) ++
          List.replicate (e.toNat + 1 - (d :: ds).length) 0).length ≤ 19 := by
        rw [List.length_append, List.length_take, List.length_replicate]
        have hbound := hpositional.2
        dsimp only at hbound
        omega
      calc _ < 10 ^ _ := hdigits'
        _ ≤ 10 ^ 19 := Nat.pow_le_pow_right (by decide) hlength
        _ < 2 ^ 64 := by decide
  · exact isSome_double?_of_exponent (hdigits d List.mem_cons_self) hpow hvalue negative

/-- No literal of significant digits is plain. -/
theorem machine?_ofScientific (layout : Layout) (negative : Bool) (s : Scientific) :
    (ofScientific layout negative s).machine? =
      (ofScientific layout negative s).double?.map .double := by
  have hplain : (ofScientific layout negative s).isPlain = false := by
    rw [ofScientific]
    split
    · split <;> rfl
    · exact Bool.and_false _
  rw [machine?, toInt?, hplain]
  rfl

/-- **Significant digits are read back** if their value is below the limit by two roundings. -/
theorem isReadable_ofScientific (hs : s.IsProper) {layout : Layout} (hlayout : layout.bound ≤ 19)
    (hvalue : s.value * twoRoundings < binary64Limit) (negative : Bool) :
    (ofScientific layout negative s).isReadable = true := by
  rw [isReadable, isWellFormed_ofScientific hs, machine?_ofScientific, Option.isSome_map,
    isSome_double?_ofScientific hs hlayout hvalue]
  rfl

end Written

/-! ### Finite numbers -/

/-- A number is read back from its literal if half a unit above it is below the limit by two
roundings. -/
theorem isReadable_ofBinary {f : Format} (hf : f.IsNarrow) {layout : Layout}
    (hlayout : layout.bound ≤ 19) {x : Binary f} (hfinite : x.isInfinite = false)
    (hvalue : (x.magnitude + 1 / 2 * 2 ^ x.split.2) * twoRoundings < binary64Limit) :
    (ofBinary layout x).isReadable = true := by
  rw [ofBinary]
  split
  · cases x.negative <;> decide +kernel
  · next hzero =>
    have hpos : 0 < x.code := Nat.pos_of_ne_zero fun h => hzero (decide_eq_true h)
    obtain ⟨hproper, hle⟩ := shortest_spec hf hpos (Binary.code_lt_of_isFinite hfinite) .toEven
    refine isReadable_ofScientific hproper hlayout (lt_of_le_of_lt ?_ hvalue) _
    exact mul_le_mul_of_nonneg_right hle (one_pos.le.trans one_le_twoRoundings)

/-- Numbers below the last binade of double precision are far enough below the limit. -/
theorem lt_limit_of_exponent_lt {f : Format} (hf : f.IsNarrow) {x : Binary f}
    (hexponent : x.split.2 < 971) :
    (x.magnitude + 1 / 2 * 2 ^ x.split.2) * twoRoundings < binary64Limit := by
  have hlt : x.magnitude < 2 ^ (53 : ℤ) * 2 ^ x.split.2 := hf.value_lt x.code
  have hnonneg := one_pos.le.trans one_le_twoRoundings
  have hunit : (0 : ℚ) < 2 ^ x.split.2 := by positivity
  have htwo : ((2 : ℚ) ^ (53 : ℤ) + 1 / 2) * twoRoundings < (2 ^ 53 - 1 / 2) * 2 := by
    norm_num [twoRoundings]
  calc (x.magnitude + 1 / 2 * 2 ^ x.split.2) * twoRoundings
      ≤ (2 ^ (53 : ℤ) * 2 ^ x.split.2 + 1 / 2 * 2 ^ x.split.2) * twoRoundings := by gcongr
    _ = (2 ^ (53 : ℤ) + 1 / 2) * twoRoundings * 2 ^ x.split.2 := by ring
    _ < (2 ^ 53 - 1 / 2) * 2 * 2 ^ x.split.2 := by gcongr
    _ = (2 ^ 53 - 1 / 2) * 2 ^ (x.split.2 + 1) := by
      rw [zpow_add_one₀ two_ne_zero]
      ring
    _ ≤ binary64Limit := by
      rw [binary64Limit]
      gcongr
      · norm_num
      · exact hexponent

/-- **Every finite float** is read back from its literal. -/
theorem isReadable_ofBinary32 {x : Binary32} (hfinite : x.isInfinite = false) :
    (ofBinary layout32 x).isReadable = true := by
  have hexponent : x.split.2 < 971 :=
    (exponent_le_of_lt_infinity32 (Binary.code_lt_of_isFinite hfinite)).trans_lt (by decide)
  exact isReadable_ofBinary Format.isNarrow_binary32 (by decide) hfinite
    (lt_limit_of_exponent_lt Format.isNarrow_binary32 hexponent)

/-- **Every finite double** is read back from its literal. -/
theorem isReadable_ofBinary64 {x : Binary64} (hfinite : x.isInfinite = false) :
    (ofBinary layout64 x).isReadable = true := by
  have hnarrow := Format.isNarrow_binary64
  by_cases hexponent : x.split.2 < 971
  · exact isReadable_ofBinary hnarrow (by decide) hfinite
      (lt_limit_of_exponent_lt hnarrow hexponent)
  have hle := exponent_le_of_lt_infinity (Binary.code_lt_of_isFinite hfinite)
  have hlast : x.split.2 = 971 := le_antisymm hle (not_lt.mp hexponent)
  by_cases hsignificand : x.split.1 ≤ 2 ^ 53 - 3
  · refine isReadable_ofBinary hnarrow (by decide) hfinite ?_
    have hcast : (x.split.1 : ℚ) ≤ (2 ^ 53 - 3 : Nat) := by exact_mod_cast hsignificand
    have hmagnitude : x.magnitude = x.split.1 * 2 ^ (971 : ℤ) := by
      rw [← hlast]
      rfl
    have htwo : (((2 ^ 53 - 3 : Nat) : ℚ) + 1 / 2) * twoRoundings < 2 ^ 53 - 1 / 2 := by
      norm_num [twoRoundings]
    have hpos : (0 : ℚ) < 2 ^ (971 : ℤ) := by positivity
    have hnonneg := one_pos.le.trans one_le_twoRoundings
    rw [hmagnitude, hlast, binary64Limit]
    calc ((x.split.1 : ℚ) * 2 ^ (971 : ℤ) + 1 / 2 * 2 ^ (971 : ℤ)) * twoRoundings
        = ((x.split.1 : ℚ) + 1 / 2) * twoRoundings * 2 ^ (971 : ℤ) := by ring
      _ ≤ (((2 ^ 53 - 3 : Nat) : ℚ) + 1 / 2) * twoRoundings * 2 ^ (971 : ℤ) := by gcongr
      _ < (2 ^ 53 - 1 / 2) * 2 ^ (971 : ℤ) := by gcongr
  · -- the two largest doubles
    obtain ⟨negative, code, hcode⟩ := x
    obtain rfl | rfl : code = 2047 * 2 ^ 52 - 1 ∨ code = 2047 * 2 ^ 52 - 2 := by
      rw [Binary.split] at hlast hsignificand
      dsimp only at hlast hsignificand
      by_cases hzero : code / binary64.hidden = 0
      · rw [binary64.split_of_eq_zero hzero, depth_binary64] at hlast
        omega
      · rw [binary64.split_of_ne_zero hzero, hidden_binary64] at hlast hsignificand
        rw [depth_binary64] at hlast
        dsimp only at hlast hsignificand
        omega
    · revert negative hcode
      decide +kernel
    · revert negative hcode
      decide +kernel

/-! ### Doubles that are read -/

theorem isInfinite_of_ofParts {negative : Bool} {word : Nat} {e : ℤ} {x : Binary64}
    (hword : word < 2 ^ 64) (h : ofParts negative word e = some x) : x.isInfinite = false := by
  obtain ⟨y, hscaled, rfl⟩ := Option.map_eq_some_iff.mp h
  have hfinite := isInfinite_of_scaled (Binary.isInfinite_ofNat (word_lt_limit hword)) hscaled
  split
  · exact hfinite
  · exact hfinite

theorem isInfinite_of_withExponent {n : Number} {word : Nat} {start : ℤ} {x : Binary64}
    (hword : word < 2 ^ 64) (h : withExponent n word start = some x) : x.isInfinite = false := by
  rw [withExponent] at h
  split at h
  · exact isInfinite_of_ofParts hword h
  · dsimp only at h
    split at h
    · split at h
      · cases h
      · cases h
        rfl
    · exact isInfinite_of_ofParts hword h

theorem isInfinite_of_double? {n : Number} {x : Binary64} (h : n.double? = some x) :
    x.isInfinite = false := by
  have hwhole : (collect 0 n.whole).1 < 2 ^ 64 := collect_lt (by decide)
  rw [double?] at h
  dsimp only at h
  split at h
  · exact isInfinite_of_withExponent hwhole h
  · exact isInfinite_of_withExponent (collect_lt hwhole) h

theorem natAbs_lt_of_toInt? {n : Number} {i : ℤ} (h : n.toInt? = some i) : i.natAbs < 2 ^ 64 := by
  have hpow : Nat.pow 2 63 = 2 ^ 63 ∧ Nat.pow 2 64 = 2 ^ 64 := ⟨rfl, rfl⟩
  rw [toInt?, hpow.1, hpow.2] at h
  split at h
  · cases h
  · split at h
    · split at h
      · next hrange =>
        cases h
        simp only [Bool.and_eq_true, decide_eq_true_eq] at hrange
        omega
      · cases h
    · split at h
      · next hrange =>
        cases h
        omega
      · cases h

/-- **No literal denotes an infinite double.** -/
theorem isInfinite_of_toBinary64? {n : Number} {x : Binary64} (h : n.toBinary64? = some x) :
    x.isInfinite = false := by
  obtain ⟨m, hmachine, rfl⟩ := Option.map_eq_some_iff.mp h
  rw [machine?] at hmachine
  split at hmachine
  · next i hwhole =>
    cases hmachine
    refine Binary.isInfinite_ofRatio _ Nat.one_pos ?_
    rw [Nat.cast_one, div_one]
    exact word_lt_limit (natAbs_lt_of_toInt? hwhole)
  · obtain ⟨y, hdouble, rfl⟩ := Option.map_eq_some_iff.mp hmachine
    exact isInfinite_of_double? hdouble

end Number

end MutationTesting
