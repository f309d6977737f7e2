import Mathlib.Algebra.Order.Field.Power
import Mathlib.Data.Nat.Log
import Mathlib.Data.Rat.Floor
import Mathlib.Tactic.FieldSimp
import Mathlib.Tactic.Linarith
import Mathlib.Tactic.NormNum
import Mathlib.Tactic.Positivity
import Mathlib.Tactic.Ring
import MutationTesting.Decimal.Binary
/-!
# Values of binary floating-point numbers

The arithmetic of natural numbers that rounds is read as arithmetic of rationals: a code has a
value, and the code nearest to a quotient has a value near the quotient. What lies below the limit
of double precision is rounded to a number and not to infinity, so a product or a quotient is finite
where its exact value is below the limit.

## Main definitions

* `Format.value`, `Binary.magnitude` — the value of a code, and of a number without its sign
* `binary64Limit` — from here on the nearest double is infinite

## Main results

* `floorLog2_spec` — the binary logarithm
* `nearestCode_lt_infinity`, `value_nearestCode` — rounding to a double
* `Binary.isInfinite_mul`, `Binary.isInfinite_div` — arithmetic that stays finite
-/

namespace MutationTesting.Decimal

/-! ### Quotients -/

theorem scale_pos (num : Nat) {den : Nat} (hden : 0 < den) (k : Int) : 0 < (scale num den k).2 := by
  cases k with
  | ofNat k => exact hden
  | negSucc k => exact Nat.mul_pos hden (Nat.two_pow_pos _)

/-- Scaling multiplies by a power of two. -/
theorem scale_div (num den : Nat) (k : Int) :
    ((scale num den k).1 : ℚ) / (scale num den k).2 = (num : ℚ) / den * 2 ^ k := by
  cases k with
  | ofNat k =>
    have hpow : Nat.pow 2 k = 2 ^ k := rfl
    rw [scale, hpow, Int.ofNat_eq_natCast, zpow_natCast]
    push_cast
    ring
  | negSucc k =>
    have hpow : Nat.pow 2 (k + 1) = 2 ^ (k + 1) := rfl
    rw [scale, hpow, zpow_negSucc]
    push_cast
    rw [div_mul_eq_div_div, div_eq_mul_inv ((num : ℚ) / den)]

theorem two_pow_log2_le {n : Nat} (hn : 0 < n) : (2 : ℚ) ^ (Nat.log2 n : ℤ) ≤ n := by
  rw [zpow_natCast]
  exact_mod_cast Nat.log2_self_le hn.ne'

theorem lt_two_pow_log2 (n : Nat) : (n : ℚ) < 2 ^ ((Nat.log2 n : ℤ) + 1) := by
  have h : n < 2 ^ (Nat.log2 n + 1) := Nat.lt_log2_self
  have hcast : ((Nat.log2 n : ℤ) + 1) = ((Nat.log2 n + 1 : Nat) : ℤ) := by push_cast; rfl
  rw [hcast, zpow_natCast]
  exact_mod_cast h

/-- **The binary logarithm** of a quotient. -/
theorem floorLog2_spec {num den : Nat} (hnum : 0 < num) (hden : 0 < den) :
    (2 : ℚ) ^ floorLog2 num den ≤ (num : ℚ) / den ∧
      (num : ℚ) / den < 2 ^ (floorLog2 num den + 1) := by
  have hden' : (0 : ℚ) < den := by exact_mod_cast hden
  set e : ℤ := (Nat.log2 num : ℤ) - Nat.log2 den with he
  have hupper : (num : ℚ) / den < 2 ^ (e + 1) := by
    rw [div_lt_iff₀ hden']
    calc (num : ℚ) < 2 ^ ((Nat.log2 num : ℤ) + 1) := lt_two_pow_log2 num
      _ = 2 ^ (e + 1) * 2 ^ (Nat.log2 den : ℤ) := by
        rw [← zpow_add₀ two_ne_zero]
        congr 1
        omega
      _ ≤ 2 ^ (e + 1) * den := by
        gcongr
        exact two_pow_log2_le hden
  have hlower : (2 : ℚ) ^ (e - 1) ≤ (num : ℚ) / den := by
    rw [le_div_iff₀ hden']
    calc (2 : ℚ) ^ (e - 1) * den ≤ 2 ^ (e - 1) * 2 ^ ((Nat.log2 den : ℤ) + 1) := by
          gcongr
          exact (lt_two_pow_log2 den).le
      _ = 2 ^ (Nat.log2 num : ℤ) := by
        rw [← zpow_add₀ two_ne_zero]
        congr 1
        omega
      _ ≤ num := two_pow_log2_le hnum
  have hscaled := scale_div num den (-e)
  have hpos := scale_pos num hden (-e)
  -- the scaled quotient tells which side of the power of two the quotient lies on
  have hside : (scale num den (-e)).2 ≤ (scale num den (-e)).1 ↔ (2 : ℚ) ^ e ≤ (num : ℚ) / den := by
    have hpos' : (0 : ℚ) < (scale num den (-e)).2 := by exact_mod_cast hpos
    rw [← Nat.cast_le (α := ℚ), ← one_le_div hpos', hscaled, zpow_neg, ← div_eq_mul_inv,
      one_le_div (by positivity)]
  rw [floorLog2, ← he]
  dsimp only
  split
  · next h => exact ⟨hside.mp h, hupper⟩
  · next h =>
    rw [sub_add_cancel]
    exact ⟨hlower, not_le.mp fun hle => h (hside.mpr hle)⟩

/-- Rounding to a whole number moves by a half at most. -/
theorem roundDiv_bounds (num : Nat) {den : Nat} (hden : 0 < den) :
    2 * (roundDiv num den * den) ≤ 2 * num + den ∧
      2 * num ≤ 2 * (roundDiv num den * den) + den := by
  have hdiv := Nat.div_add_mod' num den
  have hmod := Nat.mod_lt num hden
  rw [roundDiv]
  split
  · next h =>
    rw [Nat.add_mul]
    omega
  · next h => omega

theorem roundDiv_le (num : Nat) {den : Nat} (hden : 0 < den) :
    (roundDiv num den : ℚ) ≤ (num : ℚ) / den + 1 / 2 := by
  have hden' : (0 : ℚ) < den := by exact_mod_cast hden
  have h : (2 * (roundDiv num den * den) : ℚ) ≤ 2 * num + den := by
    exact_mod_cast (roundDiv_bounds num hden).1
  rw [div_add_div _ _ hden'.ne' two_ne_zero, le_div_iff₀ (by positivity)]
  linarith

theorem le_roundDiv (num : Nat) {den : Nat} (hden : 0 < den) :
    (num : ℚ) / den ≤ roundDiv num den + 1 / 2 := by
  have hden' : (0 : ℚ) < den := by exact_mod_cast hden
  have h : (2 * num : ℚ) ≤ 2 * (roundDiv num den * den) + den := by
    exact_mod_cast (roundDiv_bounds num hden).2
  rw [div_le_iff₀ hden']
  linarith

/-! ### Codes -/

namespace Format

variable (f : Format)

/-- The value of a finite code. -/
def value (code : Nat) : ℚ := (f.split code).1 * 2 ^ (f.split code).2

theorem hidden_pos : 0 < f.hidden := Nat.two_pow_pos _

theorem split_of_eq_zero {code : Nat} (h : code / f.hidden = 0) :
    f.split code = (code % f.hidden, -(f.depth : ℤ)) :=
  if_pos h

theorem split_of_ne_zero {code : Nat} (h : code / f.hidden ≠ 0) : f.split code =
    (code % f.hidden + f.hidden, ((code / f.hidden : Nat) : ℤ) - 1 - f.depth) :=
  if_neg h

theorem split_lt (code : Nat) : (f.split code).1 < 2 * f.hidden := by
  have hmod := Nat.mod_lt code f.hidden_pos
  by_cases hzero : code / f.hidden = 0
  · rw [f.split_of_eq_zero hzero]
    omega
  · rw [f.split_of_ne_zero hzero]
    omega

theorem value_nonneg (code : Nat) : 0 ≤ f.value code := by
  rw [value]
  positivity

/-- A whole significand that may carry into the exponent is added to the code of a power of
two. -/
theorem value_add {r : Nat} (hlow : f.hidden ≤ r) (hhigh : r ≤ 2 * f.hidden) (k : Nat) :
    f.value (k * f.hidden + r) = r * 2 ^ ((k : ℤ) - f.depth) := by
  have hpos := f.hidden_pos
  obtain hcarry | hlt := hhigh.eq_or_lt
  · have hcode : k * f.hidden + r = (k + 2) * f.hidden := by
      rw [hcarry]
      ring
    have hsplit : f.split ((k + 2) * f.hidden) = (f.hidden, ((k + 2 : Nat) : ℤ) - 1 - f.depth) := by
      rw [split, Nat.mul_div_cancel _ hpos, Nat.mul_mod_left]
      simp
    have hexponent : ((k + 2 : Nat) : ℤ) - 1 - f.depth = (k : ℤ) - f.depth + 1 := by
      push_cast
      ring
    rw [hcode, value, hsplit, hcarry]
    dsimp only
    rw [hexponent, zpow_add_one₀ two_ne_zero]
    push_cast
    ring
  · have hcode : k * f.hidden + r = (r - f.hidden) + (k + 1) * f.hidden := by
      rw [Nat.add_mul]
      omega
    have hfraction : r - f.hidden < f.hidden := by omega
    have hsplit : f.split ((r - f.hidden) + (k + 1) * f.hidden) =
        (r, ((k + 1 : Nat) : ℤ) - 1 - f.depth) := by
      rw [split, Nat.add_mul_div_right _ _ hpos, Nat.add_mul_mod_self_right,
        Nat.div_eq_of_lt hfraction, Nat.mod_eq_of_lt hfraction, Nat.zero_add]
      simp only [Nat.succ_ne_zero, if_false, Nat.sub_add_cancel hlow]
    have hexponent : ((k + 1 : Nat) : ℤ) - 1 - f.depth = (k : ℤ) - f.depth := by
      push_cast
      ring
    rw [hcode, value, hsplit, hexponent]

end Format

/-! ### Double precision -/

theorem hidden_binary64 : binary64.hidden = 2 ^ 52 := rfl

theorem depth_binary64 : binary64.depth = 1074 := rfl

theorem infinity_binary64 : binary64.infinity = 2047 * 2 ^ 52 := rfl

/-- Halfway between the largest double and the power of two above it. -/
def binary64Limit : ℚ := (2 ^ 53 - 1 / 2) * 2 ^ (971 : ℤ)

theorem binary64Limit_lt : binary64Limit < 2 ^ (1024 : ℤ) := by
  calc binary64Limit < 2 ^ (53 : ℤ) * 2 ^ (971 : ℤ) := by
        rw [binary64Limit, zpow_ofNat]
        gcongr
        norm_num
    _ = 2 ^ (1024 : ℤ) := by
      rw [← zpow_add₀ two_ne_zero]
      norm_num

/-- The exponent of two of a double is that of its last place. -/
theorem exponent_le_of_lt_infinity {code : Nat} (h : code < binary64.infinity) :
    (binary64.split code).2 ≤ 971 := by
  rw [infinity_binary64] at h
  by_cases hzero : code / binary64.hidden = 0
  · rw [binary64.split_of_eq_zero hzero, depth_binary64]
    omega
  · rw [binary64.split_of_ne_zero hzero, hidden_binary64, depth_binary64]
    omega

theorem value_le_of_lt_infinity {code : Nat} (h : code < binary64.infinity) :
    binary64.value code ≤ (2 ^ 53 - 1) * 2 ^ (971 : ℤ) := by
  have hsignificand : ((binary64.split code).1 : ℚ) ≤ 2 ^ 53 - 1 := by
    have hlt := binary64.split_lt code
    rw [hidden_binary64] at hlt
    have hle : (binary64.split code).1 + 1 ≤ 2 ^ 53 := by omega
    have hcast : ((binary64.split code).1 : ℚ) + 1 ≤ 2 ^ 53 := by exact_mod_cast hle
    linarith
  have hexponent := exponent_le_of_lt_infinity h
  rw [Format.value]
  gcongr
  norm_num

section Nearest

variable {num den : Nat}

/-- The exponent of two of the last place of a quotient that is rounded to a double. -/
def lastPlace (num den : Nat) : ℤ := max (floorLog2 num den - 52) (-1074)

/-- The significand of a quotient that is rounded to a double. -/
def roundedSignificand (num den : Nat) : Nat :=
  roundDiv (scale num den (-lastPlace num den)).1 (scale num den (-lastPlace num den)).2

theorem nearestCode_eq (hnum : num ≠ 0) :
    Binary.nearestCode binary64 num den =
      min ((lastPlace num den + 1074).toNat * 2 ^ 52 + roundedSignificand num den)
        binary64.infinity := by
  rw [Binary.nearestCode, if_neg hnum]
  rfl

theorem roundedSignificand_le (num : Nat) (hden : 0 < den) :
    (roundedSignificand num den : ℚ) ≤ (num : ℚ) / den * 2 ^ (-lastPlace num den) + 1 / 2 := by
  rw [← scale_div]
  exact roundDiv_le _ (scale_pos num hden _)

theorem le_roundedSignificand (num : Nat) (hden : 0 < den) :
    (num : ℚ) / den * 2 ^ (-lastPlace num den) ≤ roundedSignificand num den + 1 / 2 := by
  rw [← scale_div]
  exact le_roundDiv _ (scale_pos num hden _)

theorem scaled_lt (hnum : 0 < num) (hden : 0 < den) :
    (num : ℚ) / den * 2 ^ (-lastPlace num den) < 2 ^ 53 := by
  have hlog := (floorLog2_spec hnum hden).2
  calc (num : ℚ) / den * 2 ^ (-lastPlace num den)
      < 2 ^ (floorLog2 num den + 1) * 2 ^ (-lastPlace num den) := by gcongr
    _ = 2 ^ (floorLog2 num den + 1 - lastPlace num den) := by
      rw [← zpow_add₀ two_ne_zero, sub_eq_add_neg]
    _ ≤ 2 ^ 53 := by
      rw [← zpow_ofNat]
      gcongr
      · norm_num
      · rw [lastPlace]
        omega

theorem roundedSignificand_le_two_pow (hnum : 0 < num) (hden : 0 < den) :
    roundedSignificand num den ≤ 2 ^ 53 := by
  have hlt : (roundedSignificand num den : ℚ) < (2 ^ 53 : Nat) + 1 := by
    have hle := roundedSignificand_le num hden
    have hscaled := scaled_lt hnum hden
    push_cast
    linarith
  have hnat : roundedSignificand num den < 2 ^ 53 + 1 := by exact_mod_cast hlt
  omega

/-- **A quotient below the limit** is rounded to a number. -/
theorem nearestCode_lt_infinity (hden : 0 < den) (h : (num : ℚ) / den < binary64Limit) :
    Binary.nearestCode binary64 num den < binary64.infinity := by
  obtain rfl | hnum := num.eq_zero_or_pos
  · rw [Binary.nearestCode, if_pos rfl]
    decide
  have hlog := (floorLog2_spec hnum hden).1
  have hsignificand := roundedSignificand_le_two_pow hnum hden
  rw [nearestCode_eq hnum.ne', infinity_binary64]
  refine (Nat.min_le_left _ _).trans_lt ?_
  by_cases hplace : lastPlace num den ≤ 970
  · omega
  · -- the last place is that of the largest doubles
    have hlt : floorLog2 num den < 1024 := by
      have hpow : (2 : ℚ) ^ floorLog2 num den < 2 ^ (1024 : ℤ) :=
        (hlog.trans_lt h).trans binary64Limit_lt
      exact (zpow_lt_zpow_iff_right₀ one_lt_two).mp hpow
    have hlast : lastPlace num den = 971 := by
      rw [lastPlace] at hplace ⊢
      omega
    have hle := roundedSignificand_le num hden
    rw [hlast] at hle
    have hscaled : (num : ℚ) / den * 2 ^ (-971 : ℤ) < 2 ^ 53 - 1 / 2 := by
      rw [binary64Limit] at h
      rw [zpow_neg, ← div_eq_mul_inv, div_lt_iff₀ (by positivity)]
      exact h
    have hcast : (roundedSignificand num den : ℚ) < (2 ^ 53 : Nat) := by
      push_cast
      linarith
    have hnat : roundedSignificand num den < 2 ^ 53 := by exact_mod_cast hcast
    rw [hlast]
    omega

/-- The last place of a quotient that is not below one. -/
theorem lastPlace_of_one_le (hnum : 0 < num) (hden : 0 < den) (hone : 1 ≤ (num : ℚ) / den) :
    0 ≤ floorLog2 num den ∧ lastPlace num den = floorLog2 num den - 52 := by
  have hexponent : 0 ≤ floorLog2 num den := by
    have hpow : (2 : ℚ) ^ (0 : ℤ) < 2 ^ (floorLog2 num den + 1) := by
      rw [zpow_zero]
      exact hone.trans_lt (floorLog2_spec hnum hden).2
    have hlt := (zpow_lt_zpow_iff_right₀ one_lt_two).mp hpow
    omega
  refine ⟨hexponent, ?_⟩
  rw [lastPlace]
  omega

/-- The significand of a quotient that is not below one has all its digits. -/
theorem two_pow_le_roundedSignificand (hnum : 0 < num) (hden : 0 < den)
    (hone : 1 ≤ (num : ℚ) / den) : 2 ^ 52 ≤ roundedSignificand num den := by
  have hlog := (floorLog2_spec hnum hden).1
  have hge := le_roundedSignificand num hden
  rw [(lastPlace_of_one_le hnum hden hone).2] at hge
  have hscaled : (2 : ℚ) ^ 52 ≤ (num : ℚ) / den * 2 ^ (-(floorLog2 num den - 52)) := by
    calc (2 : ℚ) ^ 52 = 2 ^ floorLog2 num den * 2 ^ (-(floorLog2 num den - 52)) := by
          rw [← zpow_ofNat, ← zpow_add₀ two_ne_zero]
          congr 1
          ring
      _ ≤ (num : ℚ) / den * 2 ^ (-(floorLog2 num den - 52)) := by gcongr
  have hcast : ((2 ^ 52 : Nat) : ℚ) < (roundedSignificand num den : ℚ) + 1 := by
    push_cast
    linarith
  have hnat : 2 ^ 52 < roundedSignificand num den + 1 := by exact_mod_cast hcast
  omega

/-- The value of the double nearest to a quotient that is not below one. -/
theorem value_nearestCode_eq (hnum : 0 < num) (hden : 0 < den) (hone : 1 ≤ (num : ℚ) / den)
    (hfinite : Binary.nearestCode binary64 num den < binary64.infinity) :
    binary64.value (Binary.nearestCode binary64 num den) =
      roundedSignificand num den * 2 ^ (floorLog2 num den - 52) := by
  obtain ⟨hexponent, hlast⟩ := lastPlace_of_one_le hnum hden hone
  have hlow := two_pow_le_roundedSignificand hnum hden hone
  have hhigh := roundedSignificand_le_two_pow hnum hden
  have hcode : Binary.nearestCode binary64 num den =
      (lastPlace num den + 1074).toNat * 2 ^ 52 + roundedSignificand num den := by
    rw [nearestCode_eq hnum.ne'] at hfinite ⊢
    omega
  rw [hcode, ← hidden_binary64, Format.value_add _ hlow hhigh, depth_binary64, hlast]
  congr 2
  omega

/-- **Rounding to a double** adds at most one part in `2 ^ 53` to a quotient that is not below
one. -/
theorem value_nearestCode (hden : 0 < den) (hone : 1 ≤ (num : ℚ) / den)
    (hfinite : Binary.nearestCode binary64 num den < binary64.infinity) :
    1 ≤ binary64.value (Binary.nearestCode binary64 num den) ∧
      binary64.value (Binary.nearestCode binary64 num den) ≤
        (num : ℚ) / den * (1 + 2 ^ (-53 : ℤ)) := by
  have hnum : 0 < num := by
    obtain rfl | hnum := num.eq_zero_or_pos
    · norm_num at hone
    · exact hnum
  obtain ⟨hexponent, hlast⟩ := lastPlace_of_one_le hnum hden hone
  have hlog := (floorLog2_spec hnum hden).1
  have hlow := two_pow_le_roundedSignificand hnum hden hone
  have hle := roundedSignificand_le num hden
  rw [value_nearestCode_eq hnum hden hone hfinite]
  rw [hlast] at hle
  set e := floorLog2 num den
  set r := roundedSignificand num den
  have hunit : (2 : ℚ) ^ (-(e - 52)) * 2 ^ (e - 52) = 1 := by
    rw [← zpow_add₀ two_ne_zero, neg_add_cancel, zpow_zero]
  constructor
  · calc (1 : ℚ) ≤ 2 ^ e := one_le_zpow₀ one_le_two hexponent
      _ = (2 ^ 52 : Nat) * 2 ^ (e - 52) := by
        rw [Nat.cast_pow, Nat.cast_ofNat, ← zpow_natCast, ← zpow_add₀ two_ne_zero]
        congr 1
        omega
      _ ≤ r * 2 ^ (e - 52) := by
        gcongr
  · calc (r : ℚ) * 2 ^ (e - 52)
        ≤ ((num : ℚ) / den * 2 ^ (-(e - 52)) + 1 / 2) * 2 ^ (e - 52) := by gcongr
      _ = (num : ℚ) / den + 1 / 2 * 2 ^ (e - 52) := by
        rw [add_mul, mul_assoc, hunit, mul_one]
      _ = (num : ℚ) / den + 2 ^ e * 2 ^ (-53 : ℤ) := by
        congr 1
        rw [sub_eq_add_neg, zpow_add₀ two_ne_zero]
        norm_num
        ring
      _ ≤ (num : ℚ) / den * (1 + 2 ^ (-53 : ℤ)) := by
        rw [mul_add, mul_one]
        gcongr

end Nearest

/-! ### Arithmetic -/

namespace Binary

/-- The value of a finite number without its sign. -/
def magnitude {f : Format} (x : Binary f) : ℚ := f.value x.code

theorem magnitude_nonneg {f : Format} (x : Binary f) : 0 ≤ x.magnitude := f.value_nonneg x.code

theorem magnitude_eq_zero {f : Format} {x : Binary f} (h : x.code = 0) : x.magnitude = 0 := by
  rw [magnitude, h, Format.value, Format.split_of_eq_zero _ (Nat.zero_div _), Nat.zero_mod,
    Nat.cast_zero, zero_mul]

theorem ratio_snd_pos {f : Format} (x : Binary f) : 0 < x.ratio.2 := scale_pos _ Nat.one_pos _

theorem ratio_div {f : Format} (x : Binary f) : (x.ratio.1 : ℚ) / x.ratio.2 = x.magnitude := by
  rw [ratio, scale_div, Nat.cast_one, div_one]
  rfl

theorem code_lt_of_isFinite {f : Format} {x : Binary f} (h : x.isInfinite = false) :
    x.code < f.infinity :=
  lt_of_le_of_ne x.code_le (of_decide_eq_false h)

theorem isInfinite_eq_false_of_lt {f : Format} {x : Binary f} (h : x.code < f.infinity) :
    x.isInfinite = false :=
  decide_eq_false h.ne

theorem magnitude_lt_limit {x : Binary64} (h : x.isInfinite = false) :
    x.magnitude < binary64Limit := by
  refine (value_le_of_lt_infinity (code_lt_of_isFinite h)).trans_lt ?_
  rw [binary64Limit]
  gcongr
  norm_num

/-- A quotient below the limit has a finite double. -/
theorem isInfinite_ofRatio {num den : Nat} (negative : Bool) (hden : 0 < den)
    (h : (num : ℚ) / den < binary64Limit) :
    (ofRatio negative num den : Binary64).isInfinite = false :=
  isInfinite_eq_false_of_lt (nearestCode_lt_infinity hden h)

/-- A whole number below the limit has a finite double. -/
theorem isInfinite_ofNat {n : Nat} (h : (n : ℚ) < binary64Limit) :
    (ofNat n : Binary64).isInfinite = false := by
  refine isInfinite_ofRatio false Nat.one_pos ?_
  rwa [Nat.cast_one, div_one]

/-- Rounding keeps a positive whole number positive, and adds little to it. -/
theorem magnitude_ofNat {n : Nat} (hpos : 0 < n) (h : (n : ℚ) < binary64Limit) :
    1 ≤ (ofNat n : Binary64).magnitude ∧
      (ofNat n : Binary64).magnitude ≤ n * (1 + 2 ^ (-53 : ℤ)) := by
  have hdiv : (n : ℚ) / (1 : Nat) = n := by rw [Nat.cast_one, div_one]
  have hone : 1 ≤ (n : ℚ) / (1 : Nat) := by
    rw [hdiv]
    exact_mod_cast hpos
  have hspec := value_nearestCode Nat.one_pos hone
    (nearestCode_lt_infinity Nat.one_pos (hdiv.trans_lt h))
  rwa [hdiv] at hspec

theorem magnitude_ofNat_le {n : Nat} (h : (n : ℚ) < binary64Limit) :
    (ofNat n : Binary64).magnitude ≤ n * (1 + 2 ^ (-53 : ℤ)) := by
  obtain rfl | hpos := n.eq_zero_or_pos
  · rw [Nat.cast_zero, zero_mul]
    exact (magnitude_eq_zero rfl).le
  · exact (magnitude_ofNat hpos h).2

theorem mul_eq {f : Format} {x y : Binary f} (hx : x.isInfinite = false)
    (hy : y.isInfinite = false) : x.mul y = ofRatio (x.negative != y.negative)
      (x.ratio.1 * y.ratio.1) (x.ratio.2 * y.ratio.2) := by
  rw [mul, hx, hy]
  rfl

/-- A product below the limit is finite. -/
theorem isInfinite_mul {x y : Binary64} (hx : x.isInfinite = false) (hy : y.isInfinite = false)
    (h : x.magnitude * y.magnitude < binary64Limit) : (x.mul y).isInfinite = false := by
  rw [mul_eq hx hy]
  refine isInfinite_ofRatio _ (Nat.mul_pos x.ratio_snd_pos y.ratio_snd_pos) ?_
  rw [Nat.cast_mul, Nat.cast_mul, mul_div_mul_comm, ratio_div, ratio_div]
  exact h

theorem div_eq {f : Format} {x y : Binary f} (hx : x.isInfinite = false)
    (hy : y.isInfinite = false) (hzero : y.isZero = false) :
    x.div y = ofRatio (x.negative != y.negative) (x.ratio.1 * y.ratio.2)
      (x.ratio.2 * y.ratio.1) := by
  rw [div, hx, hy, hzero]
  rfl

/-- The quotient of two numbers, by their ratios. -/
theorem quotient_ratio {f : Format} (x y : Binary f) :
    ((x.ratio.1 * y.ratio.2 : Nat) : ℚ) / (x.ratio.2 * y.ratio.1 : Nat) =
      x.magnitude / y.magnitude := by
  rw [← ratio_div, ← ratio_div, div_div_div_eq]
  push_cast
  rfl

theorem isZero_eq_false {f : Format} {x : Binary f} (h : 0 < x.magnitude) : x.isZero = false :=
  decide_eq_false fun hcode => h.ne' (magnitude_eq_zero hcode)

theorem ratio_fst_pos {f : Format} {x : Binary f} (h : 0 < x.magnitude) : 0 < x.ratio.1 := by
  refine Nat.pos_of_ne_zero fun hzero => ?_
  have hdiv := x.ratio_div
  rw [hzero, Nat.cast_zero, zero_div] at hdiv
  exact h.ne hdiv

/-- A quotient by a number that is not below one is finite. -/
theorem isInfinite_div {x y : Binary64} (hx : x.isInfinite = false) (hy : y.isInfinite = false)
    (hone : 1 ≤ y.magnitude) : (x.div y).isInfinite = false := by
  have hpos : 0 < y.magnitude := one_pos.trans_le hone
  rw [div_eq hx hy (isZero_eq_false hpos)]
  refine isInfinite_ofRatio _ (Nat.mul_pos x.ratio_snd_pos (ratio_fst_pos hpos)) ?_
  rw [quotient_ratio]
  exact (div_le_self x.magnitude_nonneg hone).trans_lt (magnitude_lt_limit hx)

end Binary

end MutationTesting.Decimal
