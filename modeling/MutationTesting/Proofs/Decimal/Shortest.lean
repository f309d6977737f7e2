import Mathlib.Data.Nat.Cast.Order.Field
import MutationTesting.Proofs.Decimal.Binary
import MutationTesting.Proofs.Decimal.Digits
/-!
# The shortest decimal is found

The search for the shortest decimal of a number goes from coarse grids to finer ones. A grid finer
than half the distance between two numbers has a point between the number and the upper end of its
interval, so the search ends there at the latest. It begins with a grid that is not much coarser
than the number is large, and a number has not many more digits than its significand, so the grid
is reached within the steps that are allowed.

## Main definitions

* `Format.IsNarrow` — a format within double precision
* `Scientific.value`, `Scientific.IsProper` — what significant digits stand for

## Main results

* `Interval.contains_iff` — the interval as one of rationals
* `Interval.search_spec` — what is found lies in the interval
* `decimalExponent_le` — where the search begins
* `shortest_spec`
-/

namespace MutationTesting.Decimal

/-! ### Intervals -/

namespace Interval

variable {i : Interval} {n : Nat} {e : ℤ} {tie : Tie}

/-- A decimal as a quotient, times the denominator of the interval. -/
theorem exists_quotient (i : Interval) (n : Nat) (e : ℤ) : ∃ a b : Nat, 0 < b ∧
    (a : ℚ) / b = n * 10 ^ e * i.den ∧
    i.contains n e = (if i.closed then i.low * b ≤ a && a ≤ i.high * b
      else i.low * b < a && a < i.high * b) := by
  cases e with
  | ofNat k =>
    refine ⟨n * Nat.pow 10 k * i.den, 1, Nat.one_pos, ?_, rfl⟩
    have hpow : Nat.pow 10 k = 10 ^ k := rfl
    rw [hpow, Int.ofNat_eq_natCast, zpow_natCast]
    push_cast
    ring
  | negSucc k =>
    refine ⟨n * i.den, Nat.pow 10 (k + 1), Nat.pow_pos (by decide), ?_, rfl⟩
    have hpow : Nat.pow 10 (k + 1) = 10 ^ (k + 1) := rfl
    rw [hpow, zpow_negSucc]
    push_cast
    rw [div_eq_mul_inv]
    ring

theorem contains_iff (hden : 0 < i.den) : i.contains n e = true ↔
    if i.closed then (i.low : ℚ) / i.den ≤ n * 10 ^ e ∧ (n : ℚ) * 10 ^ e ≤ i.high / i.den
    else (i.low : ℚ) / i.den < n * 10 ^ e ∧ (n : ℚ) * 10 ^ e < i.high / i.den := by
  obtain ⟨a, b, hb, hquotient, hcontains⟩ := i.exists_quotient n e
  have hden' : (0 : ℚ) < i.den := by exact_mod_cast hden
  have hb' : (0 : ℚ) < b := by exact_mod_cast hb
  have ha : (a : ℚ) = n * 10 ^ e * i.den * b := by
    rw [← hquotient, div_mul_cancel₀ _ hb'.ne']
  rw [hcontains]
  split
  · rw [Bool.and_eq_true, decide_eq_true_eq, decide_eq_true_eq, ← Nat.cast_le (α := ℚ),
      ← Nat.cast_le (α := ℚ), Nat.cast_mul, Nat.cast_mul, ha, mul_le_mul_iff_left₀ hb',
      mul_le_mul_iff_left₀ hb', div_le_iff₀ hden', le_div_iff₀ hden']
  · rw [Bool.and_eq_true, decide_eq_true_eq, decide_eq_true_eq, ← Nat.cast_lt (α := ℚ),
      ← Nat.cast_lt (α := ℚ), Nat.cast_mul, Nat.cast_mul, ha, mul_lt_mul_iff_left₀ hb',
      mul_lt_mul_iff_left₀ hb', div_lt_iff₀ hden', lt_div_iff₀ hden']

/-- What lies between the ends lies in the interval. -/
theorem contains_of_lt (hden : 0 < i.den) (hlow : (i.low : ℚ) / i.den < n * 10 ^ e)
    (hhigh : (n : ℚ) * 10 ^ e < i.high / i.den) : i.contains n e = true := by
  rw [contains_iff hden]
  split
  · exact ⟨hlow.le, hhigh.le⟩
  · exact ⟨hlow, hhigh⟩

theorem le_of_contains (hden : 0 < i.den) (h : i.contains n e = true) :
    (n : ℚ) * 10 ^ e ≤ i.high / i.den := by
  rw [contains_iff hden] at h
  split at h
  · exact h.2
  · exact h.2.le

/-! ### The search -/

/-- The value in units of a grid, as a quotient. -/
def gridRatio (i : Interval) : ℤ → Nat × Nat
  | .ofNat k => (i.value, i.den * Nat.pow 10 k)
  | .negSucc k => (i.value * Nat.pow 10 (k + 1), i.den)

theorem gridRatio_pos (hden : 0 < i.den) (e : ℤ) : 0 < (i.gridRatio e).2 := by
  cases e with
  | ofNat k => exact Nat.mul_pos hden (Nat.pow_pos (by decide))
  | negSucc k => exact hden

theorem gridRatio_div (i : Interval) (e : ℤ) :
    ((i.gridRatio e).1 : ℚ) / (i.gridRatio e).2 = i.value / i.den / 10 ^ e := by
  cases e with
  | ofNat k =>
    have hpow : Nat.pow 10 k = 10 ^ k := rfl
    rw [gridRatio, hpow, Int.ofNat_eq_natCast, zpow_natCast]
    push_cast
    rw [div_div]
  | negSucc k =>
    have hpow : Nat.pow 10 (k + 1) = 10 ^ (k + 1) := rfl
    rw [gridRatio, hpow, zpow_negSucc]
    push_cast
    rw [div_inv_eq_mul]
    ring

/-- The point of a grid that is not above the value. -/
def below (i : Interval) (e : ℤ) : Nat := (i.gridRatio e).1 / (i.gridRatio e).2

theorem below_le (i : Interval) (e : ℤ) : (i.below e : ℚ) * 10 ^ e ≤ i.value / i.den := by
  have hpower : (0 : ℚ) < 10 ^ e := by positivity
  rw [← le_div_iff₀ hpower, ← gridRatio_div]
  exact Nat.cast_div_le

theorem lt_below_add_one (hden : 0 < i.den) :
    (i.value : ℚ) / i.den < (i.below e + 1 : Nat) * 10 ^ e := by
  have hpower : (0 : ℚ) < 10 ^ e := by positivity
  have hpos := gridRatio_pos hden e
  have hpos' : (0 : ℚ) < (i.gridRatio e).2 := by exact_mod_cast hpos
  rw [← div_lt_iff₀ hpower, ← gridRatio_div, div_lt_iff₀ hpos']
  exact_mod_cast Nat.lt_mul_of_div_lt (Nat.lt_succ_self _) hpos

/-- A grid is a hit iff one of the two neighbours of the value is. -/
theorem onGrid_eq (i : Interval) (tie : Tie) (e : ℤ) : i.onGrid tie e =
    if (i.contains (i.below e) e && i.below e != 0) && i.contains (i.below e + 1) e then
      if 2 * ((i.gridRatio e).1 % (i.gridRatio e).2) < (i.gridRatio e).2 then some (i.below e)
      else if 2 * ((i.gridRatio e).1 % (i.gridRatio e).2) = (i.gridRatio e).2 && tie = .toEven &&
        i.below e % 2 = 0 then some (i.below e)
      else some (i.below e + 1)
    else if i.contains (i.below e) e && i.below e != 0 then some (i.below e)
    else if i.contains (i.below e + 1) e then some (i.below e + 1)
    else none := by
  cases e <;> rfl

theorem onGrid_spec (h : i.onGrid tie e = some n) : n ≠ 0 ∧ i.contains n e = true := by
  rw [onGrid_eq] at h
  split at h
  · next hboth =>
    obtain ⟨hlower, hupper⟩ := Bool.and_eq_true_iff.mp hboth
    obtain ⟨hcontains, hne⟩ := Bool.and_eq_true_iff.mp hlower
    split at h
    · cases h
      exact ⟨bne_iff_ne.mp hne, hcontains⟩
    · split at h
      · cases h
        exact ⟨bne_iff_ne.mp hne, hcontains⟩
      · cases h
        exact ⟨Nat.succ_ne_zero _, hupper⟩
  · split at h
    · next hlower =>
      obtain ⟨hcontains, hne⟩ := Bool.and_eq_true_iff.mp hlower
      cases h
      exact ⟨bne_iff_ne.mp hne, hcontains⟩
    · split at h
      · next hupper =>
        cases h
        exact ⟨Nat.succ_ne_zero _, hupper⟩
      · cases h

/-- A grid that is finer than the way from the value to the upper end is a hit. -/
theorem isSome_onGrid (tie : Tie) (hden : 0 < i.den) (hlow : i.low < i.value)
    (hstep : (i.value : ℚ) / i.den + 10 ^ e < i.high / i.den) : (i.onGrid tie e).isSome = true := by
  have hden' : (0 : ℚ) < i.den := by exact_mod_cast hden
  have hlow' : (i.low : ℚ) / i.den < i.value / i.den := by
    gcongr
  have hupper : i.contains (i.below e + 1) e = true := by
    have habove := lt_below_add_one (e := e) hden
    have hbelow := i.below_le e
    refine contains_of_lt hden (hlow'.trans habove) (lt_of_le_of_lt ?_ hstep)
    push_cast
    linarith
  rw [onGrid_eq, hupper]
  split
  · split
    · rfl
    · split <;> rfl
  · split <;> rfl

/-- **The search ends with a decimal in the interval** if there is a hit on its way. -/
theorem search_spec {fuel k : Nat} (hk : k < fuel)
    (hhit : (i.onGrid tie (e - k)).isSome = true) :
    (i.search tie fuel e).1 ≠ 0 ∧
      i.contains (i.search tie fuel e).1 (i.search tie fuel e).2 = true := by
  induction fuel generalizing e k with
  | zero => exact absurd hk (Nat.not_lt_zero k)
  | succ fuel ih =>
    rw [search]
    cases hfound : i.onGrid tie e with
    | some n => exact onGrid_spec hfound
    | none =>
      cases k with
      | zero =>
        rw [Nat.cast_zero, sub_zero, hfound] at hhit
        cases hhit
      | succ k =>
        refine ih (Nat.lt_of_succ_lt_succ hk) (k := k) ?_
        rw [Nat.cast_succ, ← sub_sub, sub_right_comm] at hhit
        exact hhit

end Interval

/-! ### The interval of a number -/

theorem exponent_le_of_lt_infinity32 {code : Nat} (h : code < binary32.infinity) :
    (binary32.split code).2 ≤ 104 := by
  have hinfinity : binary32.infinity = 255 * 2 ^ 23 := rfl
  have hhidden : binary32.hidden = 2 ^ 23 := rfl
  have hdepth : binary32.depth = 149 := rfl
  rw [hinfinity] at h
  by_cases hzero : code / binary32.hidden = 0
  · rw [binary32.split_of_eq_zero hzero, hdepth]
    omega
  · rw [binary32.split_of_ne_zero hzero, hhidden, hdepth]
    omega

namespace Format

variable {f : Format} {code : Nat}

/-- The numbers of the format are numbers of double precision. -/
structure IsNarrow (f : Format) : Prop where
  hidden_le : f.hidden ≤ 2 ^ 52
  depth_le : f.depth ≤ 1074
  exponent_le : ∀ code < f.infinity, (f.split code).2 ≤ 971

theorem isNarrow_binary64 : binary64.IsNarrow :=
  ⟨le_rfl, le_rfl, fun _ => exponent_le_of_lt_infinity⟩

theorem isNarrow_binary32 : binary32.IsNarrow where
  hidden_le := by decide
  depth_le := by decide
  exponent_le _ h := (exponent_le_of_lt_infinity32 h).trans (by decide)

theorem split_pos (hcode : 0 < code) : 0 < (f.split code).1 := by
  have hpos := f.hidden_pos
  by_cases hzero : code / f.hidden = 0
  · rw [f.split_of_eq_zero hzero]
    have hlt := (Nat.div_eq_zero_iff_lt hpos).mp hzero
    rwa [Nat.mod_eq_of_lt hlt]
  · rw [f.split_of_ne_zero hzero]
    omega

theorem neg_depth_le (f : Format) (code : Nat) : -(f.depth : ℤ) ≤ (f.split code).2 := by
  by_cases hzero : code / f.hidden = 0
  · rw [f.split_of_eq_zero hzero]
  · have hpos := Nat.pos_of_ne_zero hzero
    rw [f.split_of_ne_zero hzero]
    generalize code / f.hidden = e at hpos ⊢
    omega

/-- A number is less than `2 ^ 53` units of its last place. -/
theorem IsNarrow.value_lt (h : f.IsNarrow) (code : Nat) :
    f.value code < 2 ^ (53 : ℤ) * 2 ^ (f.split code).2 := by
  have hlt := f.split_lt code
  have hhidden := h.hidden_le
  have hsignificand : (f.split code).1 < 2 ^ 53 := by omega
  have hcast : ((f.split code).1 : ℚ) < 2 ^ (53 : ℤ) := by
    rw [zpow_ofNat]
    exact_mod_cast hsignificand
  rw [value]
  gcongr

theorem lastPlace_le_value (hcode : 0 < code) : (2 : ℚ) ^ (f.split code).2 ≤ f.value code := by
  have hone : (1 : ℚ) ≤ (f.split code).1 := by exact_mod_cast f.split_pos hcode
  rw [value]
  exact le_mul_of_one_le_left (by positivity) hone

theorem IsNarrow.value_lt_limit (h : f.IsNarrow) (hfinite : code < f.infinity) :
    f.value code < 2 ^ (1024 : ℤ) := by
  calc f.value code < 2 ^ (53 : ℤ) * 2 ^ (f.split code).2 := h.value_lt code
    _ = 2 ^ (53 + (f.split code).2) := by rw [← zpow_add₀ two_ne_zero]
    _ ≤ 2 ^ (1024 : ℤ) := by
      have hexponent := h.exponent_le code hfinite
      gcongr
      · norm_num
      · omega

theorem IsNarrow.limit_le_value (h : f.IsNarrow) (hcode : 0 < code) :
    (2 : ℚ) ^ (-1074 : ℤ) ≤ f.value code := by
  refine le_trans ?_ (lastPlace_le_value hcode)
  have hdepth := h.depth_le
  have hexponent := f.neg_depth_le code
  gcongr
  · norm_num
  · omega

end Format

section Interval

variable {f : Format} {code : Nat}

theorem interval_eq (f : Format) (code : Nat) : interval f code =
    ⟨(4 * (f.split code).1 - if (f.split code).1 = f.hidden ∧ f.hidden * 2 ≤ code then 1 else 2) *
      (scale 1 4 (f.split code).2).1, 4 * (f.split code).1 * (scale 1 4 (f.split code).2).1,
      (4 * (f.split code).1 + 2) * (scale 1 4 (f.split code).2).1, (scale 1 4 (f.split code).2).2,
      (f.split code).1 % 2 = 0⟩ := rfl

theorem interval_den_pos (f : Format) (code : Nat) : 0 < (interval f code).den :=
  scale_pos 1 (by decide) _

theorem interval_value (f : Format) (code : Nat) :
    ((interval f code).value : ℚ) / (interval f code).den = f.value code := by
  have hscale := scale_div 1 4 (f.split code).2
  rw [interval_eq]
  push_cast
  rw [mul_div_assoc, hscale, Format.value]
  push_cast
  ring

theorem interval_high (f : Format) (code : Nat) :
    ((interval f code).high : ℚ) / (interval f code).den =
      f.value code + 1 / 2 * 2 ^ (f.split code).2 := by
  have hscale := scale_div 1 4 (f.split code).2
  rw [interval_eq]
  push_cast
  rw [mul_div_assoc, hscale, Format.value]
  push_cast
  ring

theorem interval_low_lt (hcode : 0 < code) :
    (interval f code).low < (interval f code).value := by
  have hunit : 0 < (scale 1 4 (f.split code).2).1 := by
    cases (f.split code).2 with
    | ofNat k => exact Nat.mul_pos Nat.one_pos (Nat.two_pow_pos k)
    | negSucc k => exact Nat.one_pos
  have hpos := Format.split_pos (f := f) hcode
  rw [interval_eq]
  refine Nat.mul_lt_mul_of_pos_right ?_ hunit
  split <;> omega

end Interval

/-! ### Where the search begins -/

theorem ten_pow_le_two_pow : ∀ k < 1024,
    10 ^ ((k + 1) * 30103 / 100000 + 1) ≤ 2 ^ k * 10 ^ 22 := by
  decide +kernel

theorem two_pow_le_ten_pow : ∀ k < 1075,
    2 ^ k ≤ 10 ^ ((k - 1) * 30103 / 100000) * 10 ^ 22 := by
  decide +kernel

theorem decimalExponent_of_neg {num den k : Nat} (h : floorLog2 num den = -(k : ℤ)) (hk : 0 < k) :
    decimalExponent num den = -(((k - 1) * 30103 / 100000 : Nat) : ℤ) := by
  have htwos : (-floorLog2 num den).toNat = k := by omega
  rw [decimalExponent, if_pos (by omega), htwos]

theorem decimalExponent_of_nonneg {num den k : Nat} (h : floorLog2 num den = k) :
    decimalExponent num den = (((k + 1) * 30103 / 100000 + 1 : Nat) : ℤ) := by
  rw [decimalExponent, h, if_neg (by omega), Int.toNat_natCast]
  push_cast
  rfl

/-- **The search begins** with a grid that is coarser than a number by 22 digits at most. -/
theorem decimalExponent_le {num den : Nat} (hnum : 0 < num) (hden : 0 < den)
    (hlow : (2 : ℚ) ^ (-1074 : ℤ) ≤ (num : ℚ) / den) (hhigh : (num : ℚ) / den < 2 ^ (1024 : ℤ)) :
    (10 : ℚ) ^ decimalExponent num den ≤ (num : ℚ) / den * 10 ^ 22 := by
  obtain ⟨hlog, hlog'⟩ := floorLog2_spec hnum hden
  have hsmall : floorLog2 num den < 1024 :=
    (zpow_lt_zpow_iff_right₀ one_lt_two).mp (hlog.trans_lt hhigh)
  have hlarge : -1074 < floorLog2 num den + 1 :=
    (zpow_lt_zpow_iff_right₀ one_lt_two).mp (hlow.trans_lt hlog')
  refine le_trans ?_ (mul_le_mul_of_nonneg_right hlog (by positivity))
  obtain ⟨k, hk | hk⟩ := (floorLog2 num den).eq_nat_or_neg
  · have hpow := ten_pow_le_two_pow k (by omega)
    rw [decimalExponent_of_nonneg hk, hk, zpow_natCast, zpow_natCast]
    exact_mod_cast hpow
  · obtain rfl | hpos := k.eq_zero_or_pos
    · have hzero : floorLog2 num den = (0 : Nat) := hk
      rw [decimalExponent_of_nonneg hzero, hzero]
      norm_num
    · have hpow : (2 : ℚ) ^ k ≤ 10 ^ ((k - 1) * 30103 / 100000) * 10 ^ 22 := by
        exact_mod_cast two_pow_le_ten_pow k (by omega)
      rw [decimalExponent_of_neg hk hpos, hk, zpow_neg, zpow_neg, zpow_natCast, zpow_natCast,
        inv_le_iff_one_le_mul₀ (by positivity)]
      calc (1 : ℚ) = (2 ^ k)⁻¹ * 2 ^ k := (inv_mul_cancel₀ (by positivity)).symm
        _ ≤ (2 ^ k)⁻¹ * (10 ^ ((k - 1) * 30103 / 100000) * 10 ^ 22) := by gcongr
        _ = (2 ^ k)⁻¹ * 10 ^ 22 * 10 ^ ((k - 1) * 30103 / 100000) := by ring

/-- **What the search finds** is a decimal that is at most half a unit of the last place above the
number. -/
theorem search_interval {f : Format} (hf : f.IsNarrow) {code : Nat} (hcode : 0 < code)
    (hfinite : code < f.infinity) (tie : Tie) :
    ∃ n e, (interval f code).search tie 40 (decimalExponent (interval f code).value
        (interval f code).den) = (n, e) ∧ n ≠ 0 ∧
      (n : ℚ) * 10 ^ e ≤ f.value code + 1 / 2 * 2 ^ (f.split code).2 := by
  have hden := interval_den_pos f code
  have hlow := interval_low_lt (f := f) hcode
  have hvalue := interval_value f code
  have hhigh := interval_high f code
  have hbegin := decimalExponent_le (Nat.zero_lt_of_lt hlow) hden
    (hvalue ▸ hf.limit_le_value hcode) (hvalue ▸ hf.value_lt_limit hfinite)
  generalize interval f code = i at *
  rw [hvalue] at hbegin
  have hstep : (i.value : ℚ) / i.den + 10 ^ (decimalExponent i.value i.den - (39 : Nat)) <
      i.high / i.den := by
    rw [hvalue, hhigh]
    gcongr
    calc (10 : ℚ) ^ (decimalExponent i.value i.den - (39 : Nat))
        = 10 ^ decimalExponent i.value i.den * 10 ^ (-39 : ℤ) := by
          rw [← zpow_add₀ (by norm_num)]
          rfl
      _ ≤ f.value code * 10 ^ 22 * 10 ^ (-39 : ℤ) := by gcongr
      _ < 2 ^ (53 : ℤ) * 2 ^ (f.split code).2 * 10 ^ 22 * 10 ^ (-39 : ℤ) := by
          have hlt := hf.value_lt code
          gcongr
      _ ≤ 1 / 2 * 2 ^ (f.split code).2 := by
          have hpos : (0 : ℚ) < 2 ^ (f.split code).2 := by positivity
          have hpow : (2 : ℚ) ^ (53 : ℤ) * 10 ^ 22 * 10 ^ (-39 : ℤ) ≤ 1 / 2 := by norm_num
          nlinarith
  have hsteps : 39 < 40 := by decide
  obtain ⟨hne, hcontains⟩ := Interval.search_spec hsteps
    (Interval.isSome_onGrid tie hden hlow hstep)
  have hle := Interval.le_of_contains hden hcontains
  rw [hhigh] at hle
  exact ⟨_, _, rfl, hne, hle⟩

/-! ### The digits that are found -/

namespace Scientific

/-- The number that significant digits stand for. -/
def value (s : Scientific) : ℚ := ofDigits s.digits * 10 ^ (s.exponent + 1 - s.digits.length)

/-- There are digits, and the first of them counts. -/
structure IsProper (s : Scientific) : Prop where
  digits_lt : ∀ d ∈ s.digits, d < 10
  exists_cons : ∃ d ds, d ≠ 0 ∧ s.digits = d :: ds

/-- A number is at least the power of ten of its first digit. -/
theorem IsProper.pow_le_value {s : Scientific} (h : s.IsProper) : 10 ^ s.exponent ≤ s.value := by
  obtain ⟨d, ds, hd, hdigits⟩ := h.exists_cons
  have hpow : ((10 : ℚ) ^ (ds.length : ℤ)) ≤ ofDigits (d :: ds) := by
    rw [zpow_natCast]
    exact_mod_cast pow_le_ofDigits hd ds
  have hexponent : s.exponent = ds.length + (s.exponent + 1 - (d :: ds).length) := by
    rw [List.length_cons]
    push_cast
    ring
  calc (10 : ℚ) ^ s.exponent = 10 ^ (ds.length : ℤ) * 10 ^ (s.exponent + 1 - (d :: ds).length) := by
        rw [← zpow_add₀ (by norm_num), ← hexponent]
    _ ≤ ofDigits (d :: ds) * 10 ^ (s.exponent + 1 - (d :: ds).length) := by gcongr
    _ = s.value := by rw [value, hdigits]

end Scientific

/-- **The shortest decimal** of a positive number has digits, and is at most half a unit of the last
place above the number. -/
theorem shortest_spec {f : Format} (hf : f.IsNarrow) {code : Nat} (hcode : 0 < code)
    (hfinite : code < f.infinity) (tie : Tie) :
    (shortest tie f code).IsProper ∧
      (shortest tie f code).value ≤ f.value code + 1 / 2 * 2 ^ (f.split code).2 := by
  obtain ⟨n, e, hsearch, hn, hle⟩ := search_interval hf hcode hfinite tie
  obtain ⟨d, ds, hd, hdigits⟩ := exists_cons_digits hn
  obtain ⟨ds', hdropped⟩ := exists_cons_dropTrailingZeros hd ds
  obtain ⟨k, hzeros⟩ := exists_dropTrailingZeros_append (digits n)
  have hshortest : shortest tie f code =
      ⟨dropTrailingZeros (digits n), e + (digits n).length - 1⟩ := by
    rw [shortest]
    dsimp only
    rw [hsearch]
  rw [hshortest]
  refine ⟨⟨fun d' hd' => ?_, d, ds', hd, by rw [hdigits, hdropped]⟩, ?_⟩
  · refine digits_lt n d' ?_
    rw [hzeros]
    exact List.mem_append_left _ hd'
  · have hvalue : n = ofDigits (dropTrailingZeros (digits n)) * 10 ^ k := by
      have hconcat := ofDigits_concat (dropTrailingZeros (digits n)) (List.replicate k 0)
      rwa [← hzeros, ofDigits_digits, ofDigits_replicate_zero, List.length_replicate,
        Nat.add_zero] at hconcat
    have hlength : (digits n).length = (dropTrailingZeros (digits n)).length + k := by
      have happend := congrArg List.length hzeros
      rwa [List.length_append, List.length_replicate] at happend
    have hexponent : e + (digits n).length - 1 + 1 - (dropTrailingZeros (digits n)).length =
        (k : ℤ) + e := by
      rw [hlength]
      push_cast
      ring
    refine le_trans (le_of_eq ?_) hle
    rw [Scientific.value, hexponent, zpow_add₀ (by norm_num), zpow_natCast, ← mul_assoc]
    congr 1
    exact_mod_cast hvalue.symm

end MutationTesting.Decimal
