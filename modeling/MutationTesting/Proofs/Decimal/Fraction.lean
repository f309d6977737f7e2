import MutationTesting.Proofs.Decimal.Binary
/-!
# Fractions of whole numbers

Whole numbers up to fifty-three bits are doubles themselves, so their quotient is rounded once. A
number divided by itself gives one. A smaller number divided by a larger one gives less: the two
differ by one at least, and this is more than is lost where the quotient is rounded.

## Main results

* `Binary.magnitude_ofNat_of_lt` — whole numbers that are doubles
* `Binary.div_self`, `Binary.div_ne_one` — when a fraction of whole numbers is one
-/

namespace MutationTesting.Decimal

/-! ### Rounding near one -/

/-- The code of one. -/
theorem nearestCode_self {n : Nat} (hn : 0 < n) :
    Binary.nearestCode binary64 n n = 1023 * 2 ^ 52 := by
  have hlog : floorLog2 n n = 0 := by
    rw [floorLog2, sub_self, neg_zero]
    exact if_pos (Nat.le_of_eq (Nat.mul_one n).symm)
  have hplace : lastPlace n n = -52 := by
    rw [lastPlace, hlog]
    rfl
  have hsignificand : roundedSignificand n n = 2 ^ 52 := by
    rw [roundedSignificand, hplace]
    change roundDiv (n * 2 ^ 52) n = 2 ^ 52
    rw [roundDiv, Nat.mul_mod_right, Nat.mul_div_cancel_left _ hn]
    exact if_neg (by omega)
  rw [nearestCode_eq hn.ne', hplace, hsignificand, infinity_binary64]
  rfl

variable {num den : Nat}

/-- The last place of a quotient below one. -/
theorem floorLog2_neg (hnum : 0 < num) (hden : 0 < den) (h : (num : ℚ) / den < 1) :
    floorLog2 num den < 0 := by
  have hpow : (2 : ℚ) ^ floorLog2 num den < 2 ^ (0 : ℤ) := by
    rw [zpow_zero]
    exact (floorLog2_spec hnum hden).1.trans_lt h
  exact (zpow_lt_zpow_iff_right₀ one_lt_two).mp hpow

/-- **A quotient below one** is not rounded to one if it is not too near. -/
theorem nearestCode_lt_one (hden : 0 < den) (h : (num : ℚ) / den < 1 - 2 ^ (-54 : ℤ)) :
    Binary.nearestCode binary64 num den < 1023 * 2 ^ 52 := by
  obtain rfl | hnum := num.eq_zero_or_pos
  · rw [Binary.nearestCode, if_pos rfl]
    decide
  have hlog := floorLog2_neg hnum hden (h.trans (by norm_num))
  have hsignificand := roundedSignificand_le_two_pow hnum hden
  rw [nearestCode_eq hnum.ne']
  refine (Nat.min_le_left _ _).trans_lt ?_
  by_cases hplace : lastPlace num den ≤ -54
  · omega
  · -- the last place is that of the largest doubles below one
    have hlast : lastPlace num den = -53 := by
      rw [lastPlace] at hplace ⊢
      omega
    have hle := roundedSignificand_le num hden
    rw [hlast] at hle ⊢
    have hcast : (roundedSignificand num den : ℚ) < (2 ^ 53 : Nat) := by
      have hscaled : (num : ℚ) / den * 2 ^ (53 : ℤ) < 2 ^ 53 - 1 / 2 := by
        calc (num : ℚ) / den * 2 ^ (53 : ℤ) < (1 - 2 ^ (-54 : ℤ)) * 2 ^ (53 : ℤ) := by gcongr
          _ = 2 ^ 53 - 1 / 2 := by norm_num
      push_cast
      rw [neg_neg] at hle
      linarith
    have hnat : roundedSignificand num den < 2 ^ 53 := by exact_mod_cast hcast
    omega

/-! ### Whole numbers -/

theorem lt_limit_of_lt {n : Nat} (h : n < 2 ^ 53) : (n : ℚ) < binary64Limit := by
  have hle : n + 1 ≤ 2 ^ 53 := h
  have hcast : (n : ℚ) + 1 ≤ 2 ^ 53 := by exact_mod_cast hle
  have hscale : (1 : ℚ) ≤ 2 ^ (971 : ℤ) := one_le_zpow₀ one_le_two (by decide)
  calc (n : ℚ) < 2 ^ 53 - 1 / 2 := by linarith
    _ ≤ binary64Limit := le_mul_of_one_le_right (by norm_num) hscale

theorem one_le_whole {n : Nat} (hn : 0 < n) : 1 ≤ (n : ℚ) / (1 : Nat) := by
  rw [Nat.cast_one, div_one]
  exact_mod_cast hn

/-- A whole number has no more digits than its double. -/
theorem roundedSignificand_whole {n : Nat} (hn : 0 < n) (h : n < 2 ^ 53) :
    ∃ k : Nat, floorLog2 n 1 - 52 = -(k : ℤ) ∧ roundedSignificand n 1 = n * 2 ^ k := by
  have hlog : floorLog2 n 1 < 53 := by
    have hpow : (2 : ℚ) ^ floorLog2 n 1 < 2 ^ (53 : ℤ) := by
      refine (floorLog2_spec hn Nat.one_pos).1.trans_lt ?_
      rw [Nat.cast_one, div_one]
      exact_mod_cast h
    exact (zpow_lt_zpow_iff_right₀ one_lt_two).mp hpow
  obtain ⟨-, hplace⟩ := lastPlace_of_one_le hn Nat.one_pos (one_le_whole hn)
  obtain ⟨k, hk⟩ : ∃ k : Nat, 52 - floorLog2 n 1 = k := Int.eq_ofNat_of_zero_le (by omega)
  refine ⟨k, by omega, ?_⟩
  have hscale : -lastPlace n 1 = Int.ofNat k := by
    rw [hplace, Int.ofNat_eq_natCast]
    omega
  rw [roundedSignificand, hscale]
  change roundDiv (n * 2 ^ k) 1 = n * 2 ^ k
  rw [roundDiv, Nat.mod_one, Nat.div_one]
  exact if_neg (by omega)

namespace Binary

/-- **Whole numbers of fifty-three bits** are doubles. -/
theorem magnitude_ofNat_of_lt {n : Nat} (h : n < 2 ^ 53) : (ofNat n : Binary64).magnitude = n := by
  obtain rfl | hn := n.eq_zero_or_pos
  · rw [magnitude_eq_zero rfl, Nat.cast_zero]
  have hfinite : nearestCode binary64 n 1 < binary64.infinity :=
    code_lt_of_isFinite (isInfinite_ofNat (lt_limit_of_lt h))
  obtain ⟨k, hexponent, hsignificand⟩ := roundedSignificand_whole hn h
  change binary64.value (nearestCode binary64 n 1) = n
  rw [value_nearestCode_eq hn Nat.one_pos (one_le_whole hn) hfinite, hexponent, hsignificand,
    zpow_neg]
  push_cast
  exact mul_inv_cancel_right₀ (by positivity) _

/-! ### Fractions -/

/-- **A number divided by itself** gives one. -/
theorem div_self {x : Binary64} (hx : x.isInfinite = false) (hpos : 0 < x.magnitude) :
    x.div x = ofNat 1 := by
  have hratio : 0 < x.ratio.2 * x.ratio.1 := Nat.mul_pos x.ratio_snd_pos (ratio_fst_pos hpos)
  rw [div_eq hx hx (isZero_eq_false hpos), bne_self_eq_false, Nat.mul_comm x.ratio.1, ofRatio,
    ofNat, ofRatio, mk.injEq]
  exact ⟨rfl, (nearestCode_self hratio).trans (nearestCode_self Nat.one_pos).symm⟩

/-- **A number divided by a larger one** does not give one. -/
theorem div_ne_one {m n : Nat} (hlt : m < n) (hn : n < 2 ^ 53) :
    (ofNat m : Binary64).div (ofNat n) ≠ ofNat 1 := by
  have hm := hlt.trans hn
  have hpos : 0 < (ofNat n : Binary64).magnitude := by
    rw [magnitude_ofNat_of_lt hn]
    exact_mod_cast Nat.zero_lt_of_lt hlt
  have hden := Nat.mul_pos (ofNat m : Binary64).ratio_snd_pos (ratio_fst_pos hpos)
  have hquotient : (m : ℚ) / n < 1 - 2 ^ (-54 : ℤ) := by
    have hle : m + 1 ≤ n := hlt
    have hcast : (m : ℚ) + 1 ≤ n := by exact_mod_cast hle
    have hlarge : (n : ℚ) < 2 ^ 53 := by exact_mod_cast hn
    have hsmall : (n : ℚ) * 2 ^ (-54 : ℤ) < 1 := by
      calc (n : ℚ) * 2 ^ (-54 : ℤ) < 2 ^ 53 * 2 ^ (-54 : ℤ) := by gcongr
        _ < 1 := by norm_num
    rw [magnitude_ofNat_of_lt hn] at hpos
    rw [div_lt_iff₀ hpos]
    linarith
  rw [← magnitude_ofNat_of_lt hm, ← magnitude_ofNat_of_lt hn, ← quotient_ratio] at hquotient
  refine fun heq => (nearestCode_lt_one hden hquotient).ne ?_
  rw [div_eq (isInfinite_ofNat (lt_limit_of_lt hm)) (isInfinite_ofNat (lt_limit_of_lt hn))
    (isZero_eq_false hpos)] at heq
  exact (congrArg code heq).trans (nearestCode_self Nat.one_pos)

end Binary

end MutationTesting.Decimal
