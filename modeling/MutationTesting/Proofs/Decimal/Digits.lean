import Mathlib.Data.List.TakeWhile
import Mathlib.Tactic.Ring
import MutationTesting.Decimal.Shortest
/-!
# The value of a list of digits

What digits denote, from the parts of their list. A list without its trailing zeros denotes a
number that differs by a power of ten.

## Main results

* `ofDigits_concat` — the value of the digits of two lists
* `ofDigits_lt`, `pow_le_ofDigits` — its bounds
* `head?_digits` — only zero begins with a zero
* `exists_dropTrailingZeros_append`
-/

namespace MutationTesting.Decimal

variable {d : Nat} {ds : List Nat}

/-! ### Values -/

/-- Digits that are appended to a number. -/
theorem foldl_digits (n : Nat) (ds : List Nat) :
    ds.foldl (fun n d => n * 10 + d) n = n * 10 ^ ds.length + ofDigits ds := by
  induction ds generalizing n with
  | nil => simp [ofDigits]
  | cons d ds ih =>
    have hvalue : ofDigits (d :: ds) = (0 * 10 + d) * 10 ^ ds.length + ofDigits ds :=
      ih (0 * 10 + d)
    rw [List.foldl_cons, ih, hvalue, List.length_cons]
    ring

theorem ofDigits_concat (ds ds' : List Nat) :
    ofDigits (ds ++ ds') = ofDigits ds * 10 ^ ds'.length + ofDigits ds' := by
  rw [ofDigits, List.foldl_append, foldl_digits, ← ofDigits]

theorem ofDigits_cons (d : Nat) (ds : List Nat) :
    ofDigits (d :: ds) = d * 10 ^ ds.length + ofDigits ds := by
  rw [ofDigits, List.foldl_cons, foldl_digits, Nat.zero_mul, Nat.zero_add]

@[simp] theorem ofDigits_replicate_zero (k : Nat) : ofDigits (List.replicate k 0) = 0 := by
  induction k with
  | zero => rfl
  | succ k ih => rw [List.replicate_succ, ofDigits_cons, ih, Nat.zero_mul]

theorem ofDigits_lt (h : ∀ d ∈ ds, d < 10) : ofDigits ds < 10 ^ ds.length := by
  induction ds with
  | nil => exact Nat.one_pos
  | cons d ds ih =>
    obtain ⟨hd, hds⟩ := List.forall_mem_cons.mp h
    have hrest := ih hds
    rw [ofDigits_cons, List.length_cons, Nat.pow_succ]
    calc d * 10 ^ ds.length + ofDigits ds < d * 10 ^ ds.length + 10 ^ ds.length := by omega
      _ = (d + 1) * 10 ^ ds.length := by ring
      _ ≤ 10 * 10 ^ ds.length := Nat.mul_le_mul_right _ hd
      _ = 10 ^ ds.length * 10 := Nat.mul_comm _ _

theorem pow_le_ofDigits (hd : d ≠ 0) (ds : List Nat) : 10 ^ ds.length ≤ ofDigits (d :: ds) := by
  rw [ofDigits_cons]
  calc 10 ^ ds.length ≤ d * 10 ^ ds.length := Nat.le_mul_of_pos_left _ (Nat.pos_of_ne_zero hd)
    _ ≤ d * 10 ^ ds.length + ofDigits ds := Nat.le_add_right _ _

/-! ### The digits of a number -/

theorem digits_ne_nil (n : Nat) : digits n ≠ [] := by
  rw [digits]
  split <;> simp

/-- Only zero begins with a zero. -/
theorem head?_digits (n : Nat) : (digits n).head? ≠ some 0 ∨ digits n = [0] := by
  induction n using digits.induct with
  | case1 n h =>
    rw [digits, if_pos h]
    by_cases hn : n = 0
    · exact .inr (congrArg (fun n => [n]) hn)
    · exact .inl fun h => hn (Option.some.inj h)
  | case2 n h ih =>
    refine .inl ?_
    have hten : n / 10 ≠ 0 := by omega
    rw [digits, if_neg h]
    obtain ih | ih := ih
    · obtain ⟨d, ds, hds⟩ := List.exists_cons_of_ne_nil (digits_ne_nil (n / 10))
      rw [hds] at ih ⊢
      exact ih
    · have hvalue := ofDigits_digits (n / 10)
      rw [ih] at hvalue
      exact absurd hvalue.symm hten

/-- The digits of a positive number begin with a digit that is not zero. -/
theorem exists_cons_digits {n : Nat} (hn : n ≠ 0) : ∃ d ds, d ≠ 0 ∧ digits n = d :: ds := by
  obtain ⟨d, ds, hds⟩ := List.exists_cons_of_ne_nil (digits_ne_nil n)
  refine ⟨d, ds, ?_, hds⟩
  rintro rfl
  have hvalue := ofDigits_digits n
  obtain hfirst | hzero := head?_digits n
  · rw [hds] at hfirst
    exact hfirst rfl
  · rw [hzero] at hvalue
    exact hn hvalue.symm

/-! ### Trailing zeros -/

theorem exists_dropTrailingZeros_append (ds : List Nat) :
    ∃ k, ds = dropTrailingZeros ds ++ List.replicate k 0 := by
  obtain ⟨k, hk⟩ : ∃ k, ds.reverse.takeWhile (· == 0) = List.replicate k 0 :=
    ⟨_, List.eq_replicate_iff.mpr ⟨rfl, fun d hd =>
      beq_iff_eq.mp (List.mem_takeWhile_imp (p := (· == 0)) hd)⟩⟩
  refine ⟨k, ?_⟩
  calc ds = (ds.reverse.takeWhile (· == 0) ++ ds.reverse.dropWhile (· == 0)).reverse := by
        rw [List.takeWhile_append_dropWhile, List.reverse_reverse]
    _ = dropTrailingZeros ds ++ List.replicate k 0 := by
      rw [hk, List.reverse_append, List.reverse_replicate, dropTrailingZeros]

/-- The first digit stays. -/
theorem exists_cons_dropTrailingZeros (hd : d ≠ 0) (ds : List Nat) :
    ∃ ds', dropTrailingZeros (d :: ds) = d :: ds' := by
  obtain ⟨k, hk⟩ := exists_dropTrailingZeros_append (d :: ds)
  cases hdropped : dropTrailingZeros (d :: ds) with
  | nil =>
    rw [hdropped, List.nil_append] at hk
    exact absurd (List.eq_of_mem_replicate (hk ▸ List.mem_cons_self)) hd
  | cons d' ds' =>
    rw [hdropped, List.cons_append] at hk
    exact ⟨ds', by rw [(List.cons.inj hk).1]⟩

end MutationTesting.Decimal
