/-!
# Digits of natural numbers

Positional writing of natural numbers, most significant digit first, and reading it back.

## Main statements

* `ofDigits_digits` — a written number reads back
* `digits_lt` — every digit is below ten
-/

namespace MutationTesting.Decimal

/-- The decimal digits of `n`, most significant first; zero has one digit. -/
def digits (n : Nat) : List Nat :=
  if n < 10 then [n] else digits (n / 10) ++ [n % 10]
termination_by n
decreasing_by omega

/-- The number that decimal digits denote, most significant first. -/
def ofDigits (ds : List Nat) : Nat := ds.foldl (fun n d => n * 10 + d) 0

/-- The character of a digit. -/
def digitChar (d : Nat) : Char := Char.ofNat (48 + d)

/-- The value of a digit character. -/
def digitValue? (c : Char) : Option Nat :=
  if '0' ≤ c && c ≤ '9' then some (c.toNat - 48) else none

/-- A natural number in decimal. -/
def natText (n : Nat) : List Char := (digits n).map digitChar

/-- An integer in decimal, with a sign if it is negative. -/
def intText (n : Int) : List Char :=
  if n < 0 then '-' :: natText n.natAbs else natText n.natAbs

/-- The character of a hexadecimal digit, in lower case. -/
def hexChar (d : Nat) : Char := if d < 10 then Char.ofNat (48 + d) else Char.ofNat (87 + d)

/-- The hexadecimal digits of `n` in lower case; zero has one digit. -/
def hexText (n : Nat) : List Char :=
  if n < 16 then [hexChar n] else hexText (n / 16) ++ [hexChar (n % 16)]
termination_by n
decreasing_by omega

/-- A number in hexadecimal, filled up with zeros to at least `width` digits. -/
def paddedHex (width n : Nat) : List Char :=
  let text := hexText n
  List.replicate (width - text.length) '0' ++ text

/-- The value of a hexadecimal digit of either case. -/
def hexValue? (c : Char) : Option Nat :=
  if '0' ≤ c && c ≤ '9' then some (c.toNat - 48)
  else if 'a' ≤ c && c ≤ 'f' then some (c.toNat - 87)
  else if 'A' ≤ c && c ≤ 'F' then some (c.toNat - 55)
  else none

theorem digits_lt (n : Nat) : ∀ d ∈ digits n, d < 10 := by
  fun_induction digits n with
  | case1 n h => simpa using h
  | case2 n h ih =>
    intro d hd
    rcases List.mem_append.1 hd with hd | hd
    · exact ih d hd
    · have := List.mem_singleton.1 hd
      omega

theorem ofDigits_append (ds : List Nat) (d : Nat) :
    ofDigits (ds ++ [d]) = ofDigits ds * 10 + d := by
  simp [ofDigits]

@[simp] theorem ofDigits_digits (n : Nat) : ofDigits (digits n) = n := by
  fun_induction digits n with
  | case1 n h => simp [ofDigits]
  | case2 n h ih => rw [ofDigits_append, ih]; omega

end MutationTesting.Decimal
