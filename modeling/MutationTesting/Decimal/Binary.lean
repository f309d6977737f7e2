import MutationTesting.Decimal.Digits
/-!
# Binary floating-point numbers

Numbers of the form `m · 2 ^ q` with a bounded `m`, as class constants and scores hold them, with
exact rounding in natural-number arithmetic. A value is kept by its sign and its *code*, the bit
pattern below the sign bit: codes of one sign are ordered as their values are, zero is the code
`0`, and one code above the largest number stands for infinity. There is no value for "not a
number": nothing in the library produces one.

## Main definitions

* `Format`, `binary32`, `binary64` — the two formats in use
* `Binary` — a value of a format
* `Binary.ofRatio` — the value nearest to a quotient, ties to the even code
* `Binary.mul`, `Binary.div`, `Binary.convert` — arithmetic that rounds once
-/

namespace MutationTesting.Decimal

/-- A floating-point format. -/
structure Format where
  /-- Bits of the significand that are stored. -/
  significandBits : Nat
  /-- Bits of the stored exponent. -/
  exponentBits : Nat
  deriving DecidableEq

/-- Single precision. -/
def binary32 : Format := ⟨23, 8⟩

/-- Double precision. -/
def binary64 : Format := ⟨52, 11⟩

namespace Format

variable (f : Format)

/-- The significand of the smallest normal number. -/
def hidden : Nat := Nat.pow 2 f.significandBits

/-- The code of infinity. -/
def infinity : Nat := (Nat.pow 2 f.exponentBits - 1) * f.hidden

/-- Minus the exponent of two that belongs to the smallest numbers. -/
def depth : Nat := Nat.pow 2 (f.exponentBits - 1) - 2 + f.significandBits

/-- The significand and the exponent of two of a finite code. -/
def split (code : Nat) : Nat × Int :=
  let e := code / f.hidden
  let fraction := code % f.hidden
  if e = 0 then (fraction, -(f.depth : Int))
  else (fraction + f.hidden, (e : Int) - 1 - f.depth)

end Format

/-- A value of a floating-point format: a number or an infinity, with a sign. -/
structure Binary (f : Format) where
  /-- The sign bit. -/
  negative : Bool
  /-- The bits below the sign bit. -/
  code : Nat
  /-- Codes above infinity denote no number. -/
  code_le : code ≤ f.infinity
  deriving DecidableEq

/-- Double precision values. -/
abbrev Binary64 := Binary binary64

/-- Single precision values. -/
abbrev Binary32 := Binary binary32

/-- The quotient rounded to the nearest whole number, a half to the even neighbour. -/
def roundDiv (num den : Nat) : Nat :=
  let q := num / den
  let r := num % den
  if 2 * r > den ∨ (2 * r = den ∧ q % 2 = 1) then q + 1 else q

/-- A quotient scaled by a power of two, as a quotient again. -/
def scale (num den : Nat) : Int → Nat × Nat
  | .ofNat k => (num * Nat.pow 2 k, den)
  | .negSucc k => (num, den * Nat.pow 2 (k + 1))

/-- The whole number `e` with `2 ^ e ≤ num / den < 2 ^ (e + 1)`, for positive arguments. -/
def floorLog2 (num den : Nat) : Int :=
  let e := (Nat.log2 num : Int) - Nat.log2 den
  let (n, d) := scale num den (-e)
  if d ≤ n then e else e - 1

namespace Binary

variable {f : Format}

instance : Inhabited (Binary f) := ⟨⟨false, 0, Nat.zero_le _⟩⟩

/-- Zero with the given sign. -/
def zero (negative : Bool) : Binary f := ⟨negative, 0, Nat.zero_le _⟩

/-- The value is infinite. -/
def isInfinite (x : Binary f) : Bool := x.code = f.infinity

/-- The value is zero, of either sign. -/
def isZero (x : Binary f) : Bool := x.code = 0

/-- The value with the other sign. -/
def neg (x : Binary f) : Binary f := { x with negative := !x.negative }

/-- The significand and exponent of a finite value. -/
def split (x : Binary f) : Nat × Int := f.split x.code

/-- The code of the number nearest to `num / den`, a tie going to the even code. From halfway
between the largest number and the power of two after it on, the nearest code is infinity. -/
def nearestCode (f : Format) (num den : Nat) : Nat :=
  if num = 0 then 0
  else
    let e := floorLog2 num den
    let q := max (e - f.significandBits) (-(f.depth : Int))
    let (n, d) := scale num den (-q)
    min (((q + f.depth).toNat) * f.hidden + roundDiv n d) f.infinity

/-- The value nearest to `num / den`, with the given sign. -/
def ofRatio (negative : Bool) (num den : Nat) : Binary f :=
  ⟨negative, nearestCode f num den, by
    unfold nearestCode
    split
    · exact Nat.zero_le _
    · exact Nat.min_le_right _ _⟩

/-- The value nearest to a natural number. -/
def ofNat (n : Nat) : Binary f := ofRatio false n 1

/-- The magnitude of a finite value as a quotient. -/
def ratio (x : Binary f) : Nat × Nat :=
  let (m, q) := x.split
  scale m 1 q

/-- An infinity with the given sign. -/
def infinite (negative : Bool) : Binary f := ⟨negative, f.infinity, Nat.le_refl _⟩

/-- The product, rounded to the nearest value. A product of zero and infinity, which no
caller forms, is infinite. -/
def mul (x y : Binary f) : Binary f :=
  let negative := x.negative != y.negative
  if x.isInfinite || y.isInfinite then infinite negative
  else
    let (a, b) := x.ratio
    let (c, d) := y.ratio
    ofRatio negative (a * c) (b * d)

/-- The quotient, rounded to the nearest value, for a divisor that is finite and not zero. -/
def div (x y : Binary f) : Binary f :=
  let negative := x.negative != y.negative
  if x.isInfinite || y.isZero then infinite negative
  else if y.isInfinite then zero negative
  else
    let (a, b) := x.ratio
    let (c, d) := y.ratio
    ofRatio negative (a * d) (b * c)

/-- The value of another format nearest to this one. -/
def convert {g : Format} (x : Binary f) : Binary g :=
  if x.isInfinite then infinite x.negative
  else
    let (a, b) := x.ratio
    ofRatio x.negative a b

end Binary

end MutationTesting.Decimal
