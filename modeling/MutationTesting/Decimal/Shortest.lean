import MutationTesting.Decimal.Binary
/-!
# Decimal text of binary numbers

The shortest text of a value has the fewest significant digits that read back to it, and no
exponent. Each number owns the interval of reals that round to it, its ends included iff its
significand is even. For one digit, two digits and so on the two neighbours of the number on that
decimal grid are tried; the first grid with a hit wins, and of two hits the nearer one.

A value can also be written with a given number of decimal places, rounded from the exact binary
value; a half goes to the even neighbour.

## Main definitions

* `shortest` — digits and decimal exponent
* `Binary.positional` — the shortest text of a value
* `Binary.fixed` — its text with so many decimal places
-/

namespace MutationTesting.Decimal

/-- Which of two equally near decimals is taken. -/
inductive Tie where
  /-- The one with the even last digit. -/
  | toEven
  /-- The one farther from zero. -/
  | up
  deriving DecidableEq

/-- Significant digits `d₁ d₂ … dₙ`, not ending in zero, that stand for
`d₁.d₂…dₙ · 10 ^ exponent`. -/
structure Scientific where
  digits : List Nat
  exponent : Int
  deriving DecidableEq

/-- The interval of reals that round to a positive code, over a common denominator: lower end,
value, upper end, denominator, and whether the ends belong to it. -/
structure Interval where
  low : Nat
  value : Nat
  high : Nat
  den : Nat
  closed : Bool

/-- The rounding interval of a positive finite code. Below a power of two the numbers lie twice
as dense as above it. -/
def interval (f : Format) (code : Nat) : Interval :=
  let (m, q) := f.split code
  let narrow := m = f.hidden ∧ f.hidden * 2 ≤ code
  let (unit, den) := scale 1 4 q
  ⟨(4 * m - if narrow then 1 else 2) * unit, 4 * m * unit, (4 * m + 2) * unit, den, m % 2 = 0⟩

/-- The decimal `n · 10 ^ e` lies in the interval. -/
def Interval.contains (i : Interval) (n : Nat) (e : Int) : Bool :=
  let (a, b) := match e with
    | .ofNat k => (n * Nat.pow 10 k * i.den, 1)
    | .negSucc k => (n * i.den, Nat.pow 10 (k + 1))
  if i.closed then i.low * b ≤ a && a ≤ i.high * b else i.low * b < a && a < i.high * b

/-- The multiple of `10 ^ e` nearest to the value among its two neighbours that lie in the
interval. -/
def Interval.onGrid (i : Interval) (tie : Tie) (e : Int) : Option Nat :=
  let (num, den) := match e with
    | .ofNat k => (i.value, i.den * Nat.pow 10 k)
    | .negSucc k => (i.value * Nat.pow 10 (k + 1), i.den)
  let below := num / den
  let rest := num % den
  let lower := i.contains below e && below != 0
  let upper := i.contains (below + 1) e
  if lower && upper then
    if 2 * rest < den then some below
    else if 2 * rest = den && tie = .toEven && below % 2 = 0 then some below
    else some (below + 1)
  else if lower then some below
  else if upper then some (below + 1)
  else none

/-- Tries the grids `10 ^ e`, `10 ^ (e - 1)`, … in turn. -/
def Interval.search (i : Interval) (tie : Tie) : Nat → Int → Nat × Int
  | 0, e => (0, e)
  | fuel + 1, e =>
    match i.onGrid tie e with
    | some n => (n, e)
    | none => i.search tie fuel (e - 1)

/-- A bound on the decimal exponent: `10 ^ e ≤ num / den` fails for larger `e`. -/
def decimalExponent (num den : Nat) : Int :=
  let twos := floorLog2 num den
  if twos < 0 then -(((-twos).toNat - 1) * 30103 / 100000 : Nat)
  else (twos.toNat + 1) * 30103 / 100000 + 1

/-- Digits without the zeros at their end. -/
def dropTrailingZeros (ds : List Nat) : List Nat := (ds.reverse.dropWhile (· == 0)).reverse

/-- The shortest decimal of a positive finite code. -/
def shortest (tie : Tie) (f : Format) (code : Nat) : Scientific :=
  let i := interval f code
  let (n, e) := i.search tie 40 (decimalExponent i.value i.den)
  let ds := Decimal.digits n
  ⟨dropTrailingZeros ds, e + ds.length - 1⟩

/-- Significant digits written without an exponent, whole numbers without a point. -/
def Scientific.positional (s : Scientific) : List Char :=
  let ds := s.digits.map digitChar
  if s.exponent < 0 then
    '0' :: '.' :: List.replicate ((-s.exponent).toNat - 1) '0' ++ ds
  else
    let k := s.exponent.toNat + 1
    let whole := ds.take k ++ List.replicate (k - ds.length) '0'
    match ds.drop k with
    | [] => whole
    | fraction => whole ++ '.' :: fraction

/-- The text of a value without an exponent, `inf` for an infinity; of two equally short and
equally near decimals the one farther from zero. -/
def Binary.positional {f : Format} (x : Binary f) : List Char :=
  let magnitude :=
    if x.isInfinite then ['i', 'n', 'f']
    else if x.isZero then ['0']
    else (shortest .up f x.code).positional
  if x.negative then '-' :: magnitude else magnitude

/-- A finite value with `places` digits after the point, or `inf`. -/
def Binary.fixed {f : Format} (places : Nat) (x : Binary f) : List Char :=
  let magnitude :=
    if x.isInfinite then ['i', 'n', 'f']
    else
      let (num, den) := x.ratio
      let n := roundDiv (num * Nat.pow 10 places) den
      let ds := natText n
      let ds := List.replicate (places + 1 - ds.length) '0' ++ ds
      let k := ds.length - places
      if places = 0 then ds else ds.take k ++ '.' :: ds.drop k
  if x.negative then '-' :: magnitude else magnitude

end MutationTesting.Decimal
