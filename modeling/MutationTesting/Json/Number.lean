import MutationTesting.Json.Basic
/-!
# What number literals denote

A literal without point and exponent denotes a whole number; minus zero does not, and neither does
a literal whose value lies outside 64 bits.

A literal read as a binary floating-point number is evaluated in two roundings, not one: the
digits are collected into a 64-bit word for as long as they fit, the word is rounded to a double,
and that double is multiplied or divided by a power of ten. The result can therefore differ from
the nearest double in its last digit, and a number that is read and written again may change.

## Main definitions

* `Number.toInt?` — the whole number of a literal
* `Number.machine?` — a whole number or a double, as a reader of 64-bit words sees the literal
* `Number.toBinary64?`, `Number.toBinary32?`
* `Json.ofBinary64`, `Json.ofBinary32` — writing, `null` for infinities
-/

namespace MutationTesting

open Decimal

/-- A number as a reader of 64-bit words sees it. -/
inductive MachineNumber where
  | whole (n : Int)
  | double (x : Binary64)

namespace Number

/-- The word is full: appending the digit would pass 64 bits. -/
def overflows (word digit : Nat) : Bool := Nat.pow 2 64 ≤ word * 10 + digit

/-- Appends digits to a word for as long as they fit; also the digits that are left. -/
def collect (word : Nat) : List Nat → Nat × List Nat
  | [] => (word, [])
  | d :: ds => if overflows word d then (word, d :: ds) else collect (word * 10 + d) ds

/-- `word · 10 ^ exponent` by one multiplication or division, or several divisions by `10 ^ 308`
for a small number. `none` if the product is infinite. -/
def scaled (x : Binary64) : Nat → Int → Option Binary64
  | 0, _ => some x
  | fuel + 1, exponent =>
    if exponent.natAbs ≤ 308 then
      if 0 ≤ exponent then
        let product := x.mul (.ofNat (Nat.pow 10 exponent.natAbs))
        if product.isInfinite then none else some product
      else some (x.div (.ofNat (Nat.pow 10 exponent.natAbs)))
    else if x.isZero then some x
    else if 0 ≤ exponent then none
    else scaled (x.div (.ofNat (Nat.pow 10 308))) fuel (exponent + 308)

/-- The largest exponent that is told apart from larger ones. -/
def exponentLimit : Nat := Nat.pow 2 31 - 1

/-- The double of a sign, a word and an exponent of ten. Four divisions by `10 ^ 308` make any
word zero, so the fuel is enough. -/
def ofParts (negative : Bool) (word : Nat) (exponent : Int) : Option Binary64 :=
  (scaled (.ofNat word) 8 exponent).map fun x => if negative then x.neg else x

/-- Brings an exponent into 32 bits. -/
def clampExponent (e : Int) : Int := max (-(Nat.pow 2 31 : Nat) : Int) (min e (exponentLimit : Int))

/-- The double of a literal whose digits before the exponent stand for `word · 10 ^ start`. -/
def withExponent (n : Number) (word : Nat) (start : Int) : Option Binary64 :=
  match n.exponent with
  | none => ofParts n.negative word start
  | some (negative, ds) =>
    let e := ofDigits ds
    if exponentLimit < e then
      if word != 0 && !negative then none else some (.zero n.negative)
    else
      ofParts n.negative word (clampExponent (if negative then start - e else start + e))

/-- The double that a literal denotes, `none` if it is too large. -/
def double? (n : Number) : Option Binary64 :=
  let (word, left) := collect 0 n.whole
  let start : Int := left.length
  match n.fraction with
  | none => withExponent n word start
  | some ds =>
    let (word, left) := collect word ds
    withExponent n word (start - (ds.length - left.length : Nat))

/-- The literal has neither point nor exponent. -/
def isPlain (n : Number) : Bool := n.fraction.isNone && n.exponent.isNone

/-- The whole number of a literal that has neither point nor exponent, is not minus zero and fits
into 64 bits. -/
def toInt? (n : Number) : Option Int :=
  let magnitude := ofDigits n.whole
  if !n.isPlain then none
  else if n.negative then
    if 0 < magnitude && magnitude ≤ Nat.pow 2 63 then some (-(magnitude : Int)) else none
  else if magnitude < Nat.pow 2 64 then some magnitude else none

/-- The value of a literal; `none` if it is too large for a double. -/
def machine? (n : Number) : Option MachineNumber :=
  match n.toInt? with
  | some i => some (.whole i)
  | none => n.double?.map .double

/-- The value of a literal in a field that holds doubles. -/
def toBinary64? (n : Number) : Option Binary64 :=
  n.machine?.map fun
    | .whole i => .ofRatio (i < 0) i.natAbs 1
    | .double x => x

/-- The value of a literal in a field that holds floats: a double is rounded once more and may
become infinite. -/
def toBinary32? (n : Number) : Option Binary32 :=
  n.machine?.map fun
    | .whole i => .ofRatio (i < 0) i.natAbs 1
    | .double x => x.convert

end Number

/-- Which numbers are written without an exponent. -/
structure Layout where
  /-- The least decimal exponent written so. -/
  least : Int
  /-- The least decimal exponent above that is not. -/
  bound : Int

/-- Doubles are written positionally from `10 ^ -5` to below `10 ^ 16`. -/
def layout64 : Layout := ⟨-5, 16⟩

/-- Floats are written positionally from `10 ^ -6` to below `10 ^ 13`. -/
def layout32 : Layout := ⟨-6, 13⟩

namespace Number

/-- The number literal of a shortest decimal in a layout; a positional one has a point. -/
def ofScientific (layout : Layout) (negative : Bool) (s : Scientific) : Number :=
  if layout.least ≤ s.exponent ∧ s.exponent < layout.bound then
    if s.exponent < 0 then
      ⟨negative, [0], some (List.replicate ((-s.exponent).toNat - 1) 0 ++ s.digits), none⟩
    else
      let k := s.exponent.toNat + 1
      let fraction := s.digits.drop k
      ⟨negative, s.digits.take k ++ List.replicate (k - s.digits.length) 0,
        some (if fraction.isEmpty then [0] else fraction), none⟩
  else
    ⟨negative, s.digits.take 1, if s.digits.length ≤ 1 then none else some (s.digits.drop 1),
      some (s.exponent < 0, digits s.exponent.natAbs)⟩

/-- The literal of a finite value; of two equally short and equally near decimals the one with
the even last digit. -/
def ofBinary {f : Format} (layout : Layout) (x : Binary f) : Number :=
  if x.isZero then ⟨x.negative, [0], some [0], none⟩
  else ofScientific layout x.negative (shortest .toEven f x.code)

end Number

namespace Json

/-- A floating-point value; infinities have no literal and become `null`. -/
def ofBinary {τ : Type} {f : Format} (layout : Layout) (x : Binary f) : Json τ :=
  if x.isInfinite then .null else .number (.ofBinary layout x)

/-- A double. -/
def ofBinary64 {τ : Type} (x : Binary64) : Json τ := ofBinary layout64 x

/-- A float, with as many digits as a float needs. -/
def ofBinary32 {τ : Type} (x : Binary32) : Json τ := ofBinary layout32 x

end Json

end MutationTesting
