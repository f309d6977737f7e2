import MutationTesting.Decimal.Shortest
/-!
# Numbers in formats

Reading decimal numbers with a point and an exponent as binary ones, and writing binary ones with a
given number of digits: with an exponent, or in the shorter of the two ways. Everything is rounded
from the exact binary value; a half goes to the even neighbour.

## Main definitions

* `Binary.ofText` — the number at the beginning of a text
* `Binary.scientific`, `Binary.general`
-/

namespace MutationTesting.Decimal

/-- A number at the beginning of a text: its sign, and a natural number times a power of ten. -/
structure Written where
  negative : Bool
  word : Nat
  exponent : Int

/-- The number at the beginning of a text, and the text after it. -/
def written? (text : List Char) : Option (Written × List Char) :=
  let (negative, text) := match text with
    | '-' :: rest => (true, rest)
    | '+' :: rest => (false, rest)
    | _ => (false, text)
  let whole := text.takeWhile Char.isDigit
  let rest := text.drop whole.length
  let (part, rest) := match rest with
    | '.' :: more =>
      let part := more.takeWhile Char.isDigit
      if whole.isEmpty && part.isEmpty then ([], rest) else (part, more.drop part.length)
    | _ => ([], rest)
  if whole.isEmpty && part.isEmpty then none
  else
    let word := ofDigits ((whole ++ part).filterMap digitValue?)
    let signed (cs : List Char) : Bool × List Char := match cs with
      | '-' :: more => (true, more)
      | '+' :: more => (false, more)
      | _ => (false, cs)
    let (shift, rest) : Int × List Char := match rest with
      | c :: more =>
        let (down, more) := signed more
        let digits := more.takeWhile Char.isDigit
        if (c = 'e' || c = 'E') && !digits.isEmpty then
          let n : Int := min (ofDigits (digits.filterMap digitValue?)) 100000
          (if down then -n else n, more.drop digits.length)
        else (0, rest)
      | [] => (0, rest)
    some (⟨negative, word, shift - part.length⟩, rest)

/-- The value of a format that is nearest to a written number. -/
def Written.nearest {f : Format} (w : Written) : Binary f :=
  match w.exponent with
  | .ofNat k =>
    if 5000 < k && w.word != 0 then .infinite w.negative
    else .ofRatio w.negative (w.word * Nat.pow 10 k) 1
  | .negSucc k =>
    if 20000 < k then .zero w.negative else .ofRatio w.negative w.word (Nat.pow 10 (k + 1))

/-- The number at the beginning of a text, zero if there is none, and the text after it. -/
def Binary.ofText {f : Format} (text : List Char) : Binary f × List Char :=
  match written? text with
  | some (w, rest) => (w.nearest, rest)
  | none => (.zero false, text)

/-- The whole number `e` with `10 ^ e ≤ num / den < 10 ^ (e + 1)`, for positive arguments. -/
def floorLog10 (num den : Nat) : Int :=
  let guess : Int := ((digits num).length : Int) - (digits den).length
  let isReached (e : Int) : Bool := match e with
    | .ofNat k => den * Nat.pow 10 k ≤ num
    | .negSucc k => den ≤ num * Nat.pow 10 (k + 1)
  if isReached guess then guess else guess - 1

/-- A positive quotient as a number of the given digits, the first before the point, and the
exponent of ten. -/
def toPlaces (places num den : Nat) : Nat × Int :=
  let e := floorLog10 num den
  let (n, d) : Nat × Nat := match (places : Int) - e with
    | .ofNat k => (num * Nat.pow 10 k, den)
    | .negSucc k => (num, den * Nat.pow 10 (k + 1))
  let word := roundDiv n d
  if word = Nat.pow 10 (places + 1) then (Nat.pow 10 places, e + 1) else (word, e)

/-- Digits with a point after the first one and an exponent of two digits at least. -/
def withExponent (places word : Nat) (e : Int) : List Char :=
  let ds := natText word
  let ds := List.replicate (places + 1 - ds.length) '0' ++ ds
  let power := natText e.natAbs
  ds.take 1 ++ (if places = 0 then [] else '.' :: ds.drop 1) ++ ['e']
    ++ (if e < 0 then ['-'] else ['+']) ++ (if power.length < 2 then '0' :: power else power)

/-- A value with an exponent and so many digits after the point. -/
def Binary.scientific {f : Format} (places : Nat) (x : Binary f) : List Char :=
  let magnitude :=
    if x.isInfinite then ['i', 'n', 'f']
    else if x.isZero then Decimal.withExponent places 0 0
    else
      let (num, den) := x.ratio
      let (word, e) := toPlaces places num den
      Decimal.withExponent places word e
  if x.negative then '-' :: magnitude else magnitude

/-- A text of digits without the zeros at the end of the part after a point. -/
def dropZeros (text : List Char) : List Char :=
  if text.contains '.' then
    match (text.reverse.dropWhile (· = '0')).reverse with
    | cs => if cs.getLast? = some '.' then cs.dropLast else cs
  else text

/-- A value with at most so many significant digits, with an exponent only where that is large or
small. Zeros at the end are kept if so said. -/
def Binary.general {f : Format} (keep : Bool) (significant : Nat) (x : Binary f) : List Char :=
  let significant := max 1 significant
  let tidy (text : List Char) := if keep then text else dropZeros text
  if x.isInfinite then x.fixed 0
  else
    let e : Int := if x.isZero then 0 else
      let (num, den) := x.ratio
      (toPlaces (significant - 1) num den).2
    if -4 ≤ e && e < significant then tidy (x.fixed (significant - 1 - e).toNat)
    else
      let text := x.scientific (significant - 1)
      let front := text.takeWhile (· != 'e')
      tidy front ++ text.drop front.length

end MutationTesting.Decimal
