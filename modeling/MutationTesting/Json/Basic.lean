import MutationTesting.Decimal.Shortest
/-!
# JSON values

The trees that class artifacts, run summaries and answers are written in. A number keeps the
digits it was written with, because what a number means depends on who reads it (see
`Json/Number`). The type of texts is a parameter: the reader yields `Option String`, where `none`
is a well-formed literal that denotes no text, and a writer takes `String`.

## Main definitions

* `Number` — a number literal
* `Json` — a value
* `Json.texts?` — a value all of whose literals denote texts
-/

namespace MutationTesting

/-- A number literal: its digits as written, most significant first. -/
structure Number where
  negative : Bool
  whole : List Nat
  /-- The digits after the point, if there is one. -/
  fraction : Option (List Nat)
  /-- The sign (`true` for minus) and the digits of the exponent, if there is one. -/
  exponent : Option (Bool × List Nat)
  deriving DecidableEq

/-- A JSON value over a type of texts. An object lists its fields in the order of the text. -/
inductive Json (τ : Type) where
  | null
  | bool (b : Bool)
  | number (n : Number)
  | string (s : τ)
  | list (items : List (Json τ))
  | object (fields : List (τ × Json τ))

namespace Json

variable {τ : Type}

instance : Inhabited (Json τ) := ⟨.null⟩

mutual

/-- The same value with every literal read as text, if each denotes one. -/
def texts? : Json (Option String) → Option (Json String)
  | .null => some .null
  | .bool b => some (.bool b)
  | .number n => some (.number n)
  | .string s => s.map .string
  | .list items => (textsList? items).map .list
  | .object fields => (textsFields? fields).map .object

/-- `texts?` on every item. -/
def textsList? : List (Json (Option String)) → Option (List (Json String))
  | [] => some []
  | item :: rest => do
    let item ← texts? item
    let rest ← textsList? rest
    some (item :: rest)

/-- `texts?` on every field, its key included. -/
def textsFields? : List (Option String × Json (Option String)) →
    Option (List (String × Json String))
  | [] => some []
  | (key, value) :: rest => do
    let key ← key
    let value ← texts? value
    let rest ← textsFields? rest
    some ((key, value) :: rest)

end

mutual

/-- The number of containers around the innermost value, this one included. -/
def depth : Json τ → Nat
  | .list items => depthList items + 1
  | .object fields => depthFields fields + 1
  | _ => 0

/-- The greatest depth among the items. -/
def depthList : List (Json τ) → Nat
  | [] => 0
  | item :: rest => max (depth item) (depthList rest)

/-- The greatest depth among the values of the fields. -/
def depthFields : List (τ × Json τ) → Nat
  | [] => 0
  | (_, value) :: rest => max (depth value) (depthFields rest)

end

mutual

/-- Every number of the value satisfies `p`. -/
def allNumbers (p : Number → Bool) : Json τ → Bool
  | .number n => p n
  | .list items => allNumbersList p items
  | .object fields => allNumbersFields p fields
  | _ => true

/-- Every number of the items satisfies `p`. -/
def allNumbersList (p : Number → Bool) : List (Json τ) → Bool
  | [] => true
  | item :: rest => allNumbers p item && allNumbersList p rest

/-- Every number in the fields satisfies `p`. -/
def allNumbersFields (p : Number → Bool) : List (τ × Json τ) → Bool
  | [] => true
  | (_, value) :: rest => allNumbers p value && allNumbersFields p rest

end

/-- A whole number. -/
def ofInt (n : Int) : Json τ :=
  .number ⟨n < 0, Decimal.digits n.natAbs, none, none⟩

/-- A natural number. -/
def ofNat (n : Nat) : Json τ := .number ⟨false, Decimal.digits n, none, none⟩

/-- A text, or `null` for none. -/
def ofOption (s : Option τ) : Json τ :=
  match s with
  | some s => .string s
  | none => .null

end Json

end MutationTesting
