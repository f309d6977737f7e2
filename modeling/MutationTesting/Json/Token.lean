import MutationTesting.Json.Basic
import MutationTesting.Text.Utf8
/-!
# JSON tokens

Punctuation, words, numbers and strings of JSON text. The input is a list of symbols, `none`
standing for bytes that are no text: they are allowed inside strings, whose token then denotes no
text, and nowhere else. No two values can follow one another without punctuation between them, so
cutting a text into tokens first accepts no text that a character-wise reader would refuse.

## Main definitions

* `Token`
* `Token.scan` — the tokens of a text
-/

namespace MutationTesting

/-- A token of JSON text. -/
inductive Token where
  | openObject
  | closeObject
  | openList
  | closeList
  | colon
  | comma
  | null
  | bool (b : Bool)
  | number (n : Number)
  /-- A string literal, `none` if it denotes no text. -/
  | string (s : Option String)

namespace Token

/-- Input symbols: characters, or `none` for bytes that spell none. -/
abbrev Symbols := List (Option Char)

/-- The digits at the beginning of the input, and the rest. -/
def takeDigits : Symbols → List Nat × Symbols
  | some c :: rest =>
    match Decimal.digitValue? c with
    | some d => let (ds, rest) := takeDigits rest; (d :: ds, rest)
    | none => ([], some c :: rest)
  | input => ([], input)

/-- The digits at the beginning of the input, of which there must be one. -/
def takeDigits1? (input : Symbols) : Option (List Nat × Symbols) :=
  match takeDigits input with
  | ([], _) => none
  | taken => some taken

/-- The digits before the point: a single zero, or digits that do not begin with one. -/
def takeWhole? : Symbols → Option (List Nat × Symbols)
  | some '0' :: rest => some ([0], rest)
  | input => takeDigits1? input

/-- The point and the digits after it, if there is a point. -/
def takeFraction? : Symbols → Option (Option (List Nat) × Symbols)
  | some '.' :: rest => (takeDigits1? rest).map fun (ds, rest) => (some ds, rest)
  | input => some (none, input)

/-- The sign of an exponent, `true` for minus. -/
def takeSign : Symbols → Bool × Symbols
  | some '+' :: rest => (false, rest)
  | some '-' :: rest => (true, rest)
  | input => (false, input)

/-- The exponent, if there is one. -/
def takeExponent? : Symbols → Option (Option (Bool × List Nat) × Symbols)
  | some c :: rest =>
    if c = 'e' ∨ c = 'E' then
      let (negative, rest) := takeSign rest
      (takeDigits1? rest).map fun (ds, rest) => (some (negative, ds), rest)
    else some (none, some c :: rest)
  | input => some (none, input)

/-- The number literal at the beginning of the input. -/
def takeNumber? (input : Symbols) : Option (Number × Symbols) := do
  let (negative, input) := match input with
    | some '-' :: rest => (true, rest)
    | input => (false, input)
  let (whole, input) ← takeWhole? input
  let (fraction, input) ← takeFraction? input
  let (exponent, input) ← takeExponent? input
  some (⟨negative, whole, fraction, exponent⟩, input)

/-- The number that four hexadecimal digits denote. -/
def hex4? (a b c d : Char) : Option Nat := do
  let a ← Decimal.hexValue? a
  let b ← Decimal.hexValue? b
  let c ← Decimal.hexValue? c
  let d ← Decimal.hexValue? d
  some (((a * 16 + b) * 16 + c) * 16 + d)

/-- The character that a one-letter escape stands for. -/
def shortEscape? : Char → Option Char
  | '"' => some '"'
  | '\\' => some '\\'
  | '/' => some '/'
  | 'b' => some '\x08'
  | 'f' => some '\x0c'
  | 'n' => some '\n'
  | 'r' => some '\r'
  | 't' => some '\t'
  | _ => none

/-- Reads a string up to its closing quote. `units` holds what was read, last first, `none` for
bytes that are no text. Control characters must be escaped. -/
def takeString? (units : List (Option Nat)) : Symbols → Option (List (Option Nat) × Symbols)
  | [] => none
  | none :: rest => takeString? (none :: units) rest
  | some c :: rest =>
    if c = '"' then some (units.reverse, rest)
    else if c = '\\' then
      match rest with
      | some 'u' :: some a :: some b :: some c :: some d :: rest =>
        match hex4? a b c d with
        | some unit => takeString? (some unit :: units) rest
        | none => none
      | some e :: rest =>
        match shortEscape? e with
        | some c => takeString? (some c.toNat :: units) rest
        | none => none
      | _ => none
    else if c.toNat < 0x20 then none
    else takeString? (some c.toNat :: units) rest

/-- The list without its options, if none is absent. -/
def allSome? : List (Option Nat) → Option (List Nat)
  | [] => some []
  | some n :: rest => (allSome? rest).map (n :: ·)
  | none :: _ => none

/-- The text of the units of a string. -/
def textOfUnits? (units : List (Option Nat)) : Option String :=
  (allSome? units).bind fun units => (Utf16.text? units).map String.ofList

/-- The token at the beginning of an input that does not begin with a space. -/
def take? : Symbols → Option (Token × Symbols)
  | some '{' :: rest => some (.openObject, rest)
  | some '}' :: rest => some (.closeObject, rest)
  | some '[' :: rest => some (.openList, rest)
  | some ']' :: rest => some (.closeList, rest)
  | some ':' :: rest => some (.colon, rest)
  | some ',' :: rest => some (.comma, rest)
  | some 'n' :: some 'u' :: some 'l' :: some 'l' :: rest => some (.null, rest)
  | some 't' :: some 'r' :: some 'u' :: some 'e' :: rest => some (.bool true, rest)
  | some 'f' :: some 'a' :: some 'l' :: some 's' :: some 'e' :: rest => some (.bool false, rest)
  | some '"' :: rest =>
    (takeString? [] rest).map fun (units, rest) => (.string (textOfUnits? units), rest)
  | input => (takeNumber? input).map fun (n, rest) => (.number n, rest)

/-- The four characters that may stand between tokens. -/
def isSpace (c : Char) : Bool := c = ' ' || c = '\n' || c = '\t' || c = '\r'

/-- The tokens of an input, those in `done` (last first) before them. Each token takes at least
one symbol, so `fuel` need not exceed the number of symbols. -/
def scanFrom (done : List Token) : Nat → Symbols → Option (List Token)
  | _, [] => some done.reverse
  | 0, _ :: _ => none
  | fuel + 1, s :: rest =>
    if s.any isSpace then scanFrom done fuel rest
    else
      match take? (s :: rest) with
      | some (token, rest) => scanFrom (token :: done) fuel rest
      | none => none

/-- The tokens of a text, or `none` if it cannot be cut into tokens. -/
def scan (input : Symbols) : Option (List Token) := scanFrom [] input.length input

end Token

end MutationTesting
