import MutationTesting.Json.Basic
/-!
# Writing JSON

Two layouts: compact, without any space, and indented, with one item or field a line. In strings
only quotes, backslashes and control characters are escaped.

## Main definitions

* `Json.compact`
* `Json.indented`
-/

namespace MutationTesting

namespace Json

/-- A character inside a string literal. -/
def escape (c : Char) : List Char :=
  match c with
  | '"' => ['\\', '"']
  | '\\' => ['\\', '\\']
  | '\x08' => ['\\', 'b']
  | '\x0c' => ['\\', 'f']
  | '\n' => ['\\', 'n']
  | '\r' => ['\\', 'r']
  | '\t' => ['\\', 't']
  | c => if c.toNat < 0x20 then '\\' :: 'u' :: Decimal.paddedHex 4 c.toNat else [c]

/-- A string literal. -/
def quote (s : String) : List Char := '"' :: s.toList.flatMap escape ++ ['"']

/-- The digits of a literal. -/
def digitChars (ds : List Nat) : List Char := ds.map Decimal.digitChar

/-- A number literal; an exponent always shows its sign. -/
def numberText (n : Number) : List Char :=
  let sign := if n.negative then ['-'] else []
  let fraction := match n.fraction with
    | some ds => '.' :: digitChars ds
    | none => []
  let exponent := match n.exponent with
    | some (negative, ds) => 'e' :: (if negative then '-' else '+') :: digitChars ds
    | none => []
  sign ++ digitChars n.whole ++ fraction ++ exponent

/-- The words for truth values. -/
def boolText (b : Bool) : List Char := if b then ['t', 'r', 'u', 'e'] else ['f', 'a', 'l', 's', 'e']

mutual

/-- The characters of a value without spaces. -/
def compactChars : Json String → List Char
  | .null => ['n', 'u', 'l', 'l']
  | .bool b => boolText b
  | .number n => numberText n
  | .string s => quote s
  | .list items => '[' :: (compactList items ++ [']'])
  | .object fields => '{' :: (compactFields fields ++ ['}'])

/-- Items with commas between them. -/
def compactList : List (Json String) → List Char
  | [] => []
  | [item] => compactChars item
  | item :: rest => compactChars item ++ ',' :: compactList rest

/-- Fields with commas between them. -/
def compactFields : List (String × Json String) → List Char
  | [] => []
  | [(key, value)] => quote key ++ ':' :: compactChars value
  | (key, value) :: rest => quote key ++ ':' :: (compactChars value ++ ',' :: compactFields rest)

end

/-- A new line at the given nesting. -/
def newline (depth : Nat) : List Char := '\n' :: List.replicate (2 * depth) ' '

mutual

/-- The characters of a value at the given nesting, one item or field a line. -/
def indentedChars (depth : Nat) : Json String → List Char
  | .null => ['n', 'u', 'l', 'l']
  | .bool b => boolText b
  | .number n => numberText n
  | .string s => quote s
  | .list [] => ['[', ']']
  | .list items => '[' :: (indentedList (depth + 1) items ++ newline depth ++ [']'])
  | .object [] => ['{', '}']
  | .object fields => '{' :: (indentedFields (depth + 1) fields ++ newline depth ++ ['}'])

/-- Items, each on a line of its own. -/
def indentedList (depth : Nat) : List (Json String) → List Char
  | [] => []
  | [item] => newline depth ++ indentedChars depth item
  | item :: rest => newline depth ++ indentedChars depth item ++ ',' :: indentedList depth rest

/-- Fields, each on a line of its own. -/
def indentedFields (depth : Nat) : List (String × Json String) → List Char
  | [] => []
  | [(key, value)] => newline depth ++ quote key ++ ':' :: ' ' :: indentedChars depth value
  | (key, value) :: rest =>
    newline depth ++ quote key ++ ':' :: ' ' :: (indentedChars depth value
      ++ ',' :: indentedFields depth rest)

end

/-- The text of a value without spaces. -/
def compact (j : Json String) : String := String.ofList j.compactChars

/-- The text of a value with one item or field a line, two spaces for each nesting. -/
def indented (j : Json String) : String := String.ofList (j.indentedChars 0)

end Json

end MutationTesting
