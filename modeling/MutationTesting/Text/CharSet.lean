/-!
# Sets of characters

Sets of characters as they are written between square brackets in patterns: single characters,
ranges and named classes, possibly all but those.

## Main definitions

* `CharSet`, `CharSet.bracket?`
* `CharSet.bracketFault?` — what is wrong with a set
-/

namespace MutationTesting

/-- A set of characters. -/
abbrev CharSet := Char → Bool

namespace CharSet

/-- Just one character. -/
def single (c : Char) : CharSet := (· = c)

/-- The members of either set. -/
def union (s t : CharSet) : CharSet := fun c => s c || t c

/-- The characters from one to another. -/
def range (low high : Char) : CharSet := fun c => low ≤ c && c ≤ high

/-- Upper and lower case of ASCII letters are the same. -/
def caseless (s : CharSet) : CharSet := fun c => s c || s c.toLower || s c.toUpper

/-- Printable ASCII characters other than letters, digits and the space. -/
def isPunctuation (c : Char) : Bool := '!' ≤ c && c ≤ '~' && !c.isAlphanum

/-- The class of the given name; there are ASCII characters only in these classes. -/
def named? (name : List Char) : Option CharSet :=
  match String.ofList name with
  | "alpha" => some Char.isAlpha
  | "digit" => some Char.isDigit
  | "alnum" => some Char.isAlphanum
  | "upper" => some Char.isUpper
  | "lower" => some Char.isLower
  | "space" => some fun c => c = ' ' || range '\t' '\r' c
  | "blank" => some fun c => c = ' ' || c = '\t'
  | "punct" => some isPunctuation
  | "xdigit" => some fun c => c.isDigit || range 'a' 'f' c || range 'A' 'F' c
  | "print" => some (range ' ' '~')
  | "graph" => some (range '!' '~')
  | "cntrl" => some fun c => c < ' ' || c = '\x7f'
  | _ => none

/-- The set written before the next closing bracket, and the text after that. A first argument of
the length of the text is enough. -/
def members : Nat → List Char → Option (CharSet × List Char)
  | _, ']' :: rest => some (fun _ => false, rest)
  | n + 1, '[' :: ':' :: rest => do
    let name := rest.takeWhile (· != ':')
    let s ← named? name
    let (t, rest) ← members n (rest.drop (name.length + 2))
    some (s.union t, rest)
  | n + 1, '[' :: '=' :: c :: '=' :: ']' :: rest
  | n + 1, '[' :: '.' :: c :: '.' :: ']' :: rest => do
    let (t, rest) ← members n rest
    some ((single c).union t, rest)
  | n + 1, a :: '-' :: b :: rest => do
    if b = ']' then
      let (t, rest) ← members n ('-' :: b :: rest)
      some ((single a).union t, rest)
    else
      let (t, rest) ← members n rest
      some ((range a b).union t, rest)
  | n + 1, c :: rest => do
    let (t, rest) ← members n rest
    some ((single c).union t, rest)
  | _, _ => none

/-- The set written after an opening bracket, and the text after the closing one. One of some
characters in the first place means all but the members. A closing bracket in the first place is a
member. -/
def bracket? (negations : List Char) (text : List Char) : Option (CharSet × List Char) := do
  let (negative, text) := match text with
    | c :: rest => if negations.contains c then (true, rest) else (false, text)
    | [] => (false, text)
  let (s, rest) ← match text with
    | ']' :: rest => (members rest.length rest).map fun (s, rest) => ((single ']').union s, rest)
    | _ => members text.length text
  some (if negative then fun c => !s c else s, rest)

/-- What is wrong with the members before the next closing bracket. A first argument of the length
of the text is enough. -/
def memberFault? : Nat → List Char → Option String
  | _, ']' :: _ => none
  | n + 1, '[' :: ':' :: rest =>
    let name := rest.takeWhile (· != ':')
    if (rest.drop name.length).take 2 != [':', ']'] then some "Unmatched [, [^, [:, [., or [="
    else if (named? name).isNone then some "Invalid character class name"
    else memberFault? n (rest.drop (name.length + 2))
  | n + 1, a :: '-' :: b :: rest =>
    if b = ']' then none
    else if b < a then some "Invalid range end"
    else memberFault? n rest
  | n + 1, _ :: rest => memberFault? n rest
  | _, _ => some "Unmatched [, [^, [:, [., or [="

/-- What is wrong with the set written after an opening bracket. -/
def bracketFault? (text : List Char) : Option String :=
  match text with
  | [] => some "Invalid regular expression"
  | '^' :: ']' :: rest | ']' :: rest | '^' :: rest | rest => memberFault? rest.length rest

end CharSet

end MutationTesting
