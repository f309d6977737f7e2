/-!
# Method descriptors

The parameter list of a method descriptor as stack sizes: `J` and `D` take two slots, every other
type one. A class type runs to the next semicolon.

## Main definitions

* `argumentSizes?`
-/

namespace MutationTesting.Descriptor

/-- What has been read of the type at hand. -/
inductive Progress where
  /-- Nothing. -/
  | start
  /-- A class type up to somewhere in its name. -/
  | name
  /-- The brackets of an array type. -/
  | brackets

/-- The stack sizes of the types that the characters spell. -/
def sizesFrom : Progress → List Char → Option (List Nat)
  | .start, [] => some []
  | _, [] => none
  | .start, c :: rest =>
    if c = 'J' ∨ c = 'D' then (sizesFrom .start rest).map (2 :: ·)
    else if c ∈ ['Z', 'B', 'C', 'S', 'I', 'F'] then (sizesFrom .start rest).map (1 :: ·)
    else if c = 'L' then sizesFrom .name rest
    else if c = '[' then sizesFrom .brackets rest
    else none
  | .name, c :: rest =>
    if c = ';' then (sizesFrom .start rest).map (1 :: ·) else sizesFrom .name rest
  | .brackets, c :: rest =>
    if c = '[' then sizesFrom .brackets rest
    else if c = 'L' then sizesFrom .name rest
    else (sizesFrom .start rest).map (1 :: ·)

/-- The characters before the first occurrence of `stop`, if there is one. -/
def before? (stop : Char) : List Char → Option (List Char)
  | [] => none
  | c :: rest => if c = stop then some [] else (before? stop rest).map (c :: ·)

/-- The stack sizes of the parameters of a method descriptor, `none` if it is malformed. -/
def argumentSizes? (descriptor : String) : Option (List Nat) :=
  match descriptor.toList with
  | '(' :: rest => (before? ')' rest).bind (sizesFrom .start)
  | _ => none

end MutationTesting.Descriptor
