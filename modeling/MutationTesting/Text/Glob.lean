import MutationTesting.Text.CharSet
/-!
# Name patterns

Patterns of names: an asterisk stands for any text, a question mark for any character, and brackets
for any character of a set. A character may be marked as standing for itself.

## Main definitions

* `Glob`, `Glob.ofMarked`, `Glob.ofText`, `Glob.accepts`
-/

namespace MutationTesting

/-- A part of a pattern. -/
inductive GlobPart where
  | anyText
  | one (s : CharSet)

/-- A pattern of names. -/
abbrev Glob := List GlobPart

namespace Glob

/-- The pattern written by characters, of which those that are marked stand for themselves. A first
argument of the number of characters is enough. -/
def parts : Nat → List (Char × Bool) → Glob
  | n + 1, ('*', false) :: rest => .anyText :: parts n rest
  | n + 1, ('?', false) :: rest => .one (fun _ => true) :: parts n rest
  | n + 1, ('[', false) :: rest =>
    match CharSet.bracket? ['!', '^'] (rest.map (·.1)) with
    | some (s, after) => .one s :: parts n (rest.drop (rest.length - after.length))
    | none => .one (CharSet.single '[') :: parts n rest
  | n + 1, (c, _) :: rest => .one (CharSet.single c) :: parts n rest
  | _, _ => []

/-- The pattern written by characters. -/
def ofMarked (cs : List (Char × Bool)) : Glob := parts cs.length cs

/-- The pattern that a text is, in which a backslash marks the character after it. -/
def ofText (text : List Char) : Glob :=
  let rec mark : List Char → List (Char × Bool)
    | '\\' :: c :: rest => (c, true) :: mark rest
    | c :: rest => (c, false) :: mark rest
    | [] => []
  ofMarked (mark text)

/-- A character that is not marked has a meaning of its own in patterns. -/
def isSpecial (c : Char × Bool) : Bool := !c.2 && (c.1 = '*' || c.1 = '?' || c.1 = '[')

/-- A text fits a pattern. -/
def accepts : Glob → List Char → Bool
  | [], text => text.isEmpty
  | .anyText :: rest, [] => accepts rest []
  | .anyText :: rest, c :: text => accepts rest (c :: text) || accepts (.anyText :: rest) text
  | .one _ :: _, [] => false
  | .one s :: rest, c :: text => s c && accepts rest text
termination_by g text => g.length + text.length

end Glob

end MutationTesting
