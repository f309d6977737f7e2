import MutationTesting.Text.Blank
import MutationTesting.Text.Octets
/-!
# Paths

Paths are octets with slashes. A path is cut at its slashes into pieces; empty pieces and single
dots name nothing, except that an empty first piece is the root and a dot in its place the
directory one is in. Operations change only the pieces they are about and keep the others as they
are written.

The system does not ask that a path spell a text. What has to be one is said where it matters:
`Octets.text?` is the text of a path that is well formed, and `Octets.text` is how any path is
shown.

## Main definitions

* `Path`
* `Component`, `components` — what a path names, step by step
* `join`, `fileName?`, `parent?`, `withFileName`, `withExtension`, `stripPrefix?`
* `le` — the order of paths by their components
-/

namespace MutationTesting

/-- The way to a file. -/
abbrev Path := Octets

namespace Path

/-- A piece between two slashes. -/
abbrev Piece := Octets

/-- A step of a path. -/
inductive Component where
  | root
  | current
  | parent
  | name (s : Piece)
  deriving DecidableEq

/-- The pieces of a path; the empty path has none. -/
def pieces (path : Path) : List Piece := if path = [] then [] else splitAt '/' path

/-- Pieces with slashes between them. -/
def joined (pieces : List Piece) : Path := List.intercalate ['/'] pieces

/-- The path with the given pieces. -/
def ofPieces : List Piece → Path
  | [[]] => ['/']
  | pieces => joined pieces

/-- A piece that names nothing unless it is the first. -/
def isVoid (piece : Piece) : Bool := piece = [] || piece = ['.']

/-- The step of a piece that is not void, after the first. -/
def stepOf (piece : Piece) : Component := if piece = ['.', '.'] then .parent else .name piece

/-- The step of the first piece. -/
def firstStep (piece : Piece) : Component :=
  if piece = [] then .root else if piece = ['.'] then .current else stepOf piece

/-- The steps of a path. -/
def components (path : Path) : List Component :=
  match pieces path with
  | [] => []
  | first :: rest => firstStep first :: (rest.filter (!isVoid ·)).map stepOf

/-- A list without the elements at its end that satisfy `p`. -/
def dropEndWhile {α : Type} (p : α → Bool) (xs : List α) : List α :=
  (xs.reverse.dropWhile p).reverse

/-- The pieces of a path without void ones at its end. -/
def trimmed (path : Path) : List Piece :=
  match pieces path with
  | [] => []
  | first :: rest => first :: dropEndWhile isVoid rest

/-- The path begins at the root. -/
def isAbsolute (path : Path) : Bool := path.head? = some '/'

/-- A path continued by another one; an absolute one takes its place. -/
def join (base path : Path) : Path :=
  if isAbsolute path || base = [] then path
  else if base.getLast? = some '/' then base ++ path
  else base ++ '/' :: path

/-- The last step, if it is a name. -/
def fileName? (path : Path) : Option Piece :=
  match (components path).getLast? with
  | some (.name n) => some n
  | _ => none

/-- The path without its last step; the root and the empty path have no parent. -/
def parent? (path : Path) : Option Path :=
  match trimmed path with
  | [] => none
  | [[]] => none
  | [_] => some []
  | first :: rest => some (ofPieces (first :: dropEndWhile isVoid rest.dropLast))

/-- The path with another name in the place of its last one, or continued by it. -/
def withFileName (path : Path) (name : Piece) : Path :=
  match fileName? path, parent? path with
  | some _, some parent => join parent name
  | _, _ => join path name

/-- The name up to its last dot, unless the dot begins it. -/
def stem (name : Piece) : Piece :=
  if name.contains '.' then
    let before := ((name.reverse.dropWhile (· != '.')).drop 1).reverse
    if before = [] then name else before
  else name

/-- The path with its last name extended in the place of an extension that it may have. -/
def withExtension (path : Path) (extension : Piece) : Path :=
  match fileName? path with
  | none => path
  | some name => ofPieces ((trimmed path).dropLast ++ [stem name ++ '.' :: extension])

/-- The pieces after the steps of `base`, if the path begins with them. -/
def stripSteps? : List Component → List Piece → Option (List Piece)
  | [], pieces => some (dropEndWhile isVoid (pieces.dropWhile isVoid))
  | _ :: _, [] => none
  | step :: steps, piece :: rest =>
    if isVoid piece then stripSteps? (step :: steps) rest
    else if stepOf piece = step then stripSteps? steps rest
    else none

/-- The rest of a path after another one that it begins with, step by step. -/
def stripPrefix? (base path : Path) : Option Path :=
  match components base, pieces path with
  | [], _ => some (ofPieces (trimmed path))
  | _ :: _, [] => none
  | step :: steps, first :: rest =>
    if firstStep first = step then (stripSteps? steps rest).map joined else none

/-- Whether characters come before others, in the order of code points. -/
def compareChars : List Char → List Char → Ordering
  | [], [] => .eq
  | [], _ :: _ => .lt
  | _ :: _, [] => .gt
  | a :: as, b :: bs => (compare a.toNat b.toNat).then (compareChars as bs)

/-- The place of a kind of step in the order. -/
def Component.rank : Component → Nat
  | .root => 0
  | .current => 1
  | .parent => 2
  | .name _ => 3

/-- The order of steps. -/
def Component.compare : Component → Component → Ordering
  | .name a, .name b => compareChars a b
  | a, b => Ord.compare a.rank b.rank

/-- The order of lists of steps. -/
def compareSteps : List Component → List Component → Ordering
  | [], [] => .eq
  | [], _ :: _ => .lt
  | _ :: _, [] => .gt
  | a :: as, b :: bs => (a.compare b).then (compareSteps as bs)

/-- The path comes before the other one or is equal to it, step by step. -/
def le (a b : Path) : Bool := (compareSteps (components a) (components b)).isLE

/-- Paths in their order. -/
def sort (paths : List Path) : List Path := paths.mergeSort le

end Path

end MutationTesting
