import MutationTesting.FileSystem.Basic
import MutationTesting.Text.Blank
/-!
# Following paths

A path is followed name by name from a directory, or from the root if it begins with a slash. Every
name but the last has to be that of a directory. A link on the way is replaced by its target; so is
one at the end, if the path is followed to its end. Links may lead in circles, and therefore only so
many of them are followed.

## Main definitions

* `Spot` — where a path leads, whether something is there or not
* `FileSystem.spot`, `FileSystem.find`
* `FileSystem.pathTo?` — the path that leads to a directory
-/

namespace MutationTesting

/-- Where a path leads. -/
structure Spot where
  /-- The directory that the last name is looked up in. -/
  directory : Nat
  /-- The last name, unless the path ends in a directory that is not named. -/
  name : Option Octets
  /-- What is there. -/
  node : Option Nat
  deriving DecidableEq

/-- Why a path is followed to the end, or not. -/
inductive Ending where
  /-- A link at the end is replaced by its target. -/
  | follow
  | stay
  deriving DecidableEq

namespace FileSystem

/-- A name is no longer than this. -/
def nameLimit : Nat := 255

/-- A path is shorter than this. -/
def pathLimit : Nat := 4096

/-- As many links are followed for one path. -/
def linkLimit : Nat := 40

/-- The names of a path. -/
def names (path : Octets) : List Octets :=
  (splitAt '/' path).filter fun name => name != [] && name != ['.']

/-- Only a directory can be meant by a path that ends in a slash or a dot. -/
def meansDirectory (path : Octets) : Bool :=
  let last := ((splitAt '/' path).getLast?).getD []
  last = [] || last = ['.']

variable (fs : FileSystem)

/-- Follows names from a directory, and at most so many links. -/
def walk (ending : Ending) (links here : Nat) (path : List Octets) : Except FileError Spot :=
  match path with
  | [] => .ok ⟨here, none, some here⟩
  | name :: rest =>
    if !fs.isDirectory here then .error .notDirectory
    else if nameLimit < name.length then .error .nameTooLong
    else if name = ['.', '.'] then walk ending links (fs.parent here) rest
    else
      match fs.entry? here name with
      | none => if rest = [] then .ok ⟨here, some name, none⟩ else .error .missing
      | some n =>
        match fs.form? n with
        | some (.link target) =>
          if rest = [] && ending = .stay then .ok ⟨here, some name, some n⟩
          else
            match links with
            | 0 => .error .tooManyLinks
            | links + 1 =>
              if target = [] then .error .missing
              else
                walk ending links (if target.head? = some '/' then root else here)
                  (names target ++ rest)
        | _ => if rest = [] then .ok ⟨here, some name, some n⟩ else walk ending links n rest
termination_by (links, path.length)

/-- Where a path leads from a directory. -/
def spot (ending : Ending) (here : Nat) (path : Octets) : Except FileError Spot := do
  if path = [] then throw .missing
  if path.contains '\x00' then throw .invalid
  if pathLimit ≤ path.length then throw .nameTooLong
  let wanted := meansDirectory path
  let s ← fs.walk (if wanted then .follow else ending) linkLimit
    (if path.head? = some '/' then root else here) (names path)
  match s.node with
  | some n => if wanted && !fs.isDirectory n then throw .notDirectory else return s
  | none => return s

/-- What a path leads to from a directory. -/
def find (ending : Ending) (here : Nat) (path : Octets) : Except FileError Nat := do
  match (← fs.spot ending here path).node with
  | some n => return n
  | none => throw .missing

/-- The node that a path leads to. -/
def nodeAt? (ending : Ending) (here : Nat) (path : Octets) : Option Node :=
  match fs.find ending here path with
  | .ok n => fs.node? n
  | .error _ => none

/-- A path leads to a directory. -/
def leadsToDirectory (here : Nat) (path : Octets) : Bool :=
  match fs.find .follow here path with
  | .ok n => fs.isDirectory n
  | .error _ => false

/-- The names that lead to a directory from the root; none if it is not below the root. The first
argument bounds the way up. -/
def namesTo? : Nat → Nat → Option (List Octets)
  | 0, _ => none
  | n + 1, directory =>
    if directory = root then some []
    else do
      let above := fs.parent directory
      let entry ← (fs.entries above).find? (·.2 = directory)
      return (← namesTo? n above) ++ [entry.1]

/-- The path of a directory from the root. -/
def pathTo? (directory : Nat) : Option Octets := do
  let names ← fs.namesTo? (fs.issued + 1) directory
  return if names.isEmpty then ['/'] else names.flatMap ('/' :: ·)

end FileSystem

end MutationTesting
