import MutationTesting.FileSystem.Walk
import MutationTesting.Host.Path
/-!
# Listing a file system

What lies below a directory, as the names that lead there. A tree without links has no circles, so
that the number of nodes bounds its depth; where links are followed the length of a path does.

## Main definitions

* `FileSystem.regularBelow` — files, links not followed
* `FileSystem.leavesFrom` — everything but directories, links to directories followed
* `FileSystem.everythingBelow` — every name
-/

namespace MutationTesting

namespace FileSystem

variable (fs : FileSystem)

/-- The ways to the files below a directory, no deeper than the first argument. -/
def regularFrom : Nat → Nat → List (List Octets)
  | 0, _ => []
  | depth + 1, n =>
    (fs.entries n).flatMap fun (name, m) =>
      match fs.form? m with
      | some (.directory _ _) => (regularFrom depth m).map (name :: ·)
      | some (.file _) => [[name]]
      | _ => []

/-- The ways to the files below a directory. -/
def regularBelow (n : Nat) : List (List Octets) := fs.regularFrom fs.issued n

/-- The paths of everything but directories below the directory that a path leads to, links to
directories followed. Each path continues the one of its directory. -/
def leavesFrom (here : Nat) : Nat → Octets → List Octets
  | 0, _ => []
  | depth + 1, path =>
    match fs.find .follow here path with
    | .error _ => []
    | .ok n =>
      (fs.entries n).flatMap fun (name, _) =>
        let inner := Path.join path name
        if fs.leadsToDirectory here inner then leavesFrom here depth inner else [inner]

/-- The ways to everything below a directory, directories before what is in them. -/
def everythingFrom : Nat → Nat → List (List Octets × Nat)
  | 0, _ => []
  | depth + 1, n =>
    (fs.entries n).flatMap fun (name, m) =>
      ([name], m) :: (everythingFrom depth m).map fun (way, k) => (name :: way, k)

/-- The ways to everything below a directory, directories before what is in them. -/
def everythingBelow (n : Nat) : List (List Octets × Nat) := fs.everythingFrom fs.issued n

end FileSystem

end MutationTesting
