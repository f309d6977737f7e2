import MutationTesting.Machine.Program
import MutationTesting.Shell.State
/-!
# Tracking programs

A shell remembers in which directory of the search path it found a program, and does not look for it
again as long as the search path stays the same. When the shell changes its directory it looks again
at the directories whose paths do not begin at the root, since these may be others now.

What is remembered is kept in a table with a fixed number of rows, which shows in the order of a
list of it.

## Main definitions

* `searchPath`, `programPath?`
* `track` — looks for a program and remembers where it was found
* `trackedLines` — what is remembered
-/

namespace MutationTesting.Shell

/-- Where programs are looked for. -/
def searchPath (s : State) : Octets := (s.value? (octets "PATH")).getD []

/-- A path leads to a file that can be executed. -/
def isExecutable (k : Kernel) (path : Octets) : Bool :=
  match k.files.nodeAt? .follow k.here path with
  | some ⟨.file _, mode, _⟩ => mode &&& 0o111 != 0
  | _ => false

/-- The path of a program that can be executed. -/
def programPath? (s : State) (k : Kernel) (name : Octets) : Option Octets :=
  (programPaths (searchPath s) name).find? (isExecutable k)

/-- The place of the first path that leads to a file that can be executed. Of absolute paths those
before a place are passed over, and the one at the place is taken as it is. -/
def placeOf? (k : Kernel) (known : Option Nat) (paths : List Octets) : Option Nat :=
  (paths.zipIdx.find? fun (path, i) =>
    match known with
    | some n =>
      if path.head? = some '/' && i ≤ n then i = n else isExecutable k path
    | none => isExecutable k path).map (·.2)

/-- Looks for a program and remembers in which directory it was found. -/
def track (name : Octets) : Sh (Option Nat) := do
  let s ← get
  let old := s.tracked.find? (·.name = name)
  match old with
  | some ⟨_, place, false⟩ => return some place
  | _ =>
    let k ← act Act.look
    let place := placeOf? k (old.map (·.place)) (programPaths (searchPath s) name)
    let others := s.tracked.filter (·.name != name)
    modify fun s => { s with
      tracked := match place with
        | some place =>
          if old.isSome then
            s.tracked.map fun t => if t.name = name then ⟨name, place, false⟩ else t
          else s.tracked ++ [⟨name, place, false⟩]
        | none => others }
    return place

/-- How many rows the table has. -/
def trackRows : Nat := 31

/-- The row of the table in which a name is kept. -/
def rowOf (name : Octets) : Nat :=
  let sum := name.foldl (fun n c => n + c.toNat) (((name.head?).map (·.toNat)).getD 0 * 16)
  sum % 0x8000 % trackRows

/-- What is remembered: paths, with a mark where they are to be looked at again. -/
def trackedLines (s : State) : List Octets :=
  (List.range trackRows).flatMap fun row =>
    (s.tracked.filter fun t => rowOf t.name = row).map fun t =>
      ((programPaths (searchPath s) t.name)[t.place]?).getD t.name
        ++ if t.isStale then ['*'] else []

/-- After the directory has changed. -/
def State.moved (s : State) : State :=
  { s with tracked := s.tracked.map fun t => { t with isStale := true } }

end MutationTesting.Shell
