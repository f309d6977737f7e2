import MutationTesting.Class.Basic
/-!
# Coverage store

The hits of the classes that are known, each with one probe for the class and one for each of its
lines. A class is known by a number, given at its first registration. Taking a snapshot clears
all hits.

## Main definitions

* `CoverageStore`, `register`, `visit`, `snapshot`
* `LineCoverage` — classes and lines hit
-/

namespace MutationTesting

/-- The probes of a class. -/
structure ClassProbes where
  name : String
  /-- Increasing; the probe after the first belongs to the first line, and so on. -/
  lines : List UInt32
  /-- One more than lines. -/
  hits : List Bool
  deriving DecidableEq

/-- Probes that nothing has hit. -/
def ClassProbes.fresh (name : String) (lines : List UInt32) : ClassProbes :=
  ⟨name, lines, List.replicate (lines.length + 1) false⟩

/-- The class was visited: its first probe is hit. -/
def ClassProbes.visited (c : ClassProbes) : Bool := c.hits.headD false

/-- The lines whose probes are hit. -/
def ClassProbes.hitLines (c : ClassProbes) : List UInt32 :=
  ((c.lines.zip (c.hits.drop 1)).filter (·.2)).map (·.1)

/-- No probe is hit. -/
def ClassProbes.clear (c : ClassProbes) : ClassProbes :=
  { c with hits := c.hits.map fun _ => false }

/-- Truth values raised by those of another list from a position on. -/
def raise : Nat → List Bool → List Bool → List Bool
  | _, [], _ => []
  | 0, hit :: hits, probe :: probes => (hit || probe) :: raise 0 hits probes
  | 0, hits, [] => hits
  | n + 1, hit :: hits, probes => hit :: raise n hits probes

/-- A visit: the class is hit, and the lines from `offset` on as the probes say. Probes beyond
the last line are ignored. -/
def ClassProbes.visit (c : ClassProbes) (offset : Nat) (probes : List Bool) : ClassProbes :=
  { c with hits := match c.hits with
    | _ :: lines => true :: raise offset lines probes
    | [] => [] }

/-- The known classes; the number of a class is its position. -/
structure CoverageStore where
  classes : List ClassProbes
  deriving DecidableEq

/-- Classes and the lines hit in them, in the order of names. -/
abbrev LineCoverage := List (String × List UInt32)

/-- Puts a class into line coverage, in the place of what was there under its name. -/
def LineCoverage.insert (name : String) (lines : List UInt32) : LineCoverage → LineCoverage
  | [] => [(name, lines)]
  | (other, found) :: rest =>
    if name = other then (name, lines) :: rest
    else if name < other then (name, lines) :: (other, found) :: rest
    else (other, found) :: LineCoverage.insert name lines rest

namespace CoverageStore

/-- A store that knows no class. -/
def empty : CoverageStore := ⟨[]⟩

/-- The number of the class with the given name. -/
def classId? (s : CoverageStore) (name : String) : Option Nat :=
  s.classes.findIdx? (·.name == name)

/-- The number of a class and the store that knows it; a class that is known keeps its lines. -/
def register (s : CoverageStore) (name : String) (lines : List UInt32) : Nat × CoverageStore :=
  match s.classId? name with
  | some id => (id, s)
  | none => (s.classes.length, ⟨s.classes ++ [.fresh name lines]⟩)

/-- How many probes a class has. -/
def probeCount? (s : CoverageStore) (id : Nat) : Option Nat := s.classes[id]?.map (·.hits.length)

/-- The hits of a class. -/
def hits? (s : CoverageStore) (id : Nat) : Option (List Bool) := s.classes[id]?.map (·.hits)

/-- A visit of a class; visits of unknown classes do nothing. -/
def visit (s : CoverageStore) (id offset : Nat) (probes : List Bool) : CoverageStore :=
  ⟨s.classes.modify id (·.visit offset probes)⟩

/-- No probe of any class is hit. -/
def isClear (s : CoverageStore) : Bool := s.classes.all fun c => !c.hits.contains true

/-- The lines hit in each visited class, and the store with all hits cleared. -/
def snapshot (s : CoverageStore) : LineCoverage × CoverageStore :=
  ((s.classes.filter (·.visited)).foldl
      (fun found c => LineCoverage.insert c.name (sortLines c.hitLines) found) [],
    ⟨s.classes.map fun c => if c.visited then c.clear else c⟩)

end CoverageStore

end MutationTesting
