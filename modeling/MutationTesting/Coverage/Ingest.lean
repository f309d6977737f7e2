import MutationTesting.Class.Location
import MutationTesting.Class.Artifact
import MutationTesting.Coverage.Decoder
import MutationTesting.Coverage.Store
import MutationTesting.Host.Basic
import MutationTesting.Failure
/-!
# From coverage files to the store

A coverage file says which classes were hit, by probes of its own making. For the store every
probe of such a class counts as hit. A class that the store does not know yet is looked up among the
artifacts; if it is not found there it is skipped, and so is a class without probes.

A file is read as a whole before the store is changed.

## Main definitions

* `scanArtifacts`, `readClass`
* `LocationIndex`, `LocationIndex.build`, `LocationIndex.locate?`
* `CoverageStore.hitClass`, `ingestRecords`, `ingest`
-/

namespace MutationTesting

section

variable {σ : Type} (host : Host σ)

/-- The paths of the class artifacts below a directory, in order. -/
def scanArtifacts (s : σ) (dir : Path) : Except Failure (List Path) :=
  match host.filesBelow s dir with
  | none => .error (.io dir)
  | some paths =>
    .ok (Path.sort (paths.filter fun p => (Path.fileName? p).any isArtifactName))

/-- The class in an artifact. -/
def readClass (s : σ) (path : Path) : Except Failure ClassFile :=
  match host.read s path with
  | none => .error (.io path)
  | some bytes =>
    match ClassFile.ofBytes? bytes with
    | none => .error (.codec path)
    | some c => .ok c

end

/-- Where the artifacts of classes are. -/
abbrev LocationIndex := List (String × Path)

namespace LocationIndex

/-- Adds a class, in the place of one with its name. -/
def insert (index : LocationIndex) (name : String) (path : Path) : LocationIndex :=
  index.filter (·.1 != name) ++ [(name, path)]

/-- The path of the artifact of a class. -/
def locate? (index : LocationIndex) (name : String) : Option Path := index.lookup name

/-- The classes whose artifacts have the given paths below a directory. -/
def ofPaths (classesDir : Path) (paths : List Path) : LocationIndex :=
  paths.foldl (fun index path =>
    match internalName? classesDir path with
    | some name => index.insert name path
    | none => index) []

/-- The classes below a directory. -/
def build {σ : Type} (host : Host σ) (s : σ) (classesDir : Path) :
    Except Failure LocationIndex :=
  (scanArtifacts host s classesDir).map (ofPaths classesDir)

/-- The lines of a class, read from its artifact. -/
def linesOf? {σ : Type} (index : LocationIndex) (host : Host σ) (s : σ) (name : String) :
    Option (List UInt32) :=
  (index.locate? name).bind fun path =>
    match readClass host s path with
    | .ok c => some c.lines
    | .error _ => none

end LocationIndex

/-- Which classes of a file were taken over, and which not. -/
structure IngestReport where
  replayed : List String
  skipped : List String
  deriving DecidableEq

namespace CoverageStore

/-- The store with the class, if it can be loaded. -/
def ensureLoaded (load : String → Option (List UInt32)) (s : CoverageStore) (name : String) :
    CoverageStore :=
  match s.classId? name with
  | some _ => s
  | none =>
    match load name with
    | some lines => (s.register name lines).2
    | none => s

/-- All probes of a class are hit. -/
def hitAll (s : CoverageStore) (id : Nat) : CoverageStore :=
  s.visit id 0 (List.replicate ((s.probeCount? id).getD 0 - 1) true)

/-- Hits a class as a whole; whether it is known, if need be after it was loaded, and has probes. -/
def hitClass (load : String → Option (List UInt32)) (name : String) :
    StateM CoverageStore Bool := fun s =>
  let s := s.ensureLoaded load name
  match s.classId? name with
  | none => (false, s)
  | some id => if (s.probeCount? id).getD 0 = 0 then (false, s) else (true, s.hitAll id)

end CoverageStore

/-- Puts a class at the head of those taken over, or of those that are not. -/
def IngestReport.add (report : IngestReport) (name : String) (replayed : Bool) : IngestReport :=
  if replayed then { report with replayed := name :: report.replayed }
  else { report with skipped := name :: report.skipped }

/-- Takes over the records of a file, one after the other. A record without a hit counts for
nothing. -/
def ingestRecords (load : String → Option (List UInt32)) :
    List ExecutionRecord → StateM CoverageStore IngestReport
  | [] => return ⟨[], []⟩
  | r :: rest => do
    if r.anyHit then
      let replayed ← CoverageStore.hitClass load r.name
      let report ← ingestRecords load rest
      return report.add r.name replayed
    else ingestRecords load rest

/-- Takes over a coverage file, or refuses it. -/
def ingest (load : String → Option (List UInt32)) (bytes : Bytes) :
    StateM CoverageStore (Except CoverageError IngestReport) := do
  match Coverage.validateHeader bytes with
  | .error e => return .error e
  | .ok () =>
    match Coverage.decode bytes with
    | .error e => return .error e
    | .ok data => return .ok (← ingestRecords load data.records)

end MutationTesting
