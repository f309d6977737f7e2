import MutationTesting.Coverage.Ingest
import MutationTesting.Device.TestRun
import MutationTesting.Discovery
import MutationTesting.Mutation.Mutant
import MutationTesting.Run.ArtifactGuard
import MutationTesting.Run.CoverageMap
import MutationTesting.Run.Deployment
import MutationTesting.Run.Summary
/-!
# Mutation runs

The targets of a run are the classes of a directory in which there is something to mutate, each with
its artifact and its sites. Every artifact of the directory has to be readable, whether it is a
target or not.

Mutants are evaluated one after the other: the mutant takes the place of the artifact, the
application is deployed, the tests that reach the place are run until one of them notices, and the
artifact is put back. Afterwards the unchanged application is deployed, however the run ended, if
any mutant was in place at all.

## Main definitions

* `MutationTarget`, `findTargets`
* `findTestUnits` — the tests of a directory of test classes
* `runCoveringTests` — the verdict of the tests
* `evaluate` — one mutant
* `runMutations` — all of them
-/

namespace MutationTesting

/-! ### Targets -/

/-- A class with the sites found in it. -/
structure MutationTarget where
  artifact : Path
  classFile : ClassFile
  mutations : List Mutation
  deriving DecidableEq

/-- The class of an artifact as a target. -/
def MutationTarget.ofClass (policies : List Policy) (artifact : Path) (c : ClassFile) :
    MutationTarget :=
  ⟨artifact, c, findMutations c policies⟩

/-- The target has sites, and the name of its class begins with the filter. -/
def MutationTarget.isWanted (filter : Option String) (t : MutationTarget) : Bool :=
  filter.all (fun f => f.toList.isPrefixOf t.classFile.name.toList) && !t.mutations.isEmpty

variable {σ : Type} (host : Host σ)

/-- The artifacts below a directory with their classes, in order. -/
def readClasses (s : σ) (dir : Path) : Except Failure (List (Path × ClassFile)) := do
  (← scanArtifacts host s dir).mapM fun path => (readClass host s path).map (path, ·)

/-- The targets below a directory. -/
def findTargets (s : σ) (dir : Path) (policies : List Policy) (filter : Option String) :
    Except Failure (List MutationTarget) :=
  (readClasses host s dir).map fun classes =>
    (classes.map fun (path, c) => .ofClass policies path c).filter (·.isWanted filter)

/-- The tests below a directory, in order, each once. -/
def findTestUnits (s : σ) (dir : Path) (prefixes : List String) :
    Except Failure (List TestUnit) :=
  (readClasses host s dir).map fun classes =>
    sortTests (classes.flatMap fun (path, c) => testUnitsOf c path prefixes)

/-! ### Evaluation -/

/-- What became of a mutant, with the test that decided or the reason why there was no test. -/
abbrev Verdict := MutantStatus × Option String

/-- The verdict that an outcome of a test means for the mutant, if it is one. -/
def TestOutcome.verdict? (test : TestUnit) : TestOutcome → Option (Except Failure Verdict)
  | .passed => none
  | .failed _ | .notExecuted _ => some (.ok (.killed, some test.selector))
  | .timedOut => some (.ok (.timeout, some test.selector))
  | .cancelled => some (.error .cancelled)

/-- The evaluation of a mutant. -/
structure Evaluation where
  /-- The mutant's result, or why the run has to end. -/
  result : Except Failure MutantResult
  /-- The mutant was in place. -/
  installed : Bool

/-- Runs tests in order until one of them notices the mutant. -/
def runCoveringTests (config : DeviceConfig) (options : RunOptions) :
    List TestUnit → StateM σ (Except Failure Verdict)
  | [] => do
    if ← host.cancelled then return .error .cancelled
    return .ok (.survived, none)
  | test :: tests => do
    if ← host.cancelled then return .error .cancelled
    let run ← runInstrumented host config test options.timeoutMs
    match run.outcome.verdict? test with
    | some verdict => return verdict
    | none => runCoveringTests config options tests

/-- Deploys a mutant that is in place and tests it. -/
def judge (config : DeviceConfig) (options : RunOptions) (tests : List TestUnit) :
    StateM σ (Except Failure Verdict) := do
  match ← deploy host options true with
  | .ok () => runCoveringTests host config options tests
  | .error .cancelled => return .error .cancelled
  | .error e => return .ok (.unviable, some e.message)

/-- Puts a mutant in place, has it judged and puts the artifact back. -/
def evaluateMutant (config : DeviceConfig) (options : RunOptions) (tests : List TestUnit)
    (artifact : Path) (mutation : Mutation) (mutant : Mutant) (start : Nat) :
    StateM σ Evaluation := do
  match ← ArtifactGuard.install host artifact mutant.artifact with
  | .error e =>
    return ⟨.ok ⟨mutation, .unviable, host.now (← get) - start, mutant.diff, some e.message⟩, false⟩
  | .ok guard =>
    let verdict ← judge host config options tests
    match ← guard.restore host with
    | .error e => return ⟨.error e, true⟩
    | .ok () =>
      match verdict with
      | .error e => return ⟨.error e, true⟩
      | .ok (status, detail) =>
        return ⟨.ok ⟨mutation, status, host.now (← get) - start, mutant.diff, detail⟩, true⟩

/-- Evaluates a mutation of a target. One that no test reaches is not tried at all. -/
def evaluate (config : DeviceConfig) (policies : List Policy) (coverage : CoverageMap)
    (options : RunOptions) (target : MutationTarget) (mutation : Mutation) :
    StateM σ Evaluation := do
  if ← host.cancelled then return ⟨.error .cancelled, false⟩
  let start := host.now (← get)
  match coverage.coveringTests target.classFile.name mutation.line with
  | [] => return ⟨.ok ⟨mutation, .noCoverage, 0, "", none⟩, false⟩
  | tests =>
    match materialize target.classFile policies mutation.id with
    | .error (.invariantViolated what) => return ⟨.error (.invariantViolated what), false⟩
    | .error e =>
      return ⟨.ok ⟨mutation, .unviable, host.now (← get) - start, "", some e.message⟩, false⟩
    | .ok mutant =>
      evaluateMutant host config options tests target.artifact mutation mutant start

/-- The mutations of targets, each with its target, in order. -/
def MutationTarget.allMutations (targets : List MutationTarget) :
    List (MutationTarget × Mutation) :=
  targets.flatMap fun t => t.mutations.map (t, ·)

/-- Evaluates mutations one after the other, until one of them ends the run. The second component
says whether any mutant was in place. -/
def evaluateAll (config : DeviceConfig) (policies : List Policy) (coverage : CoverageMap)
    (options : RunOptions) :
    List (MutationTarget × Mutation) → StateM σ (Except Failure (List MutantResult) × Bool)
  | [] => pure (.ok [], false)
  | (target, mutation) :: rest => do
    let e ← evaluate host config policies coverage options target mutation
    match e.result with
    | .error failure => return (.error failure, e.installed)
    | .ok result =>
      let (results, installed) ← evaluateAll config policies coverage options rest
      return (results.map (result :: ·), e.installed || installed)

/-- Evaluates every mutation of every target and deploys the unchanged application again. -/
def runMutations (config : DeviceConfig) (policies : List Policy) (targets : List MutationTarget)
    (coverage : CoverageMap) (options : RunOptions) :
    StateM σ (Except Failure (List MutantResult)) := do
  let (results, installed) ←
    evaluateAll host config policies coverage options (MutationTarget.allMutations targets)
  if installed then
    let _ ← deploy host options false
  return results

end MutationTesting
