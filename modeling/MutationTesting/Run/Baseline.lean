import MutationTesting.Coverage.Ingest
import MutationTesting.Device.TestRun
import MutationTesting.Run.CoverageMap
import MutationTesting.Run.Deployment
/-!
# The baseline

Every test is run once on the unchanged application. All of them have to pass; what each of them
reaches is kept. A test whose coverage cannot be had is taken to reach everything.

## Main definitions

* `BaselineResult`, `runBaseline`
-/

namespace MutationTesting

/-- The outcome of a baseline. -/
inductive BaselineResult where
  | ok (coverage : CoverageMap)
  /-- A test does not pass. -/
  | failed (cause : String)
  | cancelled
  deriving DecidableEq

/-- Why a test that ended this way spoils the baseline, if it does. -/
def TestOutcome.complaint? (test : TestUnit) : TestOutcome → Option BaselineResult
  | .passed => none
  | .failed cause | .notExecuted cause => some (.failed (test.selector ++ ": " ++ cause))
  | .timedOut => some (.failed (test.selector ++ ": timed out"))
  | .cancelled => some .cancelled

/-- The lines in a coverage file, and the store afterwards. Hits that were in the store before do
not count. -/
def coveredLines (load : String → Option (List UInt32)) (store : CoverageStore)
    (coverage : Option Bytes) : Option LineCoverage × CoverageStore :=
  let (_, store) := store.snapshot
  match coverage with
  | none => (none, store)
  | some bytes =>
    match ingest load bytes store with
    | (.error _, store) => (none, store)
    | (.ok _, store) =>
      let (lines, store) := store.snapshot
      (some lines, store)

variable {σ : Type} (host : Host σ)

/-- Runs every test once; the outcome, and the store afterwards. -/
def runBaseline (config : DeviceConfig) (index : LocationIndex) (options : RunOptions) :
    List TestUnit → CoverageStore → StateM σ (BaselineResult × CoverageStore)
  | [], store => pure (.ok [], store)
  | test :: tests, store => do
    if ← host.cancelled then return (.cancelled, store)
    let run ← runInstrumented host config test options.timeoutMs
    match run.outcome.complaint? test with
    | some result => return (result, store)
    | none =>
      if ← host.cancelled then return (.cancelled, store)
      let s ← get
      let (lines, store) := coveredLines (index.linesOf? host s) store run.coverage
      match ← runBaseline config index options tests store with
      | (.ok coverage, store) => return (.ok ((test, lines) :: coverage), store)
      | result => return result

end MutationTesting
