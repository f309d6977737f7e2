import MutationTesting.Device.Configuration
import MutationTesting.Device.Transcript
import MutationTesting.Discovery
import MutationTesting.Host.Basic
/-!
# Test runs on a device

One test at a time is run through the bridge, and the coverage file that it leaves on the device is
fetched. Whatever goes wrong becomes an outcome of the test.

## Main definitions

* `TestOutcome`, `TestRun`
* `instrumentCommand`, `fetchCommand`
* `fetchCoverage`, `runInstrumented`
-/

namespace MutationTesting

/-- How a test ended. -/
inductive TestOutcome where
  | passed
  | failed (cause : String)
  /-- It could not be run, or its result could not be read. -/
  | notExecuted (cause : String)
  | timedOut
  /-- The run was cancelled meanwhile. -/
  | cancelled
  deriving DecidableEq

/-- A test that was run. -/
structure TestRun where
  outcome : TestOutcome
  /-- The coverage file, if there was one and it could be fetched. -/
  coverage : Option Bytes
  deriving DecidableEq

/-- The command that runs a test. -/
def instrumentCommand (config : DeviceConfig) (test : TestUnit) : Command :=
  let (program, args) := config.bridgeCommand
  ⟨program, args ++ ["shell", "am", "instrument", "-w", "-r", "-e", "coverage", "true", "-e",
    "class", test.selector, config.component]⟩

/-- The command that writes a file of the application to its output. -/
def fetchCommand (config : DeviceConfig) (path : String) : Command :=
  let (program, args) := config.bridgeCommand
  ⟨program, args ++ ["shell", "run-as", config.testedAppId, "cat", path]⟩

/-- The outcome that a report means. -/
def TestOutcome.ofReport (r : TestReport) : TestOutcome :=
  if !r.executed then .notExecuted (r.failureCause.getD "")
  else if r.passed then .passed
  else .failed (r.failureCause.getD "test failed")

variable {σ : Type} (host : Host σ)

/-- The content of a file of the application under test. -/
def fetchCoverage (config : DeviceConfig) (path : String) (timeoutMs : Nat) :
    StateM σ (Except Failure Bytes) := do
  let command := fetchCommand config path
  match ← host.run command timeoutMs true with
  | none => pure (.error (.spawn command.label))
  | some output =>
    if output.cancelled then pure (.error .cancelled)
    else if output.timedOut then pure (.error (.spawn config.bridge))
    else pure (.ok output.stdout)

/-- The coverage file that a report speaks of. -/
def retrieveCoverage (config : DeviceConfig) (r : TestReport) (timeoutMs : Nat) :
    StateM σ (Option Bytes) :=
  if r.executed then
    match r.coveragePath with
    | none => pure none
    | some path => do
      match ← fetchCoverage host config path timeoutMs with
      | .ok bytes => pure (some bytes)
      | .error _ => pure none
  else pure none

/-- Runs a test with coverage switched on. -/
def runInstrumented (config : DeviceConfig) (test : TestUnit) (timeoutMs : Nat) :
    StateM σ TestRun := do
  let command := instrumentCommand config test
  match ← host.run command timeoutMs true with
  | none => pure ⟨.notExecuted (Failure.spawn command.label).message, none⟩
  | some output =>
    if output.cancelled then pure ⟨.cancelled, none⟩
    else if output.timedOut then pure ⟨.timedOut, none⟩
    else
      let r := TestReport.ofTranscript output.merged
      let coverage ← retrieveCoverage host config r timeoutMs
      pure ⟨.ofReport r, coverage⟩

end MutationTesting
