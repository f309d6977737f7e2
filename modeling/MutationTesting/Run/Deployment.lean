import MutationTesting.Device.Configuration
import MutationTesting.Host.Basic
/-!
# Deployment

The application is built and installed anew by a command of the user. What the build says is of no
interest, and a build that fails leaves the application as it is on the device; the tests will tell.
Only a command that cannot be started, and a run that is asked to stop, are failures.

## Main definitions

* `RunOptions`, `deploy`
-/

namespace MutationTesting

/-- How a run is carried out. -/
structure RunOptions where
  /-- The command that builds and installs the application, if there is one. -/
  packageCommand : Option String
  /-- The time of a single test run. -/
  timeoutMs : Nat
  deriving DecidableEq

/-- A build is slow; it gets the time of this many test runs. -/
def deploymentFactor : Nat := 10

/-- Builds and installs the application. If `heed` is set, that is given up as soon as the run is
asked to stop. -/
def deploy {σ : Type} (host : Host σ) (options : RunOptions) (heed : Bool) :
    StateM σ (Except Failure Unit) :=
  match options.packageCommand.bind parseCommand? with
  | none => pure (.ok ())
  | some (program, args) => do
    let command : Command := ⟨program, args⟩
    match ← host.run command (options.timeoutMs * deploymentFactor) heed with
    | none => pure (.error (.spawn command.label))
    | some output => pure (if output.cancelled then .error .cancelled else .ok ())

end MutationTesting
