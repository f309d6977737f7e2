import MutationTesting.CommandLine.Report
import MutationTesting.CommandLine.Request
import MutationTesting.Run.Baseline
import MutationTesting.Run.Claim
import MutationTesting.Run.MutationRun
/-!
# Carrying out requests

A mutation run claims the directory of classes and first looks for what an earlier run may have
left there; if it finds something it puts that right and does no more. Then every test must pass on
the unchanged application before the first mutant is tried. The summary of the run is kept, and
the other requests look at it.

Exit codes: 0 if all is well, 1 if there are survivors, 2 if the request cannot be carried out, 3 if
a run could not be finished.

## Main definitions

* `saveSummary`, `loadSummary?`
* `execute`
-/

namespace MutationTesting.CommandLine

/-- The file of the summary of the latest run. -/
def summaryFile : Path := ".droidmut-state.json".toList

/-- The policies of the given names; the default ones if there are none. -/
def selectPolicies (names : List String) : Except Reply (List Policy) :=
  if names.isEmpty then .ok Policy.defaults
  else
    match Policy.named? names with
    | .ok policies => .ok policies
    | .error unknown =>
      .error (.complain 2 ("Unknown mutator '" ++ unknown ++ "'. Available: "
        ++ ", ".intercalate Policy.names))

variable {σ : Type} (host : Host σ)

/-- Keeps the summary of a run, if that is possible. -/
def saveSummary (s : RunSummary) : StateM σ Unit := do
  let _ ← host.write summaryFile (Utf8.encode s.toText)
  pure ()

/-- The summary of the latest run. -/
def loadSummary? (s : σ) : Option RunSummary :=
  (host.read s summaryFile).bind RunSummary.ofBytes?

/-- The reply to a request for a run that came to its end. -/
def runReply (r : RunRequest) (s : RunSummary) : Reply :=
  let code := if 0 < s.survived then 1 else 0
  if r.quiet then .silent code
  else .say code (if r.json then [s.toJson.compact] else runLines s)

/-- The reply to a request for a run in which there is nothing to mutate. -/
def nothingReply (r : RunRequest) : Reply :=
  if r.quiet then .silent 0
  else .say 0 (if r.json then [(RunSummary.ofResults []).toJson.compact]
    else [successLine "No mutation sites found."])

/-- Puts back the artifacts that an earlier run left changed; the complaints about those that could
not be put back. -/
def putBackAll : List (Path × Path) → StateM σ (List String)
  | [] => pure []
  | (artifact, backup) :: rest => do
    let complaint ← restoreFromBackup host artifact backup
    let complaints ← putBackAll rest
    match complaint with
    | .ok () => pure complaints
    | .error e =>
      pure (("✗ Failed to restore " ++ artifact.text ++ ": " ++ e.message) :: complaints)

/-- Tests the mutants after the baseline. -/
def finishRun (r : RunRequest) (policies : List Policy) (targets : List MutationTarget)
    (coverage : CoverageMap) : StateM σ Reply := do
  match ← runMutations host r.device policies targets coverage r.options with
  | .ok results =>
    let summary := RunSummary.ofResults results
    saveSummary host summary
    return runReply r summary
  | .error .cancelled => return .complain 3 "Run cancelled. Original classes restored."
  | .error e => return .complain 3 ("Mutation run aborted: " ++ e.message)

/-- Runs the tests on the unchanged application, and then the mutants. -/
def startRun (r : RunRequest) (policies : List Policy) (targets : List MutationTarget) :
    StateM σ Reply := do
  let s ← get
  match findTestUnits host s r.testClasses r.device.instrumentedTestPaths with
  | .error e => return .complain 3 ("Failed to read test classes: " ++ e.message)
  | .ok [] => return .complain 2 ("No instrumented tests found in " ++ r.testClasses.text ++ ".")
  | .ok tests =>
    match LocationIndex.build host s r.device.classesDir with
    | .error e => return .complain 3 ("Failed to index classes: " ++ e.message)
    | .ok index =>
      match (← runBaseline host r.device index r.options tests .empty).1 with
      | .failed cause =>
        return .complain 3
          ("Tests fail before mutation. Fix failing tests first.\n" ++ cause)
      | .cancelled => return .complain 3 "Run cancelled during the baseline."
      | .ok coverage => finishRun host r policies targets coverage

/-- A run in a directory that is claimed. -/
def runClaimed (r : RunRequest) (policies : List Policy) : StateM σ Reply := do
  let dir := r.device.classesDir
  match interruptedRuns host (← get) dir with
  | [] =>
    match findTargets host (← get) dir policies r.classFilter with
    | .error e => return .complain 3 ("Failed to read classes: " ++ e.message)
    | .ok [] => return nothingReply r
    | .ok targets => startRun host r policies targets
  | leftovers =>
    let complaints ← putBackAll host leftovers
    return ⟨3, [], complaints ++ ["✗ Recovered " ++ toString leftovers.length
      ++ " class file(s) from a previously interrupted run. Re-run to continue."]⟩

/-- Does something while a directory is claimed. -/
def underClaim (dir : Path) (session : String) (action : StateM σ Reply) : StateM σ Reply := do
  match ← claimDirectory host dir session with
  | .error e => return .complain 3 e.message
  | .ok claim =>
    let reply ← action
    host.release claim
    return reply

/-- A mutation run; `session` is its name if the request gives none. -/
def executeRun (session : String) (r : RunRequest) : StateM σ Reply := do
  match selectPolicies r.policies with
  | .error reply => return reply
  | .ok policies =>
    let dir := r.device.classesDir
    if !host.isDirectory (← get) dir then
      return .complain 2 ("Class directory not found: " ++ dir.text ++ ". Set "
        ++ DeviceConfig.classesKey ++ " or pass --classes.")
    if !host.isDirectory (← get) r.testClasses then
      return .complain 2 ("Test class directory not found: " ++ r.testClasses.text
        ++ ". Pass --test-classes <dir>.")
    underClaim host dir (r.session.getD session) (runClaimed host r policies)

/-- A list of the sites in a directory. -/
def executeList (s : σ) (dir : Path) (names : List String) (filter : Option String)
    (json : Bool) : Reply :=
  match selectPolicies names with
  | .error reply => reply
  | .ok policies =>
    if !host.isDirectory s dir then .complain 2 ("Class directory not found: " ++ dir.text)
    else
      match findTargets host s dir policies filter with
      | .error e => .complain 3 ("Failed to read classes: " ++ e.message)
      | .ok targets =>
        let sites := targets.flatMap (·.mutations)
        .say 0 (if json then [sitesText sites]
          else if sites.isEmpty then [successLine "No mutation sites found."]
          else siteLines sites)

/-- The reply where no run is known. -/
def unknownRun : Reply := .complain 2 "No previous run found. Run `droidmut run` first."

/-- A survivor of the latest run; signs in front of its reference do not count. -/
def executeSurvivor (s : σ) (asked : String) (json : Bool) : Reply :=
  let ref := String.ofList (asked.toList.dropWhile (· = '@'))
  match loadSummary? host s with
  | none => unknownRun
  | some summary =>
    match summary.survivors.find? (·.ref == ref) with
    | some m => .say 0 (if json then [m.toJson.compact] else survivorLines m)
    | none =>
      .complain 2 ("Mutant @" ++ ref ++ " not found. Valid refs: "
        ++ ", ".intercalate (summary.survivors.map ("@" ++ ·.ref)))

/-- The state of the latest run. -/
def executeStatus (s : σ) (json : Bool) : Reply :=
  match loadSummary? host s with
  | none => unknownRun
  | some summary => .say 0 (if json then [summary.toJson.compact] else statusLines summary)

/-- Carries out a request; `session` is the name of a run that is given none. -/
def execute (session : String) : Request → StateM σ Reply
  | .run r => executeRun host session r
  | .list dir names filter json => do return executeList host (← get) dir names filter json
  | .survivor ref json => do return executeSurvivor host (← get) ref json
  | .status json => do return executeStatus host (← get) json
  | .version => return .say 0 ["droidmut 0.1.0"]

end MutationTesting.CommandLine
