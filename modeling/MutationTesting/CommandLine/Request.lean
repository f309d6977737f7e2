import MutationTesting.CommandLine.Arguments
import MutationTesting.Run.Deployment
/-!
# Requests

What can be asked of the program: a mutation run, a list of the sites, one survivor of the latest
run, or the state of the latest run.

## Main definitions

* `RunRequest`, `Request`, `Request.read`
-/

namespace MutationTesting.CommandLine

/-- A request for a mutation run. -/
structure RunRequest where
  device : DeviceConfig
  testClasses : Path
  /-- The names of the policies, none for the default ones. -/
  policies : List String
  classFilter : Option String
  options : RunOptions
  json : Bool
  quiet : Bool
  /-- The name of the session, if it was given one. -/
  session : Option String
  deriving DecidableEq

/-- A request. -/
inductive Request where
  | run (r : RunRequest)
  | list (classes : Path) (policies : List String) (classFilter : Option String) (json : Bool)
  | survivor (ref : String) (json : Bool)
  | status (json : Bool)
  | version
  deriving DecidableEq

/-! ### Options -/

/-- A number of at most 64 bits, possibly with a plus sign. -/
def count? (text : String) : Option Nat :=
  let digits := match text.toList with
    | '+' :: rest => rest
    | cs => cs
  if digits.isEmpty then none
  else (digits.mapM Decimal.digitValue?).bind fun ds =>
    let n := Decimal.ofDigits ds
    if n < Nat.pow 2 64 then some n else none

/-- The directory of the classes of the application. -/
def classesForm : OptionForm :=
  { name := "classes", arity := .single, variableName := some DeviceConfig.classesKey,
    accepts := (!·.isEmpty) }

/-- The package of the tests. -/
def packageForm : OptionForm :=
  { name := "pkg", arity := .single, variableName := some DeviceConfig.packageKey }

/-- The package of the application. -/
def testedAppForm : OptionForm :=
  { name := "tested-app", arity := .single, variableName := some DeviceConfig.testedAppKey }

/-- The class that runs the tests. -/
def runnerForm : OptionForm :=
  { name := "runner", arity := .single, variableName := some DeviceConfig.runnerKey,
    default := some DeviceConfig.defaultRunner }

/-- Where tests without a runner lie. -/
def testPathsForm : OptionForm :=
  { name := "instrumented-tests-path", arity := .list,
    variableName := some DeviceConfig.testPathsKey }

/-- The command that reaches the device. -/
def bridgeForm : OptionForm :=
  { name := "adb", arity := .single, variableName := some DeviceConfig.bridgeKey,
    default := some DeviceConfig.defaultBridge }

/-- The directory of the test classes. -/
def testClassesForm : OptionForm :=
  { name := "test-classes", arity := .single, accepts := (!·.isEmpty) }

/-- The policies to use. -/
def policiesForm : OptionForm := { name := "mutators", arity := .list }

/-- How the names of the classes of interest begin. -/
def filterForm : OptionForm := { name := "class", arity := .single }

/-- The command that builds and installs the application where none is given. -/
def defaultPackageCommand : String :=
  "./gradlew installDebug -x javaPreCompileDebug -x compileDebugJavaWithJavac"

/-- The command that builds and installs the application. -/
def packageCommandForm : OptionForm :=
  { name := "package-cmd", arity := .single, default := some defaultPackageCommand }

/-- Leaves the application as it is installed. -/
def noPackageForm : OptionForm := { name := "no-package", arity := .switch }

/-- The time of a test run. -/
def timeoutForm : OptionForm :=
  { name := "timeout-ms", arity := .single, default := some "120000"
    accepts := fun text => (count? text).isSome }

/-- Output for programs. -/
def jsonForm : OptionForm := { name := "json", arity := .switch }

/-- No output. -/
def quietForm : OptionForm := { name := "quiet", arity := .switch, letter := some 'q' }

/-- The name of the session. -/
def sessionForm : OptionForm := { name := "session", arity := .single }

/-! ### Reading -/

/-- The settings of the device. -/
def readDevice (a : Arguments) (env : Environment) : Except Refusal DeviceConfig := do
  .ok {
    classesDir := Octets.ofString (← a.required env classesForm)
    testPackage := ← a.required env packageForm
    testedAppId := ← a.required env testedAppForm
    runner := ← a.required env runnerForm
    instrumentedTestPaths := a.listed env testPathsForm
    bridge := ← a.required env bridgeForm }

/-- A run. -/
def readRun (words : List String) (env : Environment) : Except Refusal RunRequest := do
  let a ← Arguments.read [classesForm, packageForm, testedAppForm, runnerForm, testPathsForm,
    bridgeForm, testClassesForm, policiesForm, filterForm, packageCommandForm, noPackageForm,
    timeoutForm, jsonForm, quietForm, sessionForm] 0 words .empty
  let device ← readDevice a env
  let testClasses ← a.required env testClassesForm
  let classFilter ← a.optional env filterForm
  let packageCommand ← a.required env packageCommandForm
  let session ← a.optional env sessionForm
  match count? (← a.required env timeoutForm) with
  | none => .error .usage
  | some timeoutMs =>
    .ok {
      device, classFilter, session
      testClasses := Octets.ofString testClasses
      policies := a.listed env policiesForm
      options := ⟨if a.has noPackageForm.name then none else some packageCommand, timeoutMs⟩
      json := a.has jsonForm.name
      quiet := a.has quietForm.name }

/-- A list of sites. -/
def readList (words : List String) (env : Environment) : Except Refusal Request := do
  let a ← Arguments.read [classesForm, policiesForm, filterForm, jsonForm] 0 words .empty
  let classes ← a.required env classesForm
  let filter ← a.optional env filterForm
  .ok (.list (Octets.ofString classes) (a.listed env policiesForm) filter
    (a.has jsonForm.name))

/-- A survivor, by its reference. -/
def readSurvivor (words : List String) : Except Refusal Request := do
  let a ← Arguments.read [jsonForm] 1 words .empty
  match a.operands with
  | [ref] => .ok (.survivor ref (a.has jsonForm.name))
  | _ => .error .usage

/-- The state of the latest run. -/
def readStatus (words : List String) : Except Refusal Request := do
  let a ← Arguments.read [jsonForm] 0 words .empty
  .ok (.status (a.has jsonForm.name))

/-- The words that name a kind of request, and the one that asks for an explanation of them. -/
def commandNames : List String := ["run", "list", "show", "status", "help"]

/-- What comes of a call for help by name: an explanation of the whole or of one command. -/
def readHelp : List String → Refusal
  | [] => .help
  | [name] => if commandNames.contains name then .help else .usage
  | _ => .usage

/-- The request that the words of a command line make, in an environment. Before the kind of
request there is only the version or help to be asked for, and by a letter this is done whatever
stands behind the letter. -/
def Request.read (env : Environment) : List String → Except Refusal Request
  | [] => .error .usage
  | word :: words =>
    match word with
    | "run" => (readRun words env).map .run
    | "list" => readList words env
    | "show" => readSurvivor words
    | "status" => readStatus words
    | "help" => .error (readHelp words)
    | "--version" => .ok .version
    | "--help" => .error .help
    | _ =>
      match WordForm.of word with
      | .letters ('V' :: _) => .ok .version
      | .letters ('h' :: _) => .error .help
      | _ => .error .usage

end MutationTesting.CommandLine
