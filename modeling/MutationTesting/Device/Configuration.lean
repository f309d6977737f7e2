import MutationTesting.Text.Blank
import MutationTesting.Failure
import MutationTesting.Host.Path
/-!
# Configuration of a device

Where the tests run and where the compiled classes lie. Settings come from the environment; an
empty one counts as missing.

## Main definitions

* `DeviceConfig`, `DeviceConfig.ofEnvironment?`
* `parseCommand?`, `splitPrefixes`
-/

namespace MutationTesting

/-- Values of environment variables. -/
abbrev Environment := List (String × String)

/-- Where tests run. -/
structure DeviceConfig where
  /-- The directory of the classes of the tested application. -/
  classesDir : Path
  /-- The package of the test application. -/
  testPackage : String
  /-- The package of the application under test. -/
  testedAppId : String
  /-- The class that runs the tests. -/
  runner : String
  /-- Beginnings of paths of test classes that name no runner. -/
  instrumentedTestPaths : List String
  /-- The command that reaches the device, possibly with arguments. -/
  bridge : String
  deriving DecidableEq

namespace DeviceConfig

/-- The variable of the directory of classes. -/
def classesKey : String := "DROIDMUT_CLASSFILES_PATH"

/-- The variable of the test package. -/
def packageKey : String := "DROIDMUT_PKGNAME"

/-- The variable of the tested application. -/
def testedAppKey : String := "DROIDMUT_TESTED_APP_ID"

/-- The variable of the runner. -/
def runnerKey : String := "DROIDMUT_INSTRUMENTATION_RUNNER"

/-- The variable of the beginnings of test paths. -/
def testPathsKey : String := "DROIDMUT_INSTRUMENTED_TESTS_PATH"

/-- The variable of the bridge command. -/
def bridgeKey : String := "DROIDMUT_ADB"

/-- The runner where none is set. -/
def defaultRunner : String := "android.support.test.runner.AndroidJUnitRunner"

/-- The bridge command where none is set. -/
def defaultBridge : String := "adb"

end DeviceConfig

/-- The parts of a list with commas, without blanks around them and without empty ones. -/
def splitPrefixes (value : String) : List String :=
  (((splitAt ',' value.toList).map trim).filter (!·.isEmpty)).map String.ofList

/-- Program and arguments of a command line, which is cut at blanks and knows no quotes. -/
def parseCommand? (command : String) : Option (String × List String) :=
  match (words command.toList).map String.ofList with
  | [] => none
  | program :: args => some (program, args)

namespace DeviceConfig

/-- The value of a variable that is set and not empty. -/
def value? (env : Environment) (key : String) : Option String :=
  (env.lookup key).filter (!·.isEmpty)

/-- The value of a variable that must have one. -/
def required (env : Environment) (key : String) : Except Failure String :=
  match value? env key with
  | some v => .ok v
  | none => .error (.missingConfig key)

/-- The configuration of an environment. -/
def ofEnvironment? (env : Environment) : Except Failure DeviceConfig := do
  let classesDir ← required env classesKey
  let testPackage ← required env packageKey
  let testedAppId ← required env testedAppKey
  .ok {
    classesDir := Octets.ofString classesDir
    testPackage, testedAppId
    runner := (value? env runnerKey).getD defaultRunner
    instrumentedTestPaths := ((value? env testPathsKey).map splitPrefixes).getD []
    bridge := (value? env bridgeKey).getD defaultBridge }

/-- Test package and runner as the device names them together. -/
def component (c : DeviceConfig) : String := c.testPackage ++ "/" ++ c.runner

/-- The program of the bridge and the arguments that it always gets. -/
def bridgeCommand (c : DeviceConfig) : String × List String :=
  (parseCommand? c.bridge).getD (defaultBridge, [])

end DeviceConfig

end MutationTesting
