import MutationTesting.Coverage.Store
import MutationTesting.Discovery
/-!
# Which tests reach what

The lines that each test reached when it ran on the unchanged application.

## Main definitions

* `CoverageMap`, `CoverageMap.coveringTests`
-/

namespace MutationTesting

/-- A test with the lines it reached, none if that is not known. -/
abbrev TestCoverage := TestUnit × Option LineCoverage

/-- What is known of the tests, in the order in which they ran. -/
abbrev CoverageMap := List TestCoverage

/-- The test reaches the line of the class, for all that is known. A test of which nothing is
known may reach everything, and line zero stands for any line. -/
def TestCoverage.reaches (className : String) (line : UInt32) (t : TestCoverage) : Bool :=
  match t.2 with
  | none => true
  | some coverage =>
    match coverage.lookup className with
    | none => false
    | some lines => line == 0 || lines.contains line

/-- The tests that reach the line of the class, in order. -/
def CoverageMap.coveringTests (tests : CoverageMap) (className : String) (line : UInt32) :
    List TestUnit :=
  (tests.filter (TestCoverage.reaches className line)).map (·.1)

end MutationTesting
