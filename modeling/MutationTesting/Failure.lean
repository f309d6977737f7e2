import MutationTesting.Coverage.ExecutionData
import MutationTesting.Host.Path
import MutationTesting.Mutation.Pass
/-!
# Failures

Why an operation of the library did not succeed, and how that is said. What the operating system
or the JSON reader has to say about it is not repeated.

## Main definitions

* `Failure`, `Failure.message`
-/

namespace MutationTesting

/-- Why an operation failed. -/
inductive Failure where
  /-- A setting has no value. -/
  | missingConfig (key : String)
  /-- A file or directory could not be read or written. -/
  | io (path : Path)
  /-- A file is no class artifact. -/
  | codec (path : Path)
  | coverage (error : CoverageError)
  | mutationNotFound (id : MutationId)
  | invariantViolated (what : String)
  /-- A program could not be run. -/
  | spawn (program : String)
  /-- Another session holds the directory. -/
  | locked (dir : Path)
  | cancelled
  deriving DecidableEq

/-- What went wrong, in words. -/
def Failure.message : Failure → String
  | .missingConfig key => "missing configuration: " ++ key ++ " is not set"
  | .io path => "I/O error on " ++ path.text
  | .codec path => "could not decode class artifact " ++ path.text
  | .coverage e => "coverage data rejected: " ++ e.message
  | .mutationNotFound id => "mutation " ++ id.text ++ " was not found in class"
  | .invariantViolated what => "engine invariant violated: " ++ what
  | .spawn program => "failed to run " ++ program
  | .locked dir => "artifact directory " ++ dir.text ++ " is in use by another session"
  | .cancelled => "run cancelled"

end MutationTesting
