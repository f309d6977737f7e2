import MutationTesting.Mutation.Mutant
import MutationTesting.Json.Members
/-!
# Run summaries

The outcome of a mutation run: counts, a score, and the mutants that survived, each with a
reference by which it can be asked for. The summary of the latest run is kept in a file.

## Main definitions

* `MutantStatus`, `MutantResult`
* `RunSummary`, `RunSummary.ofResults`
* `RunSummary.toText`, `RunSummary.ofText?` — the file
-/

namespace MutationTesting

open Json Decimal

/-- What became of a mutant. -/
inductive MutantStatus where
  | killed
  | survived
  | timeout
  /-- There was no mutant to test. -/
  | unviable
  /-- No test reaches the place. -/
  | noCoverage
  deriving DecidableEq

namespace MutantStatus

/-- The name of a status. -/
def name : MutantStatus → String
  | .killed => "Killed"
  | .survived => "Survived"
  | .timeout => "Timeout"
  | .unviable => "Unviable"
  | .noCoverage => "NoCoverage"

/-- Every status. -/
def all : List MutantStatus := [.killed, .survived, .timeout, .unviable, .noCoverage]

/-- The status of the given name. -/
def ofName? (s : String) : Option MutantStatus := all.find? (·.name == s)

@[simp] theorem ofName?_name (s : MutantStatus) : ofName? s.name = some s := by
  cases s <;> rfl

end MutantStatus

/-- A mutant and what became of it. -/
structure MutantResult where
  mutation : Mutation
  status : MutantStatus
  durationMs : Nat
  diff : String
  /-- The test that decided, or why there was no mutant. -/
  detail : Option String
  deriving DecidableEq

/-- A mutant that no test noticed. -/
structure Survivor where
  /-- The reference by which it is asked for. -/
  ref : String
  /-- The class name with dots. -/
  className : String
  /-- The source file, or the class where none is known. -/
  file : String
  line : UInt32
  method : String
  policy : String
  description : String
  status : MutantStatus
  diff : String
  deriving DecidableEq

/-- The outcome of a run. -/
structure RunSummary where
  score : Binary64
  total : Nat
  killed : Nat
  survived : Nat
  timeout : Nat
  unviable : Nat
  noCoverage : Nat
  durationMs : Nat
  survivors : List Survivor
  deriving DecidableEq

/-- A mutant that no test noticed, under its reference. -/
def Survivor.ofResult (number : Nat) (r : MutantResult) : Survivor where
  ref := "m" ++ toString number
  className := ClassFile.dotted r.mutation.id.className
  file := r.mutation.sourceFile.getD r.mutation.id.className
  line := r.mutation.line
  method := r.mutation.id.method
  policy := r.mutation.id.policy
  description := r.mutation.id.description
  status := r.status
  diff := r.diff

namespace RunSummary

/-- How many results have the status. -/
def count (results : List MutantResult) (status : MutantStatus) : Nat :=
  (results.filter (·.status = status)).length

/-- The mutant was tested in vain, or not at all because no test reaches it. -/
def isSurvivor (r : MutantResult) : Bool := r.status = .survived || r.status = .noCoverage

/-- Results numbered from a number on. -/
def numbered : Nat → List MutantResult → List Survivor
  | _, [] => []
  | n, r :: rest => .ofResult n r :: numbered (n + 1) rest

/-- The mutants that no test noticed, numbered from one. -/
def survivorsOf (results : List MutantResult) : List Survivor :=
  numbered 1 (results.filter isSurvivor)

/-- The part of the mutants that was killed, among those that could be tested. -/
def scoreOf (killed testable : Nat) : Binary64 :=
  if 0 < testable then (Binary.ofNat killed).div (Binary.ofNat testable) else .ofNat 1

/-- The summary of a run. -/
def ofResults (results : List MutantResult) : RunSummary :=
  let killed := count results .killed
  let unviable := count results .unviable
  { score := scoreOf killed (results.length - unviable)
    total := results.length
    killed
    survived := (survivorsOf results).length
    timeout := count results .timeout
    unviable
    noCoverage := count results .noCoverage
    durationMs := (results.map (·.durationMs)).foldl (· + ·) 0
    survivors := survivorsOf results }

/-- The mutants that could be tested. The number wraps around in 64 bits if a file claims more
mutants without a test than mutants. -/
def testable (s : RunSummary) : Nat := (s.total + Nat.pow 2 64 - s.unviable) % Nat.pow 2 64

end RunSummary

/-! ### The file -/

/-- A survivor. -/
def Survivor.toJson (s : Survivor) : Json String :=
  .object [("ref_id", .string s.ref), ("class", .string s.className), ("file", .string s.file),
    ("line", .ofNat s.line.toNat), ("method", .string s.method), ("policy", .string s.policy),
    ("description", .string s.description), ("status", .string s.status.name),
    ("diff", .string s.diff)]

/-- A survivor. -/
def Survivor.ofJson? (j : Raw) : Option Survivor := do
  let m ← j.members? ["ref_id", "class", "file", "line", "method", "policy", "description",
    "status", "diff"]
  some {
    ref := ← m.required "ref_id" text?
    className := ← m.required "class" text?
    file := ← m.required "file" text?
    line := ← m.required "line" uint32?
    method := ← m.required "method" text?
    policy := ← m.required "policy" text?
    description := ← m.required "description" text?
    status := ← m.required "status" fun j => (choice? false j).bind MutantStatus.ofName?
    diff := ← m.required "diff" text? }

namespace RunSummary

/-- A summary. -/
def toJson (s : RunSummary) : Json String :=
  .object [("score", .ofBinary64 s.score), ("total", .ofNat s.total), ("killed", .ofNat s.killed),
    ("survived", .ofNat s.survived), ("timeout", .ofNat s.timeout),
    ("unviable", .ofNat s.unviable), ("no_coverage", .ofNat s.noCoverage),
    ("duration_ms", .ofNat s.durationMs),
    ("survived_mutants", .list (s.survivors.map Survivor.toJson))]

/-- A count of 64 bits. -/
def count? (j : Raw) : Option Nat := uint? (Nat.pow 2 64) j

/-- A summary; a file that says nothing of mutants without coverage has none. -/
def ofJson? (j : Raw) : Option RunSummary := do
  let m ← j.members? ["score", "total", "killed", "survived", "timeout", "unviable",
    "no_coverage", "duration_ms", "survived_mutants"]
  some {
    score := ← m.required "score" binary64?
    total := ← m.required "total" count?
    killed := ← m.required "killed" count?
    survived := ← m.required "survived" count?
    timeout := ← m.required "timeout" count?
    unviable := ← m.required "unviable" count?
    noCoverage := ← m.defaulted "no_coverage" 0 count?
    durationMs := ← m.required "duration_ms" count?
    survivors := ← m.required "survived_mutants" (list? Survivor.ofJson?) }

/-- The text of the file of a summary. -/
def toText (s : RunSummary) : String := s.toJson.compact

/-- The summary in the text of a file. -/
def ofText? (text : String) : Option RunSummary := (Json.ofText? text).bind ofJson?

/-- The summary in a file, which must be text. -/
def ofBytes? (bytes : Bytes) : Option RunSummary := (Utf8.text? bytes).bind ofText?

end RunSummary

end MutationTesting
