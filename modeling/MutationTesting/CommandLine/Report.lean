import MutationTesting.Decimal.Shortest
import MutationTesting.Json.Writer
import MutationTesting.Mutation.Record
import MutationTesting.Run.Summary
import MutationTesting.Text.Blank
/-!
# Reports

What is said to the user: the outcome of a run, its state when it is asked for later, a single
survivor, and lists of sites. A report is a list of lines.

## Main definitions

* `Reply` — exit code and output
* `runLines`, `statusLines`, `survivorLines`, `siteLines`
-/

namespace MutationTesting.CommandLine

open Decimal

/-- The answer to a request. -/
structure Reply where
  code : Nat
  /-- The lines of the output. -/
  output : List String
  /-- The lines of the error output. -/
  errors : List String
  deriving DecidableEq

namespace Reply

/-- Nothing is said. -/
def silent (code : Nat) : Reply := ⟨code, [], []⟩

/-- Lines are said. -/
def say (code : Nat) (lines : List String) : Reply := ⟨code, lines, []⟩

/-- A complaint. -/
def complain (code : Nat) (message : String) : Reply := ⟨code, [], ["✗ " ++ message]⟩

/-- A text with a line feed after each line. -/
def text (lines : List String) : String := String.join (lines.map (· ++ "\n"))

end Reply

/-- A piece of good news. -/
def successLine (message : String) : String := "✓ " ++ message

/-- A number with one decimal place. -/
def oneDecimal (x : Binary64) : String := String.ofList (x.fixed 1)

/-- The score of a run in percent. -/
def percentage (s : RunSummary) : String := oneDecimal (s.score.mul (.ofNat 100))

/-- The duration of a run in seconds. -/
def seconds (s : RunSummary) : String :=
  oneDecimal ((Binary.ofNat s.durationMs : Binary64).div (.ofNat 1000))

/-- The file and line of a survivor; line zero is none. -/
def Survivor.location (m : Survivor) : String :=
  if m.line = 0 then m.file else m.file ++ ":" ++ toString m.line.toNat

/-- A line about a number of mutants, if it is not zero. -/
def noteLine (n : Nat) (what : String) : List String :=
  if 0 < n then ["  · " ++ toString n ++ " " ++ what] else []

/-- The outcome of a run. -/
def runLines (s : RunSummary) : List String :=
  if s.survived = 0 then
    [successLine (toString s.testable ++ " mutants, all killed (" ++ percentage s ++ "%) in "
      ++ seconds s ++ "s")]
  else
    ["! " ++ toString s.survived ++ " survived / " ++ toString s.testable ++ " testable ("
      ++ percentage s ++ "% killed) in " ++ seconds s ++ "s"]
    ++ noteLine s.unviable "unviable mutants skipped"
    ++ noteLine s.timeout "mutants timed out"
    ++ noteLine s.noCoverage "mutants not reached by any test"
    ++ [""]
    ++ s.survivors.map fun m =>
      "  @" ++ m.ref ++ " " ++ Survivor.location m ++ " [" ++ m.policy ++ "] " ++ m.description

/-- The state of the latest run. -/
def statusLines (s : RunSummary) : List String :=
  ["Last run: " ++ toString s.testable ++ " mutants, " ++ toString s.killed ++ " killed, "
    ++ toString s.survived ++ " survived (" ++ percentage s ++ "% score)"]
  ++ if 0 < s.survived then
      [""]
      ++ s.survivors.map (fun m =>
        "  @" ++ m.ref ++ " " ++ Survivor.location m ++ " " ++ m.description)
      ++ ["", "Use `droidmut show @m1` for details on a specific mutant."]
    else []

/-- A line without the carriage return at its end. -/
def chomp (line : List Char) : List Char :=
  match line.getLast? with
  | some '\r' => line.dropLast
  | _ => line

/-- The lines of a text; what stands after the last line feed is a line unless it is empty. -/
def linesOf (text : List Char) : List (List Char) :=
  let pieces := splitAt '\n' text
  pieces.dropLast.map chomp ++ pieces.getLast?.toList.filter (!·.isEmpty)

/-- The lines of a diff that say what was taken away or added. -/
def changeLines (diff : String) : List String :=
  ((linesOf diff.toList).filter fun l => l.head? = some '-' || l.head? = some '+').map fun l =>
    "  " ++ String.ofList l

/-- A survivor with its diff. -/
def survivorLines (m : Survivor) : List String :=
  ["@" ++ m.ref ++ " " ++ Survivor.location m ++ " [" ++ m.policy ++ "]"
    ++ (if m.status = .noCoverage then " (no coverage)" else ""),
    "  " ++ m.className ++ "." ++ m.method,
    "  " ++ m.description,
    ""]
  ++ changeLines m.diff

/-- Sites, each on a line. -/
def siteLines (sites : List Mutation) : List String :=
  sites.map fun d =>
    "  " ++ d.sourceFile.getD d.id.className ++ ":" ++ toString d.line.toNat ++ " ["
      ++ d.id.policy ++ "] " ++ d.id.method ++ " " ++ d.id.description

/-- Sites for programs. -/
def sitesText (sites : List Mutation) : String :=
  (Json.list (sites.map Mutation.toJson)).compact

end MutationTesting.CommandLine
