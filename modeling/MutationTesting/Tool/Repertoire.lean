import MutationTesting.Shell.Program
import MutationTesting.Tool.Basic
import MutationTesting.Tool.Batch
import MutationTesting.Tool.Byte
import MutationTesting.Tool.Column
import MutationTesting.Tool.Compare
import MutationTesting.Tool.Copy
import MutationTesting.Tool.Date
import MutationTesting.Tool.Describe
import MutationTesting.Tool.Difference
import MutationTesting.Tool.Edit
import MutationTesting.Tool.Environment
import MutationTesting.Tool.Field
import MutationTesting.Tool.Install
import MutationTesting.Tool.Listing
import MutationTesting.Tool.Lock
import MutationTesting.Tool.Merge
import MutationTesting.Tool.Number
import MutationTesting.Tool.Repetition
import MutationTesting.Tool.Search
import MutationTesting.Tool.Sort
import MutationTesting.Tool.Surroundings
import MutationTesting.Tool.Timing
import MutationTesting.Tool.Value
/-!
# The programs of a machine

All programs that a machine has, by their names. Some of them start others, the shell above all, so
that a program is given the table of those that it can start. The table of a machine is a tower of
such tables, high enough for every chain of programs that start one another.

A program closes its output at its end. If something that it wrote was lost before, it says so then,
and its code tells. Some programs also close their input, and say so if it was closed already when
they read it. Each program has its own words and codes for this; most of them have the same.

## Main definitions

* `lossText`, `lossCode` — what is said about lost output
* `inputText?` — what is said about an input that was closed
* `closing` — a program that closes its streams
* `plainPrograms`, `startingPrograms`
* `programs` — the table of a machine
-/

namespace MutationTesting.Tool

open Act

/-! ### Closing streams -/

/-- What a program says about its output when something was lost, after its name. -/
def lossText (program : String) (e : FileError) : String :=
  match program, e with
  | "sort", e => "fflush failed: 'standard output': " ++ e.message ++ "\nsort: write error"
  | "sed", .badDescriptor => "couldn't close stdout: " ++ e.message
  | "sed", e => "couldn't flush stdout: " ++ e.message
  | "cat", .badDescriptor => "standard output: " ++ e.message
  | "cmp", e | "diff", e | "yes", e => "standard output: " ++ e.message
  | "tee", e => "'standard output': " ++ e.message
  | "find", .badDescriptor =>
    "'standard output': " ++ e.message ++ "\nfind: write error: " ++ e.message
  | "find", e => "'standard output': " ++ e.message ++ "\nfind: write error"
  | "wc", .noSpace => "write error"
  | _, e => "write error: " ++ e.message

/-- The code of a program whose output was lost. -/
def lossCode (program : String) : Nat :=
  ([("expr", 3), ("ls", 2), ("dir", 2), ("grep", 2), ("egrep", 2), ("fgrep", 2), ("sort", 2),
    ("sed", 4), ("cmp", 2), ("diff", 2), ("env", 125), ("nice", 125), ("printenv", 2),
    ("tty", 3)].lookup program).getD 1

/-- The program does not care whether its output is lost for the reason. -/
def isCareless (program : String) (e : FileError) : Bool :=
  program = "hostname" || program = "kill"
    || ((program = "rev" || program = "cmp") && e = .badDescriptor)

/-- How a program names its input when it cannot close it. -/
def inputText? (program : String) : Option String :=
  if ["head", "tail", "tac", "wc", "cut", "paste", "nl", "fold", "expand",
      "unexpand"].contains program then some "-"
  else if program = "tee" || program = "od" then some "standard input"
  else if program = "cat" then some "closing standard input"
  else if program = "dd" then some "closing input file 'standard input'"
  else if program = "xargs" then some "error closing file"
  else none

/-- A program that closes its input and its output at its end. -/
def closing (key : String) (program : Program) : Program := fun name args => do
  let code ← program name args
  let lost : Option FileError ← match key, ← fault? 1 with
    | "sed", none => do pure (if ← isOpen 1 then none else some .badDescriptor)
    | _, e => pure e
  let code ← match lost with
    | none => pure code
    | some e =>
      if isCareless key e then pure code
      else do
        let _ ← complain 1 (name ++ octets (": " ++ lossText key e))
        pure (lossCode key)
  match inputText? key, ← fault? 0 with
  | some text, some .badDescriptor =>
    complain 1 (name ++ octets (": " ++ text ++ ": " ++ FileError.badDescriptor.message))
  | some text, some .isDirectory =>
    if key = "xargs" then complain 1 (name ++ octets (": " ++ text)) else return code
  | _, _ => return code

/-! ### All programs -/

/-- A program that does nothing but end with a code. -/
def ending (code : Nat) : Program := fun _ _ => return code

/-- The programs that start no others, without what they say at their end. -/
def plainPrograms : List (String × Program) := [
  ("true", ending 0), ("false", ending 1), ("sync", ending 0),
  ("echo", fun _ args => sayAll (plainEchoText args)), ("printf", printfProgram),
  ("test", testProgram), ("[", testProgram), ("expr", expr),
  ("cat", cat), ("tee", tee), ("head", head), ("tail", tail), ("tac", tac), ("rev", rev),
  ("wc", wc), ("seq", seq), ("yes", yes), ("cut", cut), ("paste", paste), ("nl", nl),
  ("fold", fold), ("expand", expand), ("unexpand", unexpand),
  ("comm", comm), ("join", join), ("sort", sort),
  ("uniq", uniq), ("tr", tr), ("od", od), ("base64", base64), ("sed", sed),
  ("grep", grep), ("egrep", egrep), ("fgrep", fgrep), ("cmp", cmp), ("diff", diff), ("dd", dd),
  ("chmod", chmod), ("chown", chown), ("chgrp", chown), ("touch", touch), ("mkdir", mkdir),
  ("mkfifo", mkfifo), ("truncate", truncate), ("mktemp", mktemp), ("rmdir", rmdir), ("rm", rm),
  ("unlink", unlink), ("mv", mv), ("cp", cp), ("install", install),
  ("link", link), ("ln", ln),
  ("ls", ls), ("dir", ls), ("stat", stat),
  ("readlink", readlink), ("realpath", realpath), ("basename", basename), ("dirname", dirname),
  ("printenv", printenv), ("sleep", sleep), ("date", date), ("kill", kill), ("which", which),
  ("id", identity), ("uname", uname), ("pwd", pwd), ("tty", tty), ("whoami", saying "root"),
  ("hostname", saying "localhost"), ("nproc", saying "4"), ("arch", saying "x86_64")]

/-- The programs that start others from a table. -/
def startingPrograms (table : ProgramTable) : List (String × Program) := [
  ("sh", Shell.shellProgram table false), ("dash", Shell.shellProgram table false),
  ("bash", Shell.shellProgram table true),
  ("env", closing "env" (env table)), ("xargs", closing "xargs" (xargs table)),
  ("timeout", timeout table), ("nohup", nohup table), ("nice", closing "nice" (nice table)),
  ("setsid", setsid table), ("flock", flock table), ("find", closing "find" (find table))]

/-- The names of all programs. -/
def programNames : List String :=
  plainPrograms.map (·.1)
    ++ (startingPrograms fun _ => none).map (·.1)

/-- The tables in which chains of at most so many programs can be found. -/
def programsTo : Nat → ProgramTable
  | 0 => fun _ => none
  | n + 1 => fun name =>
    let name := String.ofList name
    ((plainPrograms.lookup name).map (closing name)).orElse fun _ =>
      (startingPrograms (programsTo n)).lookup name

/-- So many programs may start one another. -/
def chainLimit : Nat := 1000000

/-- The programs of a machine. -/
def programs : ProgramTable := programsTo chainLimit

end MutationTesting.Tool
