import MutationTesting.Host.Path
import MutationTesting.Text.Utf8
/-!
# Hosts

The machine on which a run works, as far as the run can notice it: files, claims on directories,
processes, a clock and a flag that asks to stop. A host is a record of primitive steps over a state
of any type; everything above is written against the record, so that the same run can be followed
on a machine in which writes fail, processes answer at will or everything stops half-way.

Reading does not change the state. A step that fails says so in its result.

## Main definitions

* `ProcessOutput`, `Command`
* `ClaimResult`, `Host`
-/

namespace MutationTesting

/-- How a process came to its end. -/
inductive ProcessEnd where
  | exited (code : Nat)
  /-- Ended by a signal of its own making. -/
  | signalled
  /-- Killed from outside. -/
  | killed
  deriving DecidableEq

/-- What is known of a process after its end. -/
structure ProcessOutput where
  ending : ProcessEnd
  /-- It was killed because the run was cancelled. -/
  cancelled : Bool
  stdout : Bytes
  stderr : Bytes
  durationMs : Nat
  deriving DecidableEq

namespace ProcessOutput

/-- It was killed because its time was up. -/
def timedOut (o : ProcessOutput) : Bool := o.ending = .killed && !o.cancelled

/-- It ended well. -/
def success (o : ProcessOutput) : Bool := o.ending = .exited 0

/-- The exit code, if it exited. -/
def code? (o : ProcessOutput) : Option Nat :=
  match o.ending with
  | .exited code => some code
  | _ => none

/-- Standard output and then error output, as text. -/
def merged (o : ProcessOutput) : String := Utf8.lossy o.stdout ++ Utf8.lossy o.stderr

end ProcessOutput

/-- A program with its arguments. -/
structure Command where
  program : String
  args : List String
  deriving DecidableEq

namespace Command

/-- A text holds no zero, which ends the texts that programs are given. -/
def isPlainText (text : String) : Bool := !text.toList.contains '\x00'

/-- A program can be given these words. -/
def isPlain (c : Command) : Bool := isPlainText c.program && c.args.all isPlainText

/-- The program as messages name it. -/
def label (c : Command) : String :=
  if isPlainText c.program then c.program else "<string-with-nul>"

end Command

/-- The answer to a claim on a directory. -/
inductive ClaimResult where
  /-- The claim holds, under a number by which it is released. -/
  | granted (claim : Nat)
  /-- Someone else holds one. -/
  | busy
  /-- The file of the claim cannot be written. -/
  | unavailable
  deriving DecidableEq

/-- A machine, by its primitive steps. -/
structure Host (σ : Type) where
  /-- The content of a file. -/
  read : σ → Path → Option Bytes
  /-- There is a directory of the name. -/
  isDirectory : σ → Path → Bool
  /-- The paths of all files below a directory, none if it cannot be read. Links are no files. -/
  filesBelow : σ → Path → Option (List Path)
  /-- The paths of everything but directories below a directory. Links to directories are
  followed. -/
  leavesBelow : σ → Path → List Path
  /-- Milliseconds since some moment in the past. -/
  now : σ → Nat
  /-- Writes a file in place. -/
  write : Path → Bytes → StateM σ Bool
  /-- Puts a new file in the place of the one with the name, in one step. If that fails, the path
  that is to blame. -/
  replace : Path → Bytes → StateM σ (Option Path)
  /-- Copies the content of the first file into the second. -/
  copy : Path → Path → StateM σ Bool
  /-- Removes a file. -/
  remove : Path → StateM σ Bool
  /-- Claims the file of the first name, and writes a text into it. -/
  claim : Path → String → StateM σ ClaimResult
  /-- Gives up a claim; its file stays, empty. -/
  release : Nat → StateM σ Unit
  /-- Whether the run is asked to stop. -/
  cancelled : StateM σ Bool
  /-- Runs a command to its end, for at most the given milliseconds, and only until the run is
  asked to stop if the last argument says so. None if the command cannot be started. -/
  run : Command → Nat → Bool → StateM σ (Option ProcessOutput)

end MutationTesting
