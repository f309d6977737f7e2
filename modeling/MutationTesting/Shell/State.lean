import MutationTesting.Machine.Call
import MutationTesting.Shell.Syntax
/-!
# The state of a shell

What a process knows that carries out a script: its parameters, the commands that the script
defines, what is to be done on signals, and what came of the latest command. Where a script leaves
the order of its commands, this is a jump.

## Main definitions

* `Variable`, `State`, `Jump`, `Sh`
* `State.value?`, `assign`, `setStatus`, `complain`, `giveUp`
-/

namespace MutationTesting.Shell

/-- A parameter with a name. -/
structure Variable where
  /-- Its value, if it has one. -/
  value : Option Octets
  /-- Programs get to know it. -/
  exported : Bool
  /-- Its value does not change. -/
  fixed : Bool

/-- A program that was found by its name. -/
structure Tracked where
  name : Octets
  /-- The place of its directory in the search path. -/
  place : Nat
  /-- The shell has changed its directory since. -/
  isStale : Bool

/-- Processes that a shell started and for whose end it did not wait at once. -/
structure Job where
  /-- The number by which a script can name it. -/
  number : Nat
  /-- Its processes, in the order of a pipe. -/
  pids : List Nat
  /-- The exit of the last of its processes, if all of them have come to their ends. -/
  exit : Option Exit
  /-- Someone has waited for its end. -/
  awaited : Bool

/-- What a shell knows. -/
structure State where
  /-- The name under which the script runs. -/
  name : Octets
  arguments : List Octets
  /-- The parameters that have names. -/
  bindings : List (Octets × Variable)
  functions : List (Octets × ShellCommand)
  /-- Texts that take the places of words with which commands begin. -/
  aliases : List (Octets × Octets)
  /-- The documents of the scripts that were read. -/
  documents : List (Nat × Word)
  nextDocument : Nat
  /-- The exit code of the latest command. -/
  status : Nat
  /-- The exit code of the latest script whose output was put into a word of the command that is
  carried out. -/
  inner : Nat
  /-- The line of the command that is carried out. -/
  line : Nat
  /-- The letters of the options that are set. -/
  options : List Char
  /-- The programs that were found by their names, which is remembered as long as the search path
  stays the same. -/
  tracked : List Tracked
  /-- The scripts that are carried out on signals; zero is the end of the shell. -/
  traps : List (Nat × Octets)
  /-- The jobs, the latest first. -/
  jobs : List Job
  /-- The last process of the latest job. -/
  lastJob : Option Nat
  /-- For each function that is being carried out the parameters that it took over. -/
  taken : List (List (Octets × Option Variable))
  /-- How many loops are being carried out. -/
  loops : Nat
  /-- What a builtin has said and what is still to be written. -/
  pending : Octets
  /-- A command that fails does not end the script. -/
  lenient : Bool
  /-- How far `getopts` has come in a word. -/
  optionOffset : Nat
  /-- The number by which the shell knows itself. -/
  number : Nat
  /-- The directory as the shell names it. -/
  directory : Octets
  /-- The script is one of the larger dialect. -/
  extended : Bool

/-- Where a script goes on in place of the next command. -/
inductive Jump where
  /-- After so many loops. -/
  | leave (loops : Nat)
  /-- With the next round of a loop, after leaving the loops inside that. -/
  | next (loops : Nat)
  /-- After the command that the script defines. -/
  | giveBack (code : Nat)
  /-- Nowhere. -/
  | quit (code : Nat)

/-- What a shell does. -/
abbrev Sh := ExceptT Jump (StateT State Act)

namespace State

variable (s : State)

/-- The value of a parameter with a name. -/
def value? (name : Octets) : Option Octets := (s.bindings.lookup name).bind (·.value)

/-- An option is set. -/
def has (letter : Char) : Bool := s.options.contains letter

/-- The state after a parameter got a value. -/
def withValue (name value : Octets) : State :=
  let old := s.bindings.lookup name
  let new : Variable :=
    ⟨some value, (old.map (·.exported)).getD false || s.has 'a', (old.map (·.fixed)).getD false⟩
  { s with
    bindings := (name, new) :: s.bindings.filter (·.1 != name)
    tracked := if name = "PATH".toList then [] else s.tracked }

/-- The state in which parameters are again as they were. -/
def withOld (old : List (Octets × Option Variable)) : State :=
  { s with
    bindings := old.foldl (fun vs (name, v) =>
      (v.map (name, ·)).toList ++ vs.filter (·.1 != name)) s.bindings
    tracked := if old.any (·.1 = "PATH".toList) then [] else s.tracked }

/-- The place of a name in the table of parameters, whose order programs see. -/
def tablePlace (name : Octets) : Nat :=
  (name.foldl (fun n c => n + c.toNat) (((name.head?.map (·.toNat)).getD 0) * 16)) % 39

/-- The parameters that programs get to know. -/
def environment : List (Octets × Octets) :=
  let exported := s.bindings.reverse.filterMap fun (name, v) =>
    if v.exported then v.value.map (name, ·) else none
  exported.mergeSort fun a b => tablePlace a.1 ≤ tablePlace b.1

end State

/-- The characters of a text. -/
def octets (text : String) : Octets := text.toList

/-- Does something as the process and not as a shell. -/
def act {α : Type} (a : Act α) : Sh α := liftM a

/-- Says something, which is written when the builtin has come to its end. -/
def tell (text : Octets) : Sh Unit := modify fun s => { s with pending := s.pending ++ text }

/-- Says a line. -/
def tellLine (text : Octets) : Sh Unit := tell (text ++ ['\n'])

/-- Writes what was said. -/
def flush : Sh Unit := do
  let text := (← get).pending
  if !text.isEmpty then
    modify fun s => { s with pending := [] }
    act (.say text)

/-- Sets the exit code of the latest command. -/
def setStatus (code : Nat) : Sh Unit := modify fun s => { s with status := code }

/-- Writes a message that begins with the name of the script and the line. -/
def complain (message : Octets) : Sh Unit := do
  let s ← get
  act (.put 2 (s.name ++ octets ": " ++ Decimal.natText s.line ++ octets ": " ++ message ++ ['\n']))

/-- The script ends with a message. -/
def giveUp {α : Type} (message : Octets) : Sh α := do
  complain message
  setStatus 2
  throw (.quit 2)

/-- Gives a parameter a value. -/
def assign (name value : Octets) : Sh Unit := do
  if ((← get).bindings.lookup name).any (·.fixed) then
    giveUp (name ++ octets ": is read only")
  modify (·.withValue name value)

/-- Does something again and again until there is a result. -/
def repeated {α : Type} (step : Sh (Option α)) : Sh α :=
  ExceptT.mk fun s : State =>
    Act.iterate (fun s => do
      let (r, s) ← step.run.run s
      match r with
      | .error jump => return .inr (.error jump, s)
      | .ok (some a) => return .inr (.ok a, s)
      | .ok none => return .inl s) s

/-- Does something and sees how it went. -/
def observe {α : Type} (a : Sh α) : Sh (Except Jump α) := ExceptT.lift a.run

end MutationTesting.Shell
