import MutationTesting.Machine.Kernel
import MutationTesting.Decimal.Digits
/-!
# Signals

The signals that are sent to processes, by number and by name, and what they do.

## Main definitions

* `Signal.number?`, `Signal.name?`
* `Kernel.signal` — sends a signal
* `Kernel.fatal?` — the signal that ends a process
-/

namespace MutationTesting

namespace Signal

/-- The names of the usual signals, from number one on. -/
def nameList : List String :=
  ["HUP", "INT", "QUIT", "ILL", "TRAP", "ABRT", "BUS", "FPE", "KILL", "USR1", "SEGV", "USR2",
    "PIPE", "ALRM", "TERM", "STKFLT", "CHLD", "CONT", "STOP", "TSTP", "TTIN", "TTOU", "URG",
    "XCPU", "XFSZ", "VTALRM", "PROF", "WINCH", "IO", "PWR", "SYS"]

/-- The number of the first signal without a meaning of its own. -/
def firstFree : Nat := 34

/-- The number of the last signal. -/
def last : Nat := 64

/-- The name of a signal; some have nothing but their number. Those without a meaning are counted
from the first one or from the last one. -/
def name? (n : Nat) : Option String :=
  if n = 0 || last < n then none
  else if n = 16 || n = 32 || n = 33 then some (toString n)
  else if n < firstFree then nameList[n - 1]?
  else if n = firstFree then some "RTMIN"
  else if n = last then some "RTMAX"
  else if n < 50 then some ("RTMIN+" ++ toString (n - firstFree))
  else some ("RTMAX-" ++ toString (last - n))

/-- The names of all signals. -/
def allNames : List String := (List.range last).filterMap fun i => name? (i + 1)

/-- Ends a process that cannot do anything about it. -/
def kill : Nat := 9

/-- Sent to one that writes what nobody reads. -/
def brokenPipe : Nat := 13

/-- Ends a process that has no room left. -/
def badAddress : Nat := 11

/-- The signal of someone who interrupts. -/
def interrupt : Nat := 2

/-- The signal of someone who wants an end with a trace. -/
def quit : Nat := 3

/-- Asks a process to end. -/
def terminate : Nat := 15

/-- Lets a process go on. -/
def resume : Nat := 18

/-- Signals after which a process waits until it is told to go on. -/
def stopping : List Nat := [19, 20, 21, 22]

/-- Signals that do nothing unless they are caught. -/
def harmless : List Nat := [17, 18, 23, 28]

/-- The number of a signal, which is written as such or as a name; zero is none. -/
def number? (text : List Char) : Option Nat :=
  if !text.isEmpty && text.all Char.isDigit then
    let n := Decimal.ofDigits (text.filterMap Decimal.digitValue?)
    if n ≤ last then some n else none
  else
    let name := (String.ofList text).toUpper
    if name = "EXIT" then some 0 else (allNames.findIdx? (· = name)).map (· + 1)

/-- The number of a signal, whose name may also be written in full. -/
def numberOfAny? (text : List Char) : Option Nat :=
  let name := (String.ofList text).toUpper
  let short := if name.startsWith "SIG" then text.drop 3 else text
  match (nameList.findIdx? (· = String.ofList (short.map Char.toUpper))).map (· + 1) with
  | some n => some n
  | none => number? short

end Signal

namespace Kernel

variable (k : Kernel)

/-- Sends a signal to a process. -/
def signal (pid n : Nat) : Kernel :=
  if n = 0 then k
  else
    k.adjustProcess pid fun p =>
      if p.exit.isSome || (p.ignored.contains n && n != Signal.kill) then p
      else if n = Signal.resume then { p with stopped := false }
      else if Signal.stopping.contains n && !p.caught.contains n then { p with stopped := true }
      else if Signal.harmless.contains n && !p.caught.contains n then p
      else { p with pending := p.pending.filter (· != n) ++ [n] }

/-- The signal that ends a process: it is pending and not caught. Only one cannot be held up. -/
def fatal? (pid : Nat) : Option Nat :=
  (k.process? pid).bind fun p =>
    if p.pending.contains Signal.kill then some Signal.kill
    else if p.stopped then none
    else p.pending.find? (!p.caught.contains ·)

/-- Takes the first of the signals that a process caught. -/
def takeCaught (pid : Nat) : Option Nat × Kernel :=
  match (k.process? pid).bind fun p => p.pending.find? (p.caught.contains ·) with
  | none => (none, k)
  | some n => (some n, k.adjustProcess pid fun p => { p with pending := p.pending.filter (· != n) })

/-- A process has caught a signal. -/
def hasCaught (pid : Nat) : Bool :=
  (k.process? pid).any fun p => p.pending.any (p.caught.contains ·)

end Kernel

end MutationTesting
