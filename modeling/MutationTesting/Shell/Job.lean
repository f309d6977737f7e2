import MutationTesting.Shell.State
/-!
# Jobs

What a shell knows of the processes that it started. Those for whose end it does not wait at once
are jobs: a job is a pipe of processes and has a number, the lowest one that is free when it starts.
It is kept after its end, so that a script can ask how it went, until someone has waited for it and
its number is needed again.

## Main definitions

* `Job.isSpent`, `Job.status` — a job that is over, and how it stands
* `waitFor`, `waitForAll` — processes for which the shell waits at once
* `startedJob`, `collectJobs` — jobs as they begin and end
* `findJob` — what a word means that stands for a job
* `shownJob` — a job as it is listed
-/

namespace MutationTesting.Shell

/-! ### Exits -/

/-- The exit code that stands for an exit. -/
def codeOf : Exit → Nat
  | .code n => n
  | .signal n => 128 + n

/-- A signal in words. -/
def signalText (n : Nat) : String :=
  match Signal.name? n with
  | some "HUP" => "Hangup"
  | some "INT" => "Interrupt"
  | some "QUIT" => "Quit"
  | some "ILL" => "Illegal instruction"
  | some "TRAP" => "Trace/breakpoint trap"
  | some "ABRT" => "Aborted"
  | some "BUS" => "Bus error"
  | some "FPE" => "Floating point exception"
  | some "KILL" => "Killed"
  | some "USR1" => "User defined signal 1"
  | some "SEGV" => "Segmentation fault"
  | some "USR2" => "User defined signal 2"
  | some "PIPE" => "Broken pipe"
  | some "ALRM" => "Alarm clock"
  | some "TERM" => "Terminated"
  | some "16" => "Stack fault"
  | some "XCPU" => "CPU time limit exceeded"
  | some "XFSZ" => "File size limit exceeded"
  | some "VTALRM" => "Virtual timer expired"
  | some "PROF" => "Profiling timer expired"
  | some "IO" => "I/O possible"
  | some "PWR" => "Power failure"
  | some "SYS" => "Bad system call"
  | _ =>
    if n < Signal.firstFree then "Unknown signal " ++ toString n
    else "Real-time signal " ++ toString (n - Signal.firstFree)

/-- Says that a signal ended a process, unless that is how processes end that are interrupted or
whose output nobody reads. -/
def reportExit (exit : Exit) : Sh Unit := do
  match exit with
  | .code _ => return ()
  | .signal n =>
    if n != Signal.interrupt && n != Signal.brokenPipe then
      act (.put 2 (octets (signalText n) ++ ['\n']))

/-! ### Beginnings and ends -/

/-- A job that has come to its end and for which someone has waited. -/
def Job.isSpent (j : Job) : Bool := j.exit.isSome && j.awaited

/-- The lowest number that no job has, or only one that is spent. -/
def State.freeNumber (s : State) : Nat :=
  ((List.range (s.jobs.length + 1)).map (· + 1)).find? (fun n =>
    (s.jobs.filter (·.number = n)).all (·.isSpent)) |>.getD (s.jobs.length + 1)

/-- Takes the lowest free number for processes that are started, and forgets the spent job that
had it. -/
def takeNumber : Sh Nat := do
  let n := (← get).freeNumber
  modify fun s => { s with jobs := s.jobs.filter (·.number != n) }
  return n

/-- Takes note of a job that was started. -/
def startedJob (number : Nat) (pids : List Nat) : Sh Unit :=
  modify fun s => { s with
    jobs := ⟨number, pids, none, false⟩ :: s.jobs
    lastJob := pids.getLast? }

/-- All processes of a job have come to their ends. -/
def isOver (k : Kernel) (j : Job) : Bool :=
  j.pids.all fun pid => !(k.process? pid).any (·.exit.isNone)

/-- A job with its end, if it has come to that; what its processes say of theirs. -/
def collected (j : Job) : Act (Job × List Exit) := do
  if j.exit.isSome || !(← Act.ofKernel (isOver · j)) then return (j, [])
  else
    let exits ← j.pids.mapM Act.reap
    return ({ j with exit := exits.getLast? }, exits)

/-- Takes note of the jobs that have come to their ends. -/
def collectJobs : Sh Unit := do
  let jobs ← act ((← get).jobs.mapM fun j => return (← collected j).1)
  modify fun s => { s with jobs }

/-- Waits for the end of a process that the shell started; its code. -/
def waitFor (pid : Nat) : Sh Nat := do
  let exit ← act (.exitOf pid)
  reportExit exit
  collectJobs
  return codeOf exit

/-- Waits for all processes; the code of the last one. -/
def waitForAll : List Nat → Sh Nat
  | [] => return 0
  | [pid] => waitFor pid
  | pid :: rest => do
    let _ ← waitFor pid
    waitForAll rest

/-- Waits until one of some jobs is over, or a signal was caught; the code of the latter. -/
def awaitAny (jobs : List Job) : Sh (Option Nat) := do
  let self ← act .self
  act (.await (fun k => jobs.any (isOver k) || k.hasCaught self) none)
  let signal? ← act (.ofKernel fun k =>
    if k.hasCaught self then
      some (((k.process? self).bind fun p => p.pending.find? (p.caught.contains ·)).getD 0)
    else none)
  return signal?.map (128 + ·)

/-- Waits until all jobs are over, or a signal was caught; the code. -/
def awaitJobs : Sh Nat :=
  repeated do
    collectJobs
    let running := (← get).jobs.filter (·.exit.isNone)
    modify fun s => { s with
      jobs := s.jobs.map fun j => if j.exit.isSome then { j with awaited := true } else j }
    if running.isEmpty then return some 0
    else awaitAny running

/-- Waits until a job is over, or a signal was caught; the code of one of them, and whether it is
that of a signal. -/
def awaitJob (job : Job) : Sh (Nat × Bool) := do
  match ← if job.exit.isSome then pure none else awaitAny [job] with
  | some code => return (code, true)
  | none =>
    let (job, exits) ← act (collected job)
    exits.forM reportExit
    collectJobs
    modify fun s => { s with
      jobs := s.jobs.map fun j =>
        if j.number = job.number then { j with exit := job.exit, awaited := true } else j }
    return ((job.exit.map codeOf).getD 0, false)

/-! ### Names and lists -/

/-- The job that a word means, which begins with a per cent sign. -/
def findJob (s : State) (word : Octets) : Except Octets Job :=
  let orElse (job? : Option Job) (message : String) : Except Octets Job :=
    match job? with
    | some j => .ok j
    | none => .error (octets message)
  match word.drop 1 with
  | [] | ['+'] | ['%'] => orElse s.jobs.head? "No current job"
  | ['-'] => orElse s.jobs[1]? "No previous job"
  | text =>
    match s.jobs.find? fun j => Decimal.natText j.number = text.dropWhile (· = '0') with
    | some j => .ok j
    | none => .error (octets "No such job: " ++ word)

/-- How it stands with a job. -/
def Job.status (j : Job) : Octets :=
  match j.exit with
  | none => octets "Running"
  | some (.code 0) => octets "Done"
  | some (.code n) => octets "Done(" ++ Decimal.natText n ++ [')']
  | some (.signal n) => octets (signalText n)

/-- A job as it is listed, possibly with the numbers of its processes. -/
def shownJob (s : State) (withPids : Bool) (j : Job) : Octets :=
  let place := s.jobs.findIdx? (·.number = j.number)
  let mark := if place = some 0 then '+' else if place = some 1 then '-' else ' '
  let front := '[' :: Decimal.natText j.number ++ octets "] " ++ [mark, ' ']
  let filled (width : Nat) (text : Octets) : Octets :=
    text ++ List.replicate (max 1 (width - text.length)) ' '
  match withPids, j.pids with
  | true, pid :: pids =>
    let lines := pids.map fun pid =>
      filled 36 (octets " |\n" ++ List.replicate front.length ' ' ++ Decimal.natText pid ++ [' '])
    filled 33 (front ++ Decimal.natText pid ++ ' ' :: j.status) ++ lines.flatten ++ ['\n']
  | _, pids =>
    filled 33 (front ++ j.status) ++ (pids.drop 1).flatMap (fun _ => octets " | ") ++ ['\n']

end MutationTesting.Shell
