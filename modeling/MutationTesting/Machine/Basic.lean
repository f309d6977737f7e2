import MutationTesting.Machine.Signal
import MutationTesting.Machine.Task
/-!
# Machines

A machine in memory, on which a run can be rehearsed without a device: what its processes share,
what each of them still has to do, and what someone outside holds of it, namely a directory in which
paths begin, claims on files, and a flag that asks to stop and can be tied to a file.

Processes take turns: one of them goes on until it has to wait, and then it is the turn of the one
that has been ready longest. They take no time, so that the clock stands still until all of them
wait for a moment to come. A process that never waits would hold it for ever; after some effort time
is taken to pass in spite of it.

A claim belongs to a file, not to its name: it moves with the file, and lasts when the file has no
name any more.

## Main definitions

* `Machine`, `Machine.ofFiles`, `Machine.isStopped`
* `Machine.settle` — lets the processes go on as far as they can at a moment
* `Machine.passTo` — lets them go on until a moment
-/

namespace MutationTesting

/-- A machine in memory. -/
structure Machine where
  kernel : Kernel
  /-- What the processes still have to do, the one whose turn it is first. -/
  tasks : List (Nat × Task)
  /-- The directory in which paths begin. -/
  home : Nat
  /-- The flag that asks to stop was raised. -/
  raised : Bool
  /-- The flag is raised as soon as there is something at this path. -/
  watched : Option Octets
  /-- How many claims there have been. -/
  claimed : Nat
  /-- What processes are told that are started from outside. -/
  environment : List (Octets × Octets)
  /-- The groups of processes that did not wait when they were expected to. -/
  busy : List Nat
  /-- How many steps processes may take at one moment. -/
  patience : Nat
  /-- The same for those of busy groups. -/
  indulgence : Nat

namespace Machine

/-- A machine with the given files, on which nothing has happened yet. -/
def ofFiles (files : FileSystem) (home : Nat) : Machine where
  kernel := .ofFiles files
  tasks := []
  home
  raised := false
  watched := none
  claimed := 0
  environment := []
  busy := []
  patience := 3000000
  indulgence := 400000

/-- The machine with the flag lowered or raised, and tied to a file or not. -/
def withFlag (m : Machine) (raised : Bool) (watched : Option String) : Machine :=
  { m with raised, watched := watched.map Octets.ofString }

variable (m : Machine)

/-- The files of a machine. -/
def files : FileSystem := m.kernel.files

/-- The machine with other files. -/
def withFiles (files : FileSystem) : Machine := { m with kernel := { m.kernel with files } }

/-- The run is asked to stop. -/
def isStopped : Bool :=
  m.raised || m.watched.any fun path =>
    match m.files.find .follow m.home path with
    | .ok _ => true
    | .error _ => false

/-- The machine after someone looked at the flag; once seen raised it stays so. -/
def seen : Machine := { m with raised := m.isStopped }

/-! ### Turns -/

/-- A process can go on. -/
def isReady (k : Kernel) (pid : Nat) (task : Task) : Bool :=
  (k.fatal? pid).isSome
    || !(k.process? pid).any (·.stopped)
      && match task with
        | .wait ready moment _ => ready { k with active := pid } || moment.any (· ≤ k.clock)
        | _ => true

/-- How much longer it takes to start a process than to take a step. -/
def forkEffort : Nat := 50

/-- What is known of a process that another one starts. -/
def childOf (p : Process) (parent : Nat) : Process :=
  { p with parent, caught := [], pending := [], exit := none, stopped := false, faults := [] }

/-- A process goes on for a number of steps at most, until it has to wait or has come to its end:
the kernel, what is left to do, the processes that it started, the last first, and the steps
left. It is not held up between looking at the kernel and changing it. -/
def resume (pid : Nat) : Nat → Task → Kernel → List (Nat × Task) →
    Kernel × Option Task × List (Nat × Task) × Nat
  | 0, .put k next, _, started => (k, some (.wait (fun _ => true) none next), started, 0)
  | 0, task, k, started => (k, some task, started, 0)
  | n + 1, task, k, started =>
    match task with
    | .done exit => (k.bury pid exit, none, started, n)
    | .look next => resume pid n (next k) k started
    | .put k next => resume pid n (next ()) k started
    | .wait .. => (k, some task, started, n)
    | .fork child next =>
      let k' := { k with
        processes := k.processes ++ ((k.process? pid).map fun p => (k.issued, childOf p pid)).toList
        issued := k.issued + 1 }
      resume pid (n - forkEffort) (next k.issued) k' ((k.issued, child ()) :: started)

/-- A process that is ready takes its turn. -/
def turn (effort pid : Nat) (task : Task) (k : Kernel) :
    Kernel × Option Task × List (Nat × Task) × Nat :=
  match k.fatal? pid with
  | some signal => (k.bury pid (.signal signal), none, [], effort - 1)
  | none =>
    let k := { k with active := pid }
    match task with
    | .wait _ _ next => resume pid (effort - 1) (next ()) k []
    | task => resume pid (effort - 1) task k []

/-- The longest turn. -/
def turnLimit : Nat := 20000

/-- A process is in a busy group. -/
def isBusy (pid : Nat) : Bool := (m.kernel.process? pid).any fun p => m.busy.contains p.group

/-- The processes that can go on, with or without those of busy groups. -/
def readyTasks (withBusy : Bool) : List (Nat × Task) :=
  m.tasks.filter fun (pid, task) =>
    (withBusy || !m.isBusy pid) && isReady m.kernel pid task

/-- Lets processes go on as far as they can at the moment, for a number of turns and steps. -/
def settle (withBusy : Bool) : Nat → Nat → Machine → Machine
  | 0, _, m => m
  | turns + 1, effort, m =>
    if effort = 0 then m
    else
      match m.tasks.find? fun (pid, task) =>
        (withBusy || !m.isBusy pid) && isReady m.kernel pid task with
      | none => m
      | some (pid, task) =>
        let limit := min effort turnLimit
        let (kernel, rest, started, left) := turn limit pid task m.kernel
        let others := m.tasks.filter (·.1 != pid)
        settle withBusy turns (effort - max 1 (limit - left)) { m with
          kernel
          tasks := others ++ started.reverse ++ (rest.map (pid, ·)).toList }

/-- Lets the processes go on as far as they can at the moment. Those that never wait are held up
when all others wait, and less and less is done for them at later moments. -/
def settled : Machine :=
  let m := settle false m.patience m.patience m
  let m := match m.readyTasks false with
    | [] => m
    | late =>
      { m with
        busy := m.busy ++ late.filterMap fun (pid, _) => (m.kernel.process? pid).map (·.group)
        patience := max 200000 (m.patience / 2) }
  if m.busy.isEmpty then m
  else
    let m := settle true m.indulgence m.indulgence m
    if (m.readyTasks true).isEmpty then m
    else { m with indulgence := max 2000 (m.indulgence / 2) }


/-- How long it takes until more is done for processes that never wait. -/
def busyPause : Nat := 50

/-- When more is done for processes that never wait, if there are any. -/
def nextTry? : Option Nat :=
  if (m.readyTasks true).isEmpty then none else some (m.kernel.clock + busyPause)

/-- The next moment for which a process waits. -/
def nextMoment? : Option Nat :=
  (m.tasks.filterMap fun (pid, task) =>
    match task with
    | .wait _ (some moment) _ =>
      if m.kernel.clock < moment && !(m.kernel.process? pid).any (·.stopped) then some moment
      else none
    | _ => none).min?

/-- The machine at a later moment, when nothing has been done yet. -/
def atMoment (moment : Nat) : Machine :=
  { m with kernel := { m.kernel with
    clock := max m.kernel.clock moment
    files := m.kernel.files.passTo (moment * 1000) } }

/-- Lets the processes go on until a moment, over so many moments at most. -/
def pass (moment : Nat) : Nat → Machine → Machine
  | 0, m => m
  | n + 1, m =>
    let m := m.settled
    match (m.nextMoment?.toList ++ m.nextTry?.toList).min? with
    | some next => if next ≤ moment then pass moment n (m.atMoment next) else m.atMoment moment
    | none => m.atMoment moment

/-- Lets the processes go on until a moment. -/
def passTo (moment : Nat) : Machine := pass moment (moment - m.kernel.clock + 1) m

/-- Kills all processes of a group. -/
def killGroup (group : Nat) : Machine :=
  let members := m.kernel.processes.filterMap fun (pid, p) =>
    if p.group = group && p.exit.isNone then some pid else none
  { m with
    kernel := members.foldl (fun k pid => k.bury pid (.signal Signal.kill)) m.kernel
    tasks := m.tasks.filter fun t => !members.contains t.1 }

end Machine

end MutationTesting
