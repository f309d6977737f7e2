import MutationTesting.Host.Basic
import MutationTesting.Host.Path
import MutationTesting.Machine.Basic
import MutationTesting.Tool.Repertoire
/-!
# Machines as hosts

A machine in memory does what a host has to do. Its files are used from outside through paths that
begin in its working directory.

A command becomes a process with a group of its own, nothing to read, and two pipes for what it
writes. Whoever started it looks every few milliseconds whether it has come to its end, whether it
is called off and whether its time is up; in the last two cases its group is killed. Processes that
it left behind may keep its pipes open. For each of the two in turn that is waited for, up to the
deadline and for a short time at least; then what the pipe has received is given up.

## Main definitions

* `Machine.start?`, `Machine.watch`, `Machine.drain` — a command from its start to its end
* `Machine.replace`, `Machine.copyFile`, `Machine.claim`, `Machine.release`
* `Machine.host`
-/

namespace MutationTesting

namespace Machine

variable (m : Machine)

/-- Milliseconds since the machine was started. -/
def clock : Nat := m.kernel.clock

/-! ### Files -/

/-- The mode of a file that is made from outside, unless said otherwise. -/
def fileMode : Nat := 0o644

/-- The mode of a file that is to take the place of another one. -/
def privateMode : Nat := 0o600

/-- A change of the files, if it is possible. -/
def attempt (change : FileSystem → Nat → FileChange) : StateM Machine Bool := fun m =>
  match change m.files m.home with
  | .ok files => (true, m.withFiles files)
  | .error _ => (false, m)

/-- The files below a directory, links not followed. -/
def filesBelow (dir : Path) : Option (List Path) :=
  match m.files.find .follow m.home dir with
  | .ok n =>
    if m.files.isDirectory n then
      some ((m.files.regularBelow n).map fun way => Path.join dir (Path.joined way))
    else none
  | .error _ => none

/-- Everything but directories below a directory, links to directories followed. -/
def leavesBelow (dir : Path) : List Path := m.files.leavesFrom m.home FileSystem.pathLimit dir

/-- A name such as is made up for a new file. -/
def temporaryName : Octets := ".tmpXXXXXX".toList

/-- Puts a new file in the place of what has a name. It is made beside it, under a name that nothing
has, and gets the name when it is whole. If that fails, the path that is to blame. -/
def replace (path : Path) (content : Bytes) : StateM Machine (Option Path) := fun m =>
  let dir := (Path.parent? path).getD ['.']
  match m.files.find .follow m.home (if dir = [] then ['.'] else dir) with
  | .error _ => (some dir, m)
  | .ok n =>
    if m.files.isDirectory n && m.files.isAttached n
        && (Path.join dir temporaryName).length < FileSystem.pathLimit then
      match m.files.replaceFile m.home path content privateMode with
      | .ok files => (none, m.withFiles files)
      | .error _ => (some path, m)
    else (some dir, m)

/-- Copies a file, its mode included, into another one, which is emptied first. -/
def copyFile (source target : Path) (fs : FileSystem) (here : Nat) : FileChange := do
  let n ← fs.find .follow here source
  match fs.node? n with
  | some ⟨.file _, mode, _⟩ =>
    let (k, fs) ← fs.create here target mode
    let fs := fs.setContent k []
    let fs := fs.setContent k (← fs.content n)
    return match fs.form? k with
      | some (.file _) => fs.setMode k mode
      | _ => fs
  | _ => throw .invalid

/-! ### Claims -/

/-- Claims a file, which is made if it is not there, and writes a text into it. -/
def claim (path : Path) (text : String) : StateM Machine ClaimResult := fun m =>
  match m.files.create m.home path fileMode with
  | .error _ => (.unavailable, m)
  | .ok (n, files) =>
    let m := m.withFiles files
    match files.form? n with
    | some (.file _) =>
      match m.kernel.lock? (.claim m.claimed) n false with
      | none => (.busy, m)
      | some kernel =>
        let m := { m with kernel, claimed := m.claimed + 1 }
        (.granted (m.claimed - 1), m.withFiles (files.setContent n (Utf8.encode text)))
    | _ => (.unavailable, m)

/-- Gives up a claim and empties its file. -/
def release (claim : Nat) : Machine :=
  match m.kernel.locks.find? (·.holder = .claim claim) with
  | some lock =>
    { m with kernel := m.kernel.unlock (.claim claim) lock.node }.withFiles
      (m.files.setContent lock.node [])
  | none => m

/-! ### Processes -/

/-- A process that was started from outside. -/
structure Started where
  pid : Nat
  /-- The pipe of its output. -/
  output : Nat
  /-- The pipe of its error output. -/
  errors : Nat

/-- The machine with a process whose task is given, and what is known of it outside. -/
def launch (task : Task) (source : Nat) : Started × Machine :=
  let (output, k) := m.kernel.newPipe [] true
  let (errors, k) := k.newPipe [] true
  let n := k.issued
  let pid := n + 3
  let process : Process :=
    { parent := Kernel.outside
      group := pid
      descriptors := [(0, n), (1, n + 1), (2, n + 2)]
      directory := m.home
      mask := 0o022
      environment := m.environment
      niceness := 0
      ignored := []
      caught := []
      pending := []
      stopped := false
      faults := []
      exit := none }
  let streams := [(n, ⟨.node source, 0, false⟩), (n + 1, ⟨.inlet output, 0, false⟩),
    (n + 2, ⟨.inlet errors, 0, false⟩)]
  (⟨pid, output, errors⟩,
    { m with
      kernel := { k with
        streams := streams ++ k.streams
        processes := k.processes ++ [(pid, process)]
        issued := pid + 1 }
      tasks := m.tasks ++ [(pid, task)] })

/-- Starts a command, unless that is not possible. -/
def start? (command : Command) : Option (Started × Machine) := do
  if !command.isPlain then none
  let path := (m.environment.lookup "PATH".toList).getD defaultSearchPath
  let s ← (startOfNamed m.kernel m.home path (Octets.ofString command.program)
    (command.args.map Octets.ofString)).toOption
  let program ← Tool.programs s.program
  let source ← (m.files.find .follow FileSystem.root "/dev/null".toList).toOption
  return m.launch (program s.name s.args).task source

/-- How a process came to its end by itself. -/
def endOf : Exit → ProcessEnd
  | .code n => .exited n
  | .signal _ => .signalled

/-- The machine without what was known of a process. -/
def forget (pid : Nat) : Machine :=
  { m with kernel := { m.kernel with
      processes := m.kernel.processes.filter (·.1 != pid) } }

/-- How often a process is looked at, in milliseconds. -/
def lookInterval : Nat := 10

/-- When a process is looked at again. One that never waits is not looked at before something else
can happen. -/
def nextLook (pid start deadline : Nat) : Nat :=
  if m.isBusy pid then
    let moment := min deadline ((m.nextMoment?).getD deadline)
    let looks := (max (moment - start) (m.clock + 1 - start) + lookInterval - 1) / lookInterval
    start + looks * lookInterval
  else m.clock + lookInterval

/-- Looks at a process again and again until it has come to its end: how it did, and whether it was
called off. The second argument bounds the number of looks. -/
def watch (pid start deadline : Nat) (heed : Bool) :
    Nat → Machine → ProcessEnd × Bool × Machine
  | 0, m => (.killed, false, (m.killGroup pid).forget pid)
  | n + 1, m =>
    match (m.kernel.process? pid).bind (·.exit) with
    | some exit => (endOf exit, false, m.forget pid)
    | none =>
      let m := m.seen
      if heed && m.raised then (.killed, true, (m.killGroup pid).forget pid)
      else if deadline ≤ m.clock then (.killed, false, (m.killGroup pid).forget pid)
      else watch pid start deadline heed n (m.passTo (m.nextLook pid start deadline))

/-- How long a pipe that is kept open is waited for at least, in milliseconds. -/
def grace : Nat := 250

/-- Lets the processes go on until nobody writes into a pipe any more, or until a moment, over so
many moments at most. -/
def passUntilClosed (pipe moment : Nat) : Nat → Machine → Machine
  | 0, m => m
  | n + 1, m =>
    let m := m.settled
    if m.kernel.hasWriter pipe then
      match m.nextMoment? with
      | some next =>
        if next ≤ moment then passUntilClosed pipe moment n (m.atMoment next)
        else m.atMoment moment
      | none => m.atMoment moment
    else m

/-- What a pipe has received, if it is closed in time. -/
def drain (pipe deadline : Nat) : Bytes × Machine :=
  let limit := m.clock + max (deadline - m.clock) grace
  let m := passUntilClosed pipe limit (limit - m.clock + 1) m
  let received := match m.kernel.pipes.lookup pipe with
    | some p => p.ready ++ p.recent.reverse.flatten
    | none => []
  if m.kernel.hasWriter pipe then ([], m) else (received, m)

/-- Runs a command to its end. -/
def run (command : Command) (timeoutMs : Nat) (heed : Bool) :
    StateM Machine (Option ProcessOutput) := fun m =>
  match m.start? command with
  | none => (none, m)
  | some (s, m) =>
    let start := m.clock
    let deadline := start + timeoutMs
    let (ending, cancelled, m) :=
      watch s.pid start deadline heed (timeoutMs / lookInterval + 3) m
    let (stdout, m) := m.drain s.output deadline
    let (stderr, m) := m.drain s.errors deadline
    (some ⟨ending, cancelled, stdout, stderr, m.clock - start⟩, m)

/-- A machine as a host. -/
def host : Host Machine where
  read m path := (m.files.read m.home path).toOption
  isDirectory m path := m.files.leadsToDirectory m.home path
  filesBelow m dir := m.filesBelow dir
  leavesBelow m dir := m.leavesBelow dir
  now m := m.clock
  write path content := attempt fun fs here => fs.write here path content fileMode
  replace path content := replace path content
  copy source target := attempt (copyFile source target)
  remove path := attempt fun fs here => fs.removeFile here path
  claim path text := claim path text
  release claim := modify (·.release claim)
  cancelled := fun m => (m.isStopped, m.seen)
  run command timeoutMs heed := run command timeoutMs heed

end Machine

end MutationTesting
