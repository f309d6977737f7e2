import MutationTesting.FileSystem.Change
import MutationTesting.FileSystem.Listing
/-!
# What processes share

The files of a machine, its clock, and what is known of its processes: their descriptors, their
directories, the signals that were sent to them and how they ended. A descriptor of a process leads
to a stream, which may be shared with other processes; a stream reads or writes a node of the file
system or one end of a pipe.

What the processes do is not part of this state.

## Main definitions

* `Kernel`, `Process`, `Stream`, `Pipe`
* `Kernel.streamOf?`, `Kernel.receive?`, `Kernel.send` — reading and writing without waiting
* `Kernel.newPipe`, `Kernel.newStream`, `Kernel.connect`, `Kernel.disconnect`
* `Kernel.bury` — the end of a process
-/

namespace MutationTesting

/-- How a process came to its end. -/
inductive Exit where
  | code (n : Nat)
  | signal (n : Nat)
  deriving DecidableEq

/-- What a stream reads or writes. -/
inductive Channel where
  | node (n : Nat)
  /-- The end of a pipe from which is read. -/
  | outlet (pipe : Nat)
  /-- The end of a pipe into which is written. -/
  | inlet (pipe : Nat)
  deriving DecidableEq

/-- A way to a channel that was opened. -/
structure Stream where
  channel : Channel
  /-- Where in a file the next bytes are read or written. -/
  position : Nat
  /-- Bytes are always written at the end of the file. -/
  appends : Bool

/-- Bytes on their way from one process to another. -/
structure Pipe where
  /-- What is read next. -/
  ready : Bytes
  /-- What comes after that, the last first. -/
  recent : List Bytes
  /-- How many bytes there are. -/
  size : Nat
  /-- Someone outside the machine reads it. -/
  observed : Bool
  /-- How often it was opened for reading, and for writing. -/
  outlets : Nat
  inlets : Nat

namespace Pipe

/-- The first bytes of a pipe, and the pipe without them. -/
def take (p : Pipe) (limit : Nat) : Bytes × Pipe :=
  let ready := if p.ready.isEmpty then p.recent.reverse.flatten else p.ready
  let recent := if p.ready.isEmpty then [] else p.recent
  let taken := ready.take limit
  (taken, { p with ready := ready.drop limit, recent, size := p.size - taken.length })

/-- A pipe with bytes at its end. -/
def put (p : Pipe) (added : Bytes) : Pipe :=
  { p with recent := added :: p.recent, size := p.size + added.length }

end Pipe

/-- What is known of a process. -/
structure Process where
  parent : Nat
  /-- The processes of a group can be killed together. -/
  group : Nat
  /-- The numbers of the streams of its descriptors. -/
  descriptors : List (Nat × Nat)
  directory : Nat
  /-- The bits that the modes of its new files do not have. -/
  mask : Nat
  environment : List (Octets × Octets)
  /-- How little right it has to take its turn. -/
  niceness : Int
  /-- The signals that do not reach it. -/
  ignored : List Nat
  /-- The signals that it deals with by itself. -/
  caught : List Nat
  /-- The signals that it has not dealt with. -/
  pending : List Nat
  /-- It does nothing until it is told to go on. -/
  stopped : Bool
  /-- What went wrong on its descriptors, for each of them the first time. -/
  faults : List (Nat × FileError)
  exit : Option Exit

/-- Who holds a lock. -/
inductive LockHolder where
  /-- Everyone whose descriptors lead to a stream. -/
  | stream (n : Nat)
  /-- Someone outside the machine. -/
  | claim (n : Nat)
  deriving DecidableEq

/-- A lock on a file. It belongs to the file, not to its name. -/
structure Lock where
  holder : LockHolder
  node : Nat
  /-- Others may hold the same kind of lock on the file. -/
  shared : Bool

/-- What the processes of a machine share. -/
structure Kernel where
  files : FileSystem
  /-- Milliseconds since the machine was started. -/
  clock : Nat
  processes : List (Nat × Process)
  streams : List (Nat × Stream)
  pipes : List (Nat × Pipe)
  /-- The pipes of the nodes that are pipes. -/
  fifos : List (Nat × Nat)
  locks : List Lock
  /-- The next number of a process, stream or pipe. -/
  issued : Nat
  /-- The process that is at work. -/
  active : Nat

namespace Kernel

/-- The number that stands for whoever starts processes from outside the machine. -/
def outside : Nat := 1

/-- The kernel of a machine on which nothing has happened yet. -/
def ofFiles (files : FileSystem) : Kernel where
  files
  clock := 0
  processes := []
  streams := []
  pipes := []
  fifos := []
  locks := []
  issued := 1000
  active := 0

/-- The elements of a list of pairs with one of them changed. -/
def adjust {α : Type} (key : Nat) (f : α → α) (xs : List (Nat × α)) : List (Nat × α) :=
  xs.map fun (k, x) => (k, if k = key then f x else x)

variable (k : Kernel)

/-! ### Processes -/

/-- What is known of a process. -/
def process? (pid : Nat) : Option Process := k.processes.lookup pid

/-- Changes what is known of a process. -/
def adjustProcess (pid : Nat) (f : Process → Process) : Kernel :=
  { k with processes := adjust pid f k.processes }

/-- The process at work. -/
def self? : Option Process := k.process? k.active

/-- Changes what is known of the process at work. -/
def adjustSelf (f : Process → Process) : Kernel := k.adjustProcess k.active f

/-- The directory from which the process at work follows paths. -/
def here : Nat := (k.self?.map (·.directory)).getD FileSystem.root

/-- The mode that the process at work gives to a new file. -/
def modeFor (wanted : Nat) : Nat := wanted &&& (0o777 ^^^ ((k.self?.map (·.mask)).getD 0o022))

/-- The value of a variable in the environment of the process at work. -/
def variableValue? (name : Octets) : Option Octets := k.self?.bind (·.environment.lookup name)

/-! ### Pipes -/

/-- Someone may still write into a pipe. -/
def hasWriter (pipe : Nat) : Bool :=
  k.processes.any fun (_, p) => p.descriptors.any fun (_, s) =>
    (k.streams.lookup s).any (·.channel = .inlet pipe)

/-- Someone may still read from a pipe. -/
def hasReader (pipe : Nat) : Bool :=
  (k.pipes.lookup pipe).any (·.observed)
    || k.processes.any fun (_, p) => p.descriptors.any fun (_, s) =>
      (k.streams.lookup s).any (·.channel = .outlet pipe)

/-- As many bytes fit into a pipe. -/
def pipeLimit : Nat := 65536

/-- A new pipe. -/
def newPipe (content : Bytes) (observed : Bool) : Nat × Kernel :=
  (k.issued, { k with
    pipes := (k.issued, ⟨content, [], content.length, observed, 0, 0⟩) :: k.pipes
    issued := k.issued + 1 })

/-! ### Descriptors -/

/-- The stream of a descriptor of the process at work, with its number. -/
def streamOf? (descriptor : Nat) : Option (Nat × Stream) := do
  let n ← (← k.self?).descriptors.lookup descriptor
  some (n, ← k.streams.lookup n)

/-- Forgets the streams that no descriptor leads to, and the locks held through them. -/
def tidy : Kernel :=
  let used (n : Nat) := k.processes.any fun (_, p) => p.descriptors.any (·.2 = n)
  { k with
    streams := k.streams.filter fun s => used s.1
    locks := k.locks.filter fun l =>
      match l.holder with
      | .stream n => used n
      | .claim _ => true }

/-! ### Locks -/

/-- Gives up the locks of a holder on a file. -/
def unlock (holder : LockHolder) (node : Nat) : Kernel :=
  { k with locks := k.locks.filter fun l => !(l.holder = holder && l.node = node) }

/-- Locks a file, unless someone else holds a lock that excludes this one. -/
def lock? (holder : LockHolder) (node : Nat) (shared : Bool) : Option Kernel :=
  if k.locks.any fun l => l.node = node && l.holder != holder && !(l.shared && shared) then none
  else some { k with locks := ⟨holder, node, shared⟩ :: (k.unlock holder node).locks }

/-- Takes a descriptor from the process at work. -/
def disconnect (descriptor : Nat) : Kernel :=
  (k.adjustSelf fun p =>
    { p with descriptors := p.descriptors.filter (·.1 != descriptor) }).tidy

/-- Lets a descriptor of the process at work lead to a stream. -/
def connect (descriptor stream : Nat) : Kernel :=
  (k.adjustSelf fun p =>
    { p with descriptors := (descriptor, stream) :: p.descriptors.filter (·.1 != descriptor) }).tidy

/-- The least number from `n` on that is no descriptor. -/
def freeDescriptor (p : Process) (n : Nat) : Nat :=
  ((List.range (p.descriptors.length + 1)).map (· + n)).find?
    (fun d => !p.descriptors.any (·.1 = d)) |>.getD n

/-- A new stream and a descriptor for it, the least that is free from a number on. -/
def newStream (stream : Stream) (least : Nat) : Nat × Kernel :=
  match k.self? with
  | none => (0, k)
  | some p =>
    let descriptor := freeDescriptor p least
    (descriptor, { k with
      streams := (k.issued, stream) :: k.streams
      issued := k.issued + 1 }.adjustSelf fun p =>
        { p with descriptors := (descriptor, k.issued) :: p.descriptors })

/-! ### Reading and writing -/

/-- Bytes without a pattern. -/
def noise (seed : Nat) : Nat → Bytes
  | 0 => []
  | n + 1 =>
    let next := (seed * 1103515245 + 12345) % 2147483648
    UInt8.ofNat (next / 65536) :: noise next n

/-- What a read of at most so many bytes gets; `none` if there is nothing yet. -/
def receive? (stream : Nat) (s : Stream) (limit : Nat) :
    Option (Except FileError (Bytes × Kernel)) :=
  match s.channel with
  | .inlet _ => some (.error .badDescriptor)
  | .node n =>
    match k.files.form? n with
    | some (.file content) =>
      let taken := (content.drop s.position).take limit
      some (.ok (taken, { k with
        streams := adjust stream (fun s => { s with position := s.position + taken.length })
          k.streams }))
    | some (.directory _ _) => some (.error .isDirectory)
    | some (.device .null) => some (.ok ([], k))
    | some (.device .random) =>
      some (.ok (noise k.issued limit, { k with issued := k.issued + 1 }))
    | some (.device _) => some (.ok (List.replicate limit 0, k))
    | _ => some (.error .invalid)
  | .outlet pipe =>
    match k.pipes.lookup pipe with
    | none => some (.ok ([], k))
    | some p =>
      if p.size = 0 then if k.hasWriter pipe then none else some (.ok ([], k))
      else
        let (taken, p) := p.take limit
        some (.ok (taken, { k with pipes := adjust pipe (fun _ => p) k.pipes }))

/-- Writes as many bytes as there is room for, and says how many. -/
def send (stream : Nat) (s : Stream) (content : Bytes) : Except FileError (Nat × Kernel) :=
  match s.channel with
  | .outlet _ => .error .badDescriptor
  | .node n =>
    match k.files.form? n with
    | some (.file before) =>
      let position := if s.appends then before.length else s.position
      .ok (content.length, { k with
        files := k.files.splice n position content
        streams := adjust stream (fun s => { s with position := position + content.length })
          k.streams })
    | some (.device .full) => .error .noSpace
    | some (.device _) => .ok (content.length, k)
    | _ => .error .badDescriptor
  | .inlet pipe =>
    match k.pipes.lookup pipe with
    | none => .error .unread
    | some p =>
      if !k.hasReader pipe then .error .unread
      else
        let room := if p.observed then content.length else min content.length (pipeLimit - p.size)
        .ok (room, { k with pipes := adjust pipe (·.put (content.take room)) k.pipes })

/-! ### The end of a process -/

/-- What is left of a process when it has come to its end: its exit, until its parent asks for it.
Its children have no parent then. -/
def bury (pid : Nat) (exit : Exit) : Kernel :=
  match k.process? pid with
  | none => k
  | some p =>
    let orphaned := k.processes.filterMap fun (n, q) =>
      if q.parent = pid then
        if q.exit.isSome then none else some (n, { q with parent := 0 })
      else some (n, q)
    let awaited := p.parent = outside || (k.process? p.parent).any (·.exit.isNone)
    let processes :=
      if awaited then
        adjust pid
          (fun p => { p with exit := some exit, descriptors := [], pending := [] }) orphaned
      else orphaned.filter (·.1 != pid)
    { k with processes }.tidy

end Kernel

end MutationTesting
