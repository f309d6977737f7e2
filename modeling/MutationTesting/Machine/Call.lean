import MutationTesting.Machine.Signal
import MutationTesting.Machine.Task
/-!
# Calls

What programs ask of the kernel: to open files and pipes, to read and to write, to change files, to
sleep, to wait for processes and to send signals. Where the kernel cannot comply at once the
process waits.

## Main definitions

* `Act.openFile`, `Act.close`, `Act.duplicate`, `Act.newPipe`
* `Act.read`, `Act.readAll`, `Act.write`
* `Act.onFiles` — a change of the file system
* `Act.sleepUntil`, `Act.exitOf`, `Act.signal`
-/

namespace MutationTesting

/-- How a file is opened. -/
structure OpenWay where
  reads : Bool := false
  writes : Bool := false
  /-- Everything is written at the end. -/
  appends : Bool := false
  /-- The file is made if it is not there. -/
  creates : Bool := false
  /-- The file is emptied. -/
  empties : Bool := false
  /-- The file must not be there. -/
  exclusive : Bool := false
  /-- The mode of a new file. -/
  mode : Nat := 0o666

namespace OpenWay

/-- To read a file. -/
def toRead : OpenWay := { reads := true }

/-- To write a file anew. -/
def toWrite : OpenWay := { writes := true, creates := true, empties := true }

/-- To write at the end of a file. -/
def toAppend : OpenWay := { writes := true, creates := true, appends := true }

end OpenWay

namespace Act

variable {α : Type}

/-- The process at work, by its number. -/
def self : Act Nat := do return (← look).active

/-- Looks at the kernel with a result. -/
def ofKernel (f : Kernel → α) : Act α := do return f (← look)

/-- The value of a variable in the environment. -/
def variableValue? (name : String) : Act (Option Octets) := do
  return (← look).variableValue? name.toList

/-! ### Files -/

/-- The file system. -/
def files : Act FileSystem := do return (← look).files

/-- The directory from which paths are followed. -/
def here : Act Nat := do return (← look).here

/-- Looks at the file system, from the directory of the process. -/
def ofFiles (f : FileSystem → Nat → α) : Act α := do
  let k ← look
  return f k.files k.here

/-- Changes the file system, if the change is possible. -/
def onFiles (f : FileSystem → Nat → FileChange) : Act (Except FileError Unit) :=
  access fun k =>
    match f k.files k.here with
    | .ok files => (.ok (), { k with files })
    | .error e => (.error e, k)

/-- The mode of a new file for which a mode is wanted. -/
def modeFor (wanted : Nat) : Act Nat := do return (← look).modeFor wanted

/-! ### Descriptors -/

/-- The descriptor that a path names, if it names one. -/
def descriptorNamed? (path : Octets) : Option Nat :=
  match String.ofList path with
  | "/dev/stdin" => some 0
  | "/dev/stdout" => some 1
  | "/dev/stderr" => some 2
  | text =>
    if text.startsWith "/dev/fd/" then
      let digits := path.drop 8
      if digits.isEmpty then none
      else (digits.mapM Decimal.digitValue?).map Decimal.ofDigits
    else none

/-- Another descriptor for the stream of a descriptor, the least that is free from a number on. -/
def duplicate (descriptor least : Nat) : Act (Option Nat) :=
  access fun k =>
    match k.self?, k.streamOf? descriptor with
    | some p, some (n, _) =>
      let new := Kernel.freeDescriptor p least
      (some new, k.connect new n)
    | _, _ => (none, k)

/-- Lets a descriptor lead where another one leads. -/
def redirect (descriptor target : Nat) : Act Bool :=
  access fun k =>
    match k.streamOf? target with
    | some (n, _) => (true, k.connect descriptor n)
    | none => (false, k)

/-- Closes a descriptor. -/
def close (descriptor : Nat) : Act Unit := change (·.disconnect descriptor)

/-- A descriptor is open. -/
def isOpen (descriptor : Nat) : Act Bool := do return ((← look).streamOf? descriptor).isSome

/-- Opens a pipe: descriptors for reading and for writing. -/
def newPipe : Act (Nat × Nat) :=
  access fun k =>
    let (pipe, k) := k.newPipe [] false
    let (outlet, k) := k.newStream ⟨.outlet pipe, 0, false⟩ 3
    let (inlet, k) := k.newStream ⟨.inlet pipe, 0, false⟩ 3
    ((outlet, inlet), k)

/-- A descriptor from which bytes can be read. -/
def newSource (content : Bytes) : Act Nat :=
  access fun k =>
    let (pipe, k) := k.newPipe content false
    k.newStream ⟨.outlet pipe, 0, false⟩ 3

/-- Opens a node that is a pipe. Whoever opens it first waits for the other side. -/
def openPipeNode (node : Nat) (way : OpenWay) : Act Nat := do
  let (pipe, before) ← access fun k =>
    let (pipe, k) := match k.fifos.lookup node with
      | some pipe =>
        if k.hasReader pipe || k.hasWriter pipe then (pipe, k)
        else
          let (fresh, k) := k.newPipe [] false
          (fresh, { k with fifos := (node, fresh) :: k.fifos.filter (·.1 != node) })
      | none =>
        let (fresh, k) := k.newPipe [] false
        (fresh, { k with fifos := (node, fresh) :: k.fifos })
    let opened (p : Pipe) : Nat := if way.writes then p.outlets else p.inlets
    let isThere := if way.writes then k.hasReader pipe else k.hasWriter pipe
    ((pipe, if isThere then none else (k.pipes.lookup pipe).map opened), { k with
      pipes := Kernel.adjust pipe (fun p =>
        if way.writes then { p with inlets := p.inlets + 1 }
        else { p with outlets := p.outlets + 1 }) k.pipes })
  let channel : Channel := if way.writes then .inlet pipe else .outlet pipe
  let descriptor ← access fun k => k.newStream ⟨channel, 0, false⟩ 3
  match before with
  | none => return descriptor
  | some count =>
    if way.writes && way.reads then return descriptor
    await (fun k => (k.pipes.lookup pipe).any fun p =>
      count < if way.writes then p.outlets else p.inlets) none
    return descriptor

/-- The node that a path leads to, for a way of opening; it may be made. -/
def nodeToOpen (k : Kernel) (path : Octets) (way : OpenWay) : Except FileError (Nat × FileSystem) :=
  let fs := k.files
  if way.exclusive then
    match fs.spot .stay k.here path with
    | .error e => .error e
    | .ok s =>
      if s.node.isSome then .error .taken else fs.create k.here path (k.modeFor way.mode)
  else if way.creates then fs.create k.here path (k.modeFor way.mode)
  else
    match fs.find .follow k.here path with
    | .error e => .error e
    | .ok n => if way.writes && fs.isDirectory n then .error .isDirectory else .ok (n, fs)

/-- Opens a file; the descriptor, at least three. -/
def openFile (path : Octets) (way : OpenWay) : Act (Except FileError Nat) := do
  match descriptorNamed? path with
  | some d =>
    match ← duplicate d 3 with
    | some new => return .ok new
    | none => return .error .missing
  | none =>
    let found : Except FileError (Nat ⊕ Nat) ← access fun k =>
      match nodeToOpen k path way with
      | .error e => (.error e, k)
      | .ok (n, files) =>
        match files.form? n with
        | some .pipe => (.ok (.inl n), { k with files })
        | _ =>
          let files := if way.empties then files.setContent n [] else files
          let (d, k) := { k with files }.newStream ⟨.node n, 0, way.appends⟩ 3
          (.ok (.inr d), k)
    match found with
    | .error e => return .error e
    | .ok (.inl n) => return .ok (← openPipeNode n way)
    | .ok (.inr d) => return .ok d

/-! ### Reading and writing -/

/-- Keeps in mind that something went wrong on a descriptor. -/
def noteFault (descriptor : Nat) (e : FileError) : Act Unit :=
  change (·.adjustSelf fun p =>
    if p.faults.any (·.1 = descriptor) then p
    else { p with faults := (descriptor, e) :: p.faults })

/-- What went wrong on a descriptor, if anything did. -/
def fault? (descriptor : Nat) : Act (Option FileError) :=
  ofKernel fun k => k.self?.bind (·.faults.lookup descriptor)

/-- What went wrong does not matter any more. -/
def forgetFaults : Act Unit := change (·.adjustSelf fun p => { p with faults := [] })

/-- Takes the effort of so many steps. -/
def labour : Nat → Act Unit
  | 0 => return ()
  | n + 1 => do
    let _ ← look
    labour n

/-- So many bytes are kept or passed on with the effort of a step. -/
def bytesPerStep : Nat := 8

/-- Reads at most so many bytes from a descriptor; none if there are no more. -/
def read (descriptor limit : Nat) : Act (Except FileError Bytes) := do
  let result ← retry do
    let result : Option (Except FileError Bytes) ← access fun k =>
      match k.streamOf? descriptor with
      | none => (some (.error .badDescriptor), k)
      | some (n, s) =>
        match k.receive? n s limit with
        | some (.error e) => (some (.error e), k)
        | some (.ok (content, k)) => (some (.ok content), k)
        | none => (none, k)
    if result.isNone then
      await (fun k =>
        match k.streamOf? descriptor with
        | none => true
        | some (n, s) => (k.receive? n s 1).isSome) none
    return result
  match result with
  | .ok _ => return result
  | .error e =>
    noteFault descriptor e
    return result

/-- As many bytes are read at once. -/
def blockSize : Nat := 65536

/-- Reads everything that comes from a descriptor. Keeping it takes an effort, so that what never
comes to an end is held up at last. -/
def readAll (descriptor : Nat) : Act (Except FileError Bytes) :=
  iterate (fun (blocks : List Bytes) => do
    match ← read descriptor blockSize with
    | .error e => return .inr (.error e)
    | .ok [] => return .inr (.ok blocks.reverse.flatten)
    | .ok block =>
      labour (block.length / bytesPerStep)
      return .inl (block :: blocks)) []

/-- So far is looked ahead for the end of a line. -/
def lineStep : Nat := 512

/-- Reads up to the end of a line from a descriptor, and not more; without a line feed at the end
there are no more bytes. -/
def readLine (descriptor : Nat) : Act (Except FileError Bytes) :=
  iterate (fun (parts : List Bytes) => do
    let ahead : Option Bytes ← ofKernel fun k => do
      let (n, s) ← k.streamOf? descriptor
      match ← k.receive? n s lineStep with
      | .ok (content, _) => some content
      | .error _ => none
    let line := (ahead.getD []).takeWhile (· != 10)
    match ← read descriptor (if ahead.isSome then line.length + 1 else 1) with
    | .error e => return .inr (.error e)
    | .ok part =>
      if part.isEmpty || part.getLast? = some 10 then
        return .inr (.ok (part :: parts).reverse.flatten)
      else return .inl (part :: parts)) []

/-- Writes bytes to a descriptor, waiting where there is no room. A process that writes what nobody
reads is ended by a signal, unless it ignores that. -/
def write (descriptor : Nat) (content : Bytes) : Act (Except FileError Unit) :=
  iterate (fun (content : Bytes) => do
    if content.isEmpty then return .inr (.ok ())
    let result : Except FileError Nat ← access fun k =>
      match k.streamOf? descriptor with
      | none => (.error .badDescriptor, k)
      | some (n, s) =>
        match k.send n s content with
        | .error e => (.error e, k)
        | .ok (sent, k) => (.ok sent, k)
    match result with
    | .error .unread =>
      if (← look).self?.any (·.ignored.contains Signal.brokenPipe) then
        noteFault descriptor .unread
        return .inr (.error .unread)
      else finish (.signal Signal.brokenPipe)
    | .error e =>
      noteFault descriptor e
      return .inr (.error e)
    | .ok sent =>
      labour (sent / bytesPerStep)
      if sent = 0 then
        await (fun k =>
          match k.streamOf? descriptor with
          | none => true
          | some (n, s) =>
            match k.send n s [0] with
            | .ok (sent, _) => sent != 0
            | .error _ => true) none
      return .inl (content.drop sent)) content

/-- Writes a text to a descriptor, if that is possible. -/
def put (descriptor : Nat) (text : Octets) : Act Unit := do
  let _ ← write descriptor text.bytes

/-- Writes a text to the output. -/
def say (text : Octets) : Act Unit := put 1 text

/-- Writes a line to the output. -/
def sayLine (text : Octets) : Act Unit := say (text ++ ['\n'])

/-- Writes a line to the error output and gives an exit code. -/
def complain (code : Nat) (message : Octets) : Act Nat := do
  put 2 (message ++ ['\n'])
  return code

/-- Opens a file, does something with its descriptor and closes it. -/
def withFile (path : Octets) (way : OpenWay) (act : Nat → Act α) : Act (Except FileError α) := do
  match ← openFile path way with
  | .error e => return .error e
  | .ok d =>
    let a ← act d
    close d
    return .ok a

/-- The content of a file. -/
def contentOf (path : Octets) : Act (Except FileError Bytes) := do
  match ← withFile path .toRead readAll with
  | .error e => return .error e
  | .ok result => return result

/-! ### Time and processes -/

/-- Sleeps until a moment. -/
def sleepUntil (moment : Nat) : Act Unit := await (fun _ => false) (some moment)

/-- Takes the exit of a child that has come to its end; nothing is left of it. -/
def reap (pid : Nat) : Act Exit :=
  access fun k =>
    let exit := ((k.process? pid).bind (·.exit)).getD (.code 127)
    (exit, { k with processes := k.processes.filter (·.1 != pid) })

/-- Waits for the end of a child. It takes a while to hear of it, so that others go first. -/
def exitOf (pid : Nat) : Act Exit := do
  await (fun k => !(k.process? pid).any (·.exit.isNone)) none
  pause
  reap pid

/-- Sends a signal to a process; whether there is one. -/
def signal (pid n : Nat) : Act Bool := do
  let found ← access fun k =>
    if (k.process? pid).any (·.exit.isNone) then (true, k.signal pid n) else (false, k)
  pause
  return found

end Act

end MutationTesting
