import MutationTesting.Tool.Timing
/-!
# Locks

The program `flock`: takes a lock on a file, either for as long as another program runs or through a
descriptor that is already open, in which case the lock lasts until nobody has the stream open any
more. Whoever finds the file locked waits, unless told not to.

## Main definitions

* `lockThrough` — locks a file through a stream
* `flock`
-/

namespace MutationTesting.Tool

open Act

/-- Locks a file through a stream, waiting at most until a moment; whether that was possible. A lock
that the stream had before is given up even if the new one is not to be had. -/
def lockThrough (stream node : Nat) (shared : Bool) (moment : Option Nat) : Act Bool :=
  retry do
    let taken ← access fun k =>
      match k.lock? (.stream stream) node shared with
      | some k => (true, k)
      | none => (false, k.unlock (.stream stream) node)
    let now := (← look).clock
    if taken then return some true
    else if moment.any (· ≤ now) then return some false
    else
      await (fun k => (k.lock? (.stream stream) node shared).isSome) moment
      return none

/-- The options of `flock`. -/
def lockForms : List OptionForm := [flag 's' "shared", flag 'e' "exclusive", flag 'x',
  flag 'u' "unlock", flag 'n' "nonblocking", longFlag 'n' "nb", valued 'w' "timeout",
  longValued 'w' "wait", flag 'o' "close", flag 'F' "no-fork", flag 'v' "verbose",
  valued 'E' "conflict-exit-code"]

/-- What is to be done with a lock, as options say. -/
structure LockWish where
  shared : Bool
  /-- A lock is given up, not taken. -/
  releases : Bool
  /-- How long is waited for the lock, in milliseconds, if not forever. -/
  patience : Option Nat
  /-- The code that says that the lock is not to be had. -/
  conflict : Nat
  verbose : Bool

/-- The wish that options express. -/
def LockWish.ofOptions (o : Options) : Except Octets LockWish := do
  let patience ← match o.last? 'w' with
    | none => pure none
    | some word =>
      let isPlain := word.all fun c => c.isDigit || c = '.'
      match if isPlain then Duration.ofText? word else none with
      | some (.finite time) => pure (some time)
      | _ => throw (octets "invalid timeout value: " ++ quoted word)
  let conflict ← match o.last? 'E' with
    | none => pure 1
    | some word =>
      match intOf? word with
      | none => throw (octets "invalid exit code: " ++ quoted word)
      | some n =>
        if n < 0 || 255 < n then
          throw (octets "exit code out of range (expected 0 to 255)")
        else pure n.toNat
  if o.has 'F' && o.has 'o' then
    throw (octets "the --no-fork and --close options are incompatible")
  let kind := o.latest? ['s', 'e', 'x', 'u']
  return ⟨kind = some 's', kind = some 'u', if o.has 'n' then some 0 else patience, conflict,
    o.has 'v'⟩

/-- Does to the lock of a descriptor what is wished, and then something else with the words about
it, unless the lock is not to be had. -/
def withLock (name : Octets) (descriptor : Nat) (wish : LockWish)
    (act : Octets → Act Nat) : Act Nat := do
  let k ← look
  match k.streamOf? descriptor with
  | none => complain 65 (name ++ octets ": " ++ Decimal.natText descriptor ++ octets ": "
      ++ octets FileError.badDescriptor.message)
  | some (stream, s) =>
    let taken ← match s.channel with
      | .node n =>
        if wish.releases then do
          change (·.unlock (.stream stream) n)
          pure true
        else lockThrough stream n wish.shared (wish.patience.map (k.clock + ·))
      | _ => pure true
    if taken then
      let took := (← look).clock - k.clock
      let digits := Decimal.natText (took % 1000)
      act (if wish.verbose then
          name ++ octets ": getting lock took " ++ Decimal.natText (took / 1000)
            ++ '.' :: List.replicate (3 - digits.length) '0' ++ digits ++ octets "000 seconds\n"
        else [])
    else if wish.verbose then
      complain wish.conflict (name ++ octets (if wish.patience.any (0 < ·)
        then ": timeout while waiting to get lock" else ": failed to get lock"))
    else return wish.conflict

/-- Opens a file to lock it; it is made unless it is there. -/
def openToLock (path : Octets) : Act (Except FileError Nat) := do
  if ← ofFiles fun files here => (files.find .follow here path).toOption.any files.isDirectory then
    openFile path .toRead
  else openFile path { reads := true, creates := true }

/-- Locks a file, for another program or through a descriptor. -/
def flock (table : ProgramTable) : Program := fun name args => do
  let blame (code : Nat) (text : Octets) : Act Nat := complain code (name ++ octets ": " ++ text)
  if args.isEmpty then misuse name 64 (octets "not enough arguments")
  else
    match readOptions lockForms true args with
    | .error message => misuse name 64 message
    | .ok (o, operands) =>
      match LockWish.ofOptions o with
      | .error message => blame 64 message
      | .ok wish =>
        match operands with
        | [] => blame 64 (octets "requires file descriptor, file or directory")
        | [word] =>
          match natOf? word with
          | none => blame 64 (octets "bad file descriptor: " ++ quoted word)
          | some descriptor => withLock name descriptor wish sayAll
        | path :: program :: args =>
          let isCommand := program = octets "-c" || program = octets "--command"
          if isCommand && args.length != 1 then
            blame 64 (program ++ octets " requires exactly one command argument")
          else
            let shell := ((← variableValue? "SHELL").filter (!·.isEmpty)).getD (octets "/bin/sh")
            let (program, args) :=
              if isCommand then (shell, octets "-c" :: args) else (program, args)
            match ← openToLock path with
            | .error e =>
              blame 66 (octets "cannot open lock file " ++ path ++ octets ": " ++ octets e.message)
            | .ok descriptor =>
              withLock name descriptor wish fun words => do
                let run : Act Nat := do
                  if o.has 'o' then close descriptor
                  let e ← launch table program args
                  blame 69 (octets "failed to execute " ++ program ++ octets ": "
                    ++ octets e.message)
                if o.has 'F' then run
                else
                  let code := Shell.codeOf (← exitOf (← fork run))
                  if wish.verbose then
                    say (words ++ name ++ octets ": executing " ++ program ++ ['\n'])
                  return code

end MutationTesting.Tool
