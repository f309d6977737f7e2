import MutationTesting.Machine.Call
/-!
# Programs

A program does something under a name and with arguments, and ends with an exit code. A file can be
executed if its mode allows it and if it either holds the mark of a program, followed by the
program's name, or begins with a line that names its interpreter.

A name without a slash is looked up in the directories of the search path.

## Main definitions

* `Program`, `ProgramTable`
* `startOf`, `startOfNamed` — the program that a file stands for
* `Act.launch` — does what a program does in the place of everything else
-/

namespace MutationTesting

/-- What is done under a name and with arguments. -/
abbrev Program := Octets → List Octets → Act Nat

/-- Programs by their names. -/
abbrev ProgramTable := Octets → Option Program

/-- What begins the files of programs. -/
def programMark : Octets := '\x7f' :: ['E', 'L', 'F']

/-- A program that is to be started. -/
structure Start where
  program : Octets
  /-- The name under which it is called. -/
  name : Octets
  args : List Octets
  deriving DecidableEq

/-- So many interpreters may have interpreters of their own. -/
def interpreterLimit : Nat := 4

/-- The interpreter and its argument in the first line of a file. -/
def interpreterLine? (content : Octets) : Option (Octets × List Octets) :=
  match content with
  | '#' :: '!' :: rest =>
    let isBlank (c : Char) := c = ' ' || c = '\t'
    let line := (rest.takeWhile (· != '\n')).dropWhile isBlank
    let interpreter := line.takeWhile (!isBlank ·)
    let argument := (line.drop interpreter.length).dropWhile isBlank
    let argument := (argument.reverse.dropWhile isBlank).reverse
    if interpreter.isEmpty then none
    else some (interpreter, if argument.isEmpty then [] else [argument])
  | _ => none

/-- What is started when a file is executed. -/
def startOf (k : Kernel) (here : Nat) : Nat → Octets → Octets → List Octets →
    Except FileError Start
  | depth, path, name, args => do
    let n ← k.files.find .follow here path
    match k.files.node? n with
    | some ⟨.file bytes, mode, _⟩ =>
      if mode &&& 0o111 = 0 then throw .refused
      let content := Octets.ofBytes bytes
      if programMark.isPrefixOf content then
        return ⟨content.drop programMark.length, name, args⟩
      match interpreterLine? content, depth with
      | none, _ => throw .unsuitable
      | some _, 0 => throw .tooManyLinks
      | some (interpreter, argument), depth + 1 =>
        startOf k here depth interpreter interpreter (argument ++ path :: args)
    | _ => throw .refused

/-- Where programs are looked for, unless said otherwise. -/
def defaultSearchPath : Octets :=
  "/usr/local/sbin:/usr/local/bin:/usr/sbin:/usr/bin:/sbin:/bin".toList

/-- The paths at which a program is looked for. -/
def programPaths (searchPath name : Octets) : List Octets :=
  if name.contains '/' then [name]
  else
    (splitAt ':' searchPath).map fun directory =>
      if directory.isEmpty then name
      else if directory.getLast? = some '/' then directory ++ name
      else directory ++ '/' :: name

/-- What is started by the first of paths that leads to a file that can be executed, or else what
is wrong. -/
def startOfFirst (k : Kernel) (here : Nat) (name : Octets) (args : List Octets)
    (fault : FileError) : List Octets → Except FileError Start
  | [] => .error fault
  | path :: rest =>
    match startOf k here interpreterLimit path name args with
    | .ok s => .ok s
    | .error .missing | .error .notDirectory => startOfFirst k here name args fault rest
    | .error .refused => startOfFirst k here name args .refused rest
    | .error e => .error e

/-- What is started by a name: the first file that can be executed. -/
def startOfNamed (k : Kernel) (here : Nat) (searchPath name : Octets) (args : List Octets) :
    Except FileError Start :=
  if name.isEmpty then .error .missing
  else startOfFirst k here name args .missing (programPaths searchPath name)

/-- A file of a program. -/
def programFile (name : Octets) : Bytes := Octets.bytes (programMark ++ name)

namespace Act

variable {α : Type} (table : ProgramTable)

/-- The first descriptor that a program does not hand on to the programs that take its place. -/
def privateDescriptor : Nat := 10

/-- Does what a program does in the place of everything else. It takes a while to load a program, so
that others go first. -/
def perform (s : Start) : Act α := do
  pause
  change fun k =>
    (k.adjustSelf fun p => { p with
      caught := []
      faults := []
      descriptors := p.descriptors.filter (·.1 < privateDescriptor) }).tidy
  match table s.program with
  | some program => become (program s.name s.args)
  | none => finish (.code 127)

/-- Does what the program of a name does in the place of everything else; what is wrong if there is
none. A file without a mark is a script. -/
def launch (name : Octets) (args : List Octets) : Act FileError := do
  let k ← look
  let searchPath := (k.variableValue? "PATH".toList).getD defaultSearchPath
  match startOfNamed k k.here searchPath name args with
  | .ok s => perform table s
  | .error .unsuitable => perform table ⟨"sh".toList, name, name :: args⟩
  | .error e => return e

/-- Why there is no program of a name that could be launched, if there is none. -/
def launchFault? (name : Octets) : Act (Option FileError) := do
  let k ← look
  let searchPath := (k.variableValue? "PATH".toList).getD defaultSearchPath
  match startOfNamed k k.here searchPath name [] with
  | .ok _ | .error .unsuitable => return none
  | .error e => return some e

/-- Starts the program of a name; its number. It ends at once if there is none. -/
def spawn (name : Octets) (args : List Octets) (fault : FileError → Act Nat) : Act Nat :=
  fork do fault (← launch table name args)

end Act

end MutationTesting
