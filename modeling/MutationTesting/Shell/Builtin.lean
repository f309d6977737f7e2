import MutationTesting.Shell.Expansion
import MutationTesting.Shell.Job
import MutationTesting.Shell.Tracking
import MutationTesting.Tool.Condition
import MutationTesting.Tool.File
import MutationTesting.Tool.Print
/-!
# Builtins

The commands of a shell that are no programs: they print, test, and read and change what the shell
knows. A builtin ends with a code or with a complaint. A complaint of a special builtin ends the
script.

## Main definitions

* `Builtin`
* `plainBuiltin?` — the builtins that need no other commands
* `isSpecial`
-/

namespace MutationTesting.Shell

/-- A command of a shell: a code, or a complaint. -/
abbrev Builtin := List Octets → Sh (Except Octets Nat)

/-- A complaint of a builtin that does not end it. -/
def warn (name message : Octets) : Sh Unit := complain (name ++ octets ": " ++ message)

/-- The number that an argument is. -/
def argumentNumber (word : Octets) : Except Octets Nat :=
  match Tool.natOf? word with
  | some n => .ok n
  | none => .error (octets "Illegal number: " ++ word)

/-- The letters that a word of options holds, up to one that has an argument. The next word is its
argument if nothing follows it; then the result says so. -/
def optionLettersIn (known : Octets) (next : Option Octets) :
    Octets → Except Octets (List (Char × Octets) × Bool)
  | [] => .ok ([], false)
  | c :: rest =>
    match if c = ':' then [] else known.dropWhile (· != c) with
    | [] => .error (octets "Illegal option -" ++ [c])
    | _ :: ':' :: _ =>
      match rest, next with
      | _ :: _, _ => .ok ([(c, rest)], false)
      | [], some argument => .ok ([(c, argument)], true)
      | [], none => .error (octets "No arg for -" ++ c :: octets " option")
    | _ => (optionLettersIn known next rest).map fun (options, used) => ((c, []) :: options, used)

/-- The options among arguments, and the arguments after them. A colon stands after each letter
that has an argument. -/
def splitOptions (known : String) : List Octets → Except Octets (List (Char × Octets) × List Octets)
  | ['-', '-'] :: rest => .ok ([], rest)
  | ('-' :: c :: cs) :: rest =>
    match optionLettersIn known.toList rest.head? (c :: cs) with
    | .error e => .error e
    | .ok (options, false) =>
      (splitOptions known rest).map fun (more, args) => (options ++ more, args)
    | .ok (options, true) =>
      match rest with
      | _ :: rest => (splitOptions known rest).map fun (more, args) => (options ++ more, args)
      | [] => .ok (options, [])
  | args => .ok ([], args)

/-- A builtin with options. -/
def withLetters (known : String) (b : List (Char × Octets) → Builtin) : Builtin := fun args =>
  match splitOptions known args with
  | .error e => return .error e
  | .ok (options, args) => b options args

/-! ### Printing and testing -/

/-- Writes its arguments. -/
def echoBuiltin : Builtin := fun args => do
  tell (if (← get).extended then Tool.plainEchoText args else Tool.echoText args)
  return .ok 0

/-- Writes its arguments in a format. -/
def printfBuiltin : Builtin := withLetters "" fun _ args => do
  match args with
  | [] => return .error (octets "usage: printf format [arg ...]")
  | format :: args =>
    let (text, faults, code) := Tool.printf false format args
    tell text
    faults.forM (warn (octets "printf"))
    return .ok code

/-- Tests a condition under one of its names. -/
def testBuiltin (name : String) : Builtin := fun args => do
  let k ← act Act.look
  let manner := if (← get).extended then { Tool.shellTest with double := true } else Tool.shellTest
  match Tool.test manner k name.toList args with
  | (code, none) => return .ok code
  | (_, some message) => return .error message

/-! ### Directories -/

/-- An absolute path without dots. -/
def normalPath (path : Octets) : Octets :=
  let names := (splitAt '/' path).foldl (fun (done : List Octets) name =>
    if name = [] || name = ['.'] then done
    else if name = ['.', '.'] then done.drop 1
    else name :: done) []
  if names.isEmpty then ['/'] else names.reverse.flatMap ('/' :: ·)

/-- Gives an exported parameter a value. -/
def assignExported (name : String) (value : Octets) : Sh Unit := do
  assign (octets name) value
  modify fun s => { s with
    bindings := s.bindings.map fun (n, v) =>
      (n, if n = octets name then { v with exported := true } else v) }

/-- The directories at which a name is looked for when the directory is changed, with whether they
are shown. -/
def directoryCandidates (searchPath : Option Octets) (target : Octets) : List (Octets × Bool) :=
  let first := target.takeWhile (· != '/')
  if target.head? = some '/' || first = ['.'] || first = ['.', '.'] then []
  else
    (searchPath.elim [] (splitAt ':')).map fun place =>
      if place.isEmpty then (target, false) else (place ++ '/' :: target, true)

/-- Changes the directory. -/
def cdBuiltin : Builtin := withLetters "LP" fun options args => do
  let s ← get
  let physical := options.getLast?.any (·.1 = 'P')
  let goesBack := args.head? = some ['-']
  let target := match args with
    | [] => (s.value? (octets "HOME")).getD []
    | ['-'] :: _ => (s.value? (octets "OLDPWD")).getD []
    | path :: _ => path
  let target := if target.isEmpty then ['.'] else target
  let k ← act Act.look
  let isDirectory (path : Octets) : Bool :=
    match k.files.find .follow k.here path with
    | .ok n => k.files.isDirectory n
    | .error _ => false
  let candidates := directoryCandidates (s.value? (octets "CDPATH")) target
  let (path, isFound) := (candidates.find? fun c => isDirectory c.1).getD (target, false)
  let logical := normalPath (if path.head? = some '/' then path else s.directory ++ '/' :: path)
  let moved ← act <| Act.access fun k =>
    match k.files.find .follow k.here (if physical then path else logical) with
    | .ok n =>
      if k.files.isDirectory n then
        (some (if physical then (k.files.pathTo? n).getD logical else logical),
          k.adjustSelf fun p => { p with directory := n })
      else (none, k)
    | .error _ => (none, k)
  match moved with
  | none => return .error (octets "can't cd to " ++ target)
  | some path =>
    modify fun s => { s.moved with directory := path }
    assignExported "OLDPWD" s.directory
    assignExported "PWD" path
    if goesBack || isFound then tellLine path
    return .ok 0

/-- Writes the directory. -/
def pwdBuiltin : Builtin := withLetters "LP" fun options _ => do
  let s ← get
  if options.getLast?.any (·.1 = 'P') then
    let path ← act (.ofKernel fun k => k.files.pathTo? k.here)
    tellLine (path.getD s.directory)
  else tellLine s.directory
  return .ok 0

/-- Shows or sets the bits that the modes of new files do not have. -/
def umaskBuiltin : Builtin := withLetters "S" fun options args => do
  let mask ← act Tool.ownMask
  match args with
  | [] =>
    if options.isEmpty then
      let digits := Nat.toDigits 8 mask
      tellLine (List.replicate (4 - digits.length) '0' ++ digits)
    else
      let letters (shift : Nat) : Octets :=
        let bits := (mask >>> shift &&& 7) ^^^ 7
        [(4, 'r'), (2, 'w'), (1, 'x')].filterMap fun (bit, c) =>
          if bits &&& bit != 0 then some c else none
      tellLine (octets "u=" ++ letters 6
        ++ octets ",g=" ++ letters 3 ++ octets ",o=" ++ letters 0)
    return .ok 0
  | word :: _ =>
    let setMask (mask : Nat) : Sh (Except Octets Nat) := do
      act (.change (·.adjustSelf fun p => { p with mask := mask &&& 0o777 }))
      return .ok 0
    if word.all Char.isDigit then
      match digitsIn? 8 word with
      | some mask => setMask mask
      | none => return .error (octets "Illegal number: " ++ word)
    else
      match Tool.modeFunction? 0 word with
      | some f => setMask (f false (mask ^^^ 0o777) ^^^ 0o777)
      | none => return .error (octets "Illegal mode: " ++ word)

/-! ### Parameters -/

/-- A value as it can be written in a script: single quotes stand between double ones, and all else
between single ones. -/
def quotedValue (value : Octets) : Octets :=
  go false ['\''] value
where
  /-- The text that was written, the last character first, and what is left. -/
  go (double : Bool) (written : Octets) : Octets → Octets
    | [] => ((if double then '"' else '\'') :: written).reverse
    | c :: rest =>
      if c = '\'' then go true (if double then c :: written else c :: '"' :: '\'' :: written) rest
      else go false (if double then c :: '\'' :: '"' :: written else c :: written) rest

/-- Name and value of an argument. -/
def nameAndValue (word : Octets) : Octets × Option Octets :=
  let name := word.takeWhile (· != '=')
  (name, if name.length = word.length then none else some (word.drop (name.length + 1)))

/-- Changes a parameter, which may have no value. -/
def adjustVariable (name : Octets) (f : Variable → Variable) : Sh Unit :=
  modify fun s =>
    let old := (s.bindings.lookup name).getD ⟨none, false, false⟩
    { s with bindings := (name, f old) :: s.bindings.filter (·.1 != name) }

/-- Shows the parameters that are chosen, each as a command. -/
def showVariables (command : Octets) (chosen : Variable → Bool) : Sh Unit := do
  let lines := ((← get).bindings.filter fun v => chosen v.2).map fun (name, v) =>
    command ++ name ++ (match v.value with
      | some value => '=' :: quotedValue value
      | none => [])
  tell (Tool.ofLines (lines.mergeSort Octets.precedes))

/-- Marks parameters and gives them values; shows those that are marked if there are no arguments.
-/
def markBuiltin (command : String) (chosen : Variable → Bool) (f : Variable → Variable) :
    Builtin := withLetters "p" fun _ args => do
  if args.isEmpty then
    showVariables (octets command ++ [' ']) chosen
    return .ok 0
  for word in args do
    let (name, value) := nameAndValue word
    if !isName name then return .error (name ++ octets ": bad variable name")
    match value with
    | some value => assign name value
    | none => pure ()
    adjustVariable name f
  return .ok 0

/-- Takes away parameters or commands. -/
def unsetBuiltin : Builtin := withLetters "vf" fun options args => do
  let commands := options.getLast?.any (·.1 = 'f')
  for name in args do
    if commands then
      modify fun s => { s with functions := s.functions.filter (·.1 != name) }
    else if !isName name then return .error (name ++ octets ": bad variable name")
    else if ((← get).bindings.lookup name).any (·.fixed) then
      return .error (name ++ octets ": is read only")
    else modify (·.withOld [(name, none)])
  return .ok 0

/-- Takes parameters over for the command that is being carried out. -/
def localBuiltin : Builtin := fun args => do
  for word in args do
    let (name, value) := nameAndValue word
    if !isName name then return .error (name ++ octets ": bad variable name")
    let s ← get
    match s.taken with
    | [] => return .error (octets "not in a function")
    | frame :: rest =>
      if !frame.any (·.1 = name) then
        set { s with taken := ((name, s.bindings.lookup name) :: frame) :: rest }
      match value with
      | some value => assign name value
      | none => pure ()
  return .ok 0

/-- Options with their letters. -/
def optionNames : List (String × Char) :=
  [("errexit", 'e'), ("noglob", 'f'), ("ignoreeof", 'I'), ("interactive", 'i'), ("monitor", 'm'),
    ("noexec", 'n'), ("stdin", 's'), ("xtrace", 'x'), ("verbose", 'v'), ("vi", 'V'),
    ("emacs", 'E'), ("noclobber", 'C'), ("allexport", 'a'), ("notify", 'b'), ("nounset", 'u')]

/-- Sets an option or takes it back. -/
def setOption (on : Bool) (letter : Char) : Sh Unit :=
  modify fun s => { s with
    options := s.options.filter (· != letter) ++ if on then [letter] else [] }

/-- Shows which options are set, or how to set them again. -/
def showOptions (asTable : Bool) : Sh Unit := do
  let s ← get
  let names := optionNames.map (fun (name, letter) => (name, s.has letter)) ++
    [("privileged", false), ("nolog", false), ("debug", false)]
  let lines := names.map fun (name, on) =>
    if asTable then octets (name ++ String.ofList (List.replicate (16 - name.length) ' ')
      ++ if on then "on" else "off")
    else octets ((if on then "set -o " else "set +o ") ++ name)
  tell (Tool.ofLines (if asTable then octets "Current option settings" :: lines else lines))

/-- Reads options from the arguments of `set`; what is left if arguments follow. -/
def readOptions : List Octets → Sh (Except Octets (Option (List Octets)))
  | [] => return .ok none
  | ['-'] :: rest => do
    setOption false 'x'
    return .ok (if rest.isEmpty then none else some rest)
  | ['-', '-'] :: rest => return .ok (some rest)
  | [sign, 'o'] :: rest => do
    if sign != '-' && sign != '+' then return .ok (some ([sign, 'o'] :: rest))
    match rest with
    | [] =>
      showOptions (sign = '-')
      return .ok none
    | name :: rest =>
      match optionNames.lookup (String.ofList name) with
      | some letter =>
        setOption (sign = '-') letter
        readOptions rest
      | none => return .error (octets "Illegal option -o " ++ name)
  | (sign :: c :: cs) :: rest => do
    if sign != '-' && sign != '+' then return .ok (some ((sign :: c :: cs) :: rest))
    for letter in c :: cs do
      if optionNames.any (·.2 = letter) then setOption (sign = '-') letter
      else return .error (octets "Illegal option -" ++ [letter])
    readOptions rest
  | args => return .ok (some args)

/-- Sets options and the arguments of the script. -/
def setBuiltin : Builtin := fun args => do
  if args.isEmpty then
    showVariables [] fun v => v.value.isSome
    return .ok 0
  match ← readOptions args with
  | .error e => return .error e
  | .ok none => return .ok 0
  | .ok (some args) =>
    modify fun s => { s with arguments := args, optionOffset := 0 }
    return .ok 0

/-- Takes away the first arguments. -/
def shiftBuiltin : Builtin := fun args => do
  match (args.head?.map argumentNumber).getD (.ok 1) with
  | .error e => return .error e
  | .ok n =>
    if (← get).arguments.length < n then return .error (octets "can't shift that many")
    modify fun s => { s with arguments := s.arguments.drop n }
    return .ok 0

/-! ### Reading -/

/-- A line in which backslashes have a meaning: characters, and which of them stand for themselves;
and whether the line goes on. -/
def unescapeLine : Octets → Marked × Bool
  | [] => ([], false)
  | ['\\'] => ([], true)
  | '\\' :: c :: rest =>
    let (more, on) := unescapeLine rest
    ((c, true) :: more, on)
  | c :: rest =>
    let (more, on) := unescapeLine rest
    ((c, false) :: more, on)

/-- Reads a line; whether it ended before the input did. -/
def readInput (raw : Bool) : Nat → Act (Marked × Bool)
  | 0 => return ([], false)
  | n + 1 => do
    match ← Act.readLine 0 with
    | .error _ => return ([], false)
    | .ok bytes =>
      let text := (Octets.ofBytes bytes).filter (· != '\x00')
      let ended := text.getLast? = some '\n'
      let line := if ended then text.dropLast else text
      if raw then return (line.map (·, false), ended)
      else
        let (marked, on) := unescapeLine line
        if on && ended then
          let (more, ended) ← readInput raw n
          return (marked ++ more, ended)
        else return (marked, ended)

/-- The separators at the beginning of a text: blank ones, and one that is not. -/
def dropSeparators (isBlank isOther : Char × Bool → Bool) (text : Marked) : Marked :=
  let text := text.dropWhile isBlank
  match text with
  | c :: rest => if isOther c then rest.dropWhile isBlank else text
  | [] => []

/-- A text cut into so many fields, the last of which has all that is left. -/
def cutInto (ifs : Octets) : Nat → Marked → List Octets
  | 0, _ => []
  | n + 1, text =>
    let isBlank (c : Char × Bool) :=
      !c.2 && ifs.contains c.1 && (c.1 = ' ' || c.1 = '\t' || c.1 = '\n')
    let isOther (c : Char × Bool) := !c.2 && ifs.contains c.1 && !isBlank c
    let text := text.dropWhile isBlank
    let field := text.takeWhile fun c => !isBlank c && !isOther c
    let rest := dropSeparators isBlank isOther (text.drop field.length)
    if n = 0 then
      let whole := if rest.isEmpty then field else (text.reverse.dropWhile isBlank).reverse
      [whole.map (·.1)]
    else field.map (·.1) :: cutInto ifs n rest

/-- Reads a line into parameters. -/
def readBuiltin : Builtin := withLetters "p:r" fun options names => do
  let raw := options.any (·.1 = 'r')
  let names := if names.isEmpty && (← get).extended then [octets "REPLY"] else names
  if names.isEmpty then return .error (octets "arg count")
  match names.find? (!isName ·) with
  | some name => return .error (name ++ octets ": bad variable name")
  | none => pure ()
  let (text, ended) ← act (readInput raw 1000000)
  let fields := cutInto (separators (← get)) names.length text
  (names.zip fields).forM fun (name, value) => assign name value
  return .ok (if ended then 0 else 1)

/-- The next option among words: its letter and its argument, what is wrong with it, and the place
after it. -/
inductive OptionFound where
  | none
  | option (letter : Char) (argument : Option Octets) (index offset : Nat)
  | unknown (letter : Char) (index offset : Nat)
  | lacking (letter : Char) (index offset : Nat)

/-- Looks for the next option from a place on: the number of a word, from one on, and how far it
has been read. -/
def nextOption (letters : Octets) (words : List Octets) (index offset : Nat) : OptionFound × Nat :=
  match words[index - 1]? with
  | some ('-' :: c :: cs) =>
    if c = '-' && cs.isEmpty then (.none, index + 1)
    else
      let text := c :: cs
      let letter := (text[offset]?).getD c
      let rest := text.drop (offset + 1)
      let after := letters.dropWhile (· != letter)
      let (nextIndex, nextOffset) := if rest.isEmpty then (index + 1, 0) else (index, offset + 1)
      if letter = ':' || after.isEmpty then (.unknown letter nextIndex nextOffset, nextIndex)
      else if after[1]? = some ':' then
        if rest.isEmpty then
          match words[index]? with
          | some argument => (.option letter (some argument) (index + 2) 0, index + 2)
          | none => (.lacking letter (index + 1) 0, index + 1)
        else (.option letter (some rest) (index + 1) 0, index + 1)
      else (.option letter none nextIndex nextOffset, nextIndex)
  | _ => (.none, index)

/-- Reads the next option of the script. -/
def getoptsBuiltin : Builtin := withLetters "" fun _ args => do
  match args with
  | letters :: name :: words =>
    let s ← get
    let words := if words.isEmpty then s.arguments else words
    let index := max 1 (((s.value? (octets "OPTIND")).bind Tool.natOf?).getD 1)
    let silent := letters.head? = some ':'
    let letters := letters.dropWhile (· = ':')
    let (found, next) := nextOption letters words index s.optionOffset
    let place (index offset : Nat) : Sh Unit := do
      modify fun s => { s with optionOffset := offset }
      assign (octets "OPTIND") (Decimal.natText index)
    let dropArgument : Sh Unit :=
      modify fun s => { s with bindings := s.bindings.filter (·.1 != octets "OPTARG") }
    match found with
    | .none =>
      place next 0
      dropArgument
      assign name ['?']
      return .ok 1
    | .option letter argument index offset =>
      place index offset
      match argument with
      | some a => assign (octets "OPTARG") a
      | none => dropArgument
      assign name [letter]
      return .ok 0
    | .unknown letter index offset =>
      place index offset
      if silent then assign (octets "OPTARG") [letter]
      else
        act (.put 2 (octets "Illegal option -" ++ [letter, '\n']))
        dropArgument
      assign name ['?']
      return .ok 0
    | .lacking letter index offset =>
      place index offset
      if silent then
        assign (octets "OPTARG") [letter]
        assign name [':']
      else
        act (.put 2 (octets "No arg for -" ++ letter :: octets " option\n"))
        dropArgument
        assign name ['?']
      return .ok 0
  | _ => return .error (octets "Usage: getopts optstring var [arg]")

/-! ### Jumps -/

/-- Leaves the script. -/
def exitBuiltin : Builtin := fun args => do
  match args.head? with
  | none => throw (.quit (← get).status)
  | some word =>
    match argumentNumber word with
    | .ok n => throw (.quit (n % 256))
    | .error e => return .error e

/-- Leaves the command that is being carried out. -/
def returnBuiltin : Builtin := fun args => do
  match args.head? with
  | none => throw (.giveBack (← get).status)
  | some word =>
    match argumentNumber word with
    | .ok n => throw (.giveBack n)
    | .error e => return .error e

/-- Leaves loops, or goes on with one of them. -/
def loopBuiltin (jump : Nat → Jump) : Builtin := fun args => do
  match (args.head?.map argumentNumber).getD (.ok 1) with
  | .error e => return .error e
  | .ok 0 => return .error (octets "Illegal number: 0")
  | .ok n =>
    let loops := (← get).loops
    if loops = 0 then return .ok 0
    setStatus 0
    throw (jump (min n loops))

/-! ### Signals and jobs -/

/-- Sends a signal to a process, or to a group of them; whether there is any. -/
def sendSignal (target : Int) (signal : Nat) : Act Bool := do
  if 0 < target then Act.signal target.toNat signal
  else
    let found ← Act.access fun k =>
      let group := if target = 0 then (k.self?.map (·.group)).getD 0 else target.natAbs
      let members := k.processes.filter fun (_, p) => p.group = group && p.exit.isNone
      (!members.isEmpty, members.foldl (fun k (pid, _) => k.signal pid signal) k)
    Act.pause
    return found

/-- The signal that is asked for, whether names are asked for, and the words that are left. -/
def killRequest (args : List Octets) : Except Octets (Option Nat × Bool × List Octets) := do
  match args with
  | ('-' :: text) :: rest =>
    match Signal.number? text with
    | some n => return (some n, false, rest)
    | none =>
      let (options, words) ← splitOptions "ls:" args
      let signals ← (options.filter (·.1 = 's')).mapM fun (_, name) =>
        match Signal.number? name with
        | some n => .ok n
        | none => .error (octets "invalid signal number or name: " ++ name)
      return (signals.getLast?, options.any (·.1 = 'l'), words)
  | words => return (none, false, words)

/-- Sends signals to processes and jobs, or shows names of signals. -/
def killBuiltin : Builtin := fun args => do
  let usage : Octets := octets
    "Usage: kill [-s sigspec | -signum | -sigspec] [pid | job]... or\nkill -l [exitstatus]"
  match killRequest args with
  | .error message => return .error message
  | .ok (_, true, []) =>
    tell (Tool.ofLines (['0'] :: Signal.allNames.map (·.toList)))
    return .ok 0
  | .ok (none, true, word :: _) =>
    match Tool.natOf? word with
    | none => return .error (octets "Illegal number: " ++ word)
    | some n =>
      match Signal.name? (if 128 < n then n - 128 else n) with
      | some name =>
        tellLine name.toList
        return .ok 0
      | none => return .error (octets "invalid signal number or exit status: " ++ word)
  | .ok (some _, true, _ :: _) | .ok (_, false, []) => return .error usage
  | .ok (signal, false, targets) =>
    let s ← get
    let mut code := 0
    for word in targets do
      -- A job is meant as a group, which it is not unless jobs are controlled.
      let target? : Except Octets Int :=
        match word with
        | '%' :: _ => (findJob s word).map fun job => -((job.pids.headD 0 : Nat) : Int)
        | '-' :: digits => (argumentNumber digits).map fun n => -(n : Int)
        | digits => (argumentNumber digits).map fun n => (n : Int)
      match target? with
      | .error message => return .error message
      | .ok target =>
        if !(← act (sendSignal target (signal.getD Signal.terminate))) then
          warn (octets "kill") (octets "No such process\n")
          code := 1
    return .ok code

/-- Tells the kernel which signals the shell deals with. -/
def registerTraps : Sh Unit := do
  let s ← get
  act <| Act.change (·.adjustSelf fun p => { p with
    caught := s.traps.filterMap fun (n, script) => if script.isEmpty then none else some n
    ignored := (p.ignored.filter fun n => !(s.traps.any (·.1 = n))) ++
      s.traps.filterMap fun (n, script) => if script.isEmpty then some n else none })

/-- Sets what is done on signals. -/
def trapBuiltin : Builtin := withLetters "" fun _ args => do
  match args with
  | [] =>
    let lines := (← get).traps.mergeSort (fun a b => a.1 ≤ b.1) |>.map fun (n, script) =>
      octets "trap -- " ++ quotedValue script ++ [' '] ++
        octets (if n = 0 then "EXIT" else (Signal.name? n).getD "")
    tell (Tool.ofLines lines)
    return .ok 0
  | first :: rest =>
    let (script, signals) : Option Octets × List Octets :=
      if rest.isEmpty then (none, [first])
      else if first = ['-'] || (Tool.natOf? first).isSome then
        (none, if first = ['-'] then rest else first :: rest)
      else (some first, rest)
    let known := signals.takeWhile fun word => (Signal.number? word).isSome
    let gone := known.filterMap Signal.number?
    modify fun s => { s with
      traps := s.traps.filter (!gone.contains ·.1) ++ gone.eraseDups.flatMap fun n =>
        (script.map (n, ·)).toList }
    if script.isNone then
      act <| Act.change (·.adjustSelf fun p => { p with
        ignored := p.ignored.filter (!gone.contains ·) })
    registerTraps
    match signals.drop known.length with
    | [] => return .ok 0
    | word :: _ =>
      act (.put 2 (octets "trap: " ++ word ++ octets ": bad trap\n"))
      return .ok 1

/-- Waits for jobs. What is no job is passed over. -/
def waitBuiltin : Builtin := withLetters "" fun _ words => do
  if words.isEmpty then return .ok (← awaitJobs)
  let mut code := 127
  for word in words do
    let s ← get
    let job? : Except Octets (Option Job) :=
      if word.head? = some '%' then (findJob s word).map some
      else (argumentNumber word).map fun pid => s.jobs.find? (·.pids.getLast? = some pid)
    match job? with
    | .error message => return .error message
    | .ok none => pure ()
    | .ok (some job) =>
      let (n, isSignal) ← awaitJob job
      code := n
      if isSignal then return .ok code
  return .ok code

/-- Lists jobs. Those that have come to their ends are then forgotten. -/
def jobsBuiltin : Builtin := withLetters "lp" fun options words => do
  collectJobs
  let s ← get
  match if words.isEmpty then .ok s.jobs else words.mapM (findJob s) with
  | .error message => return .error message
  | .ok jobs =>
    for job in jobs do
      let s ← get
      match options.getLast? with
      | some ('p', _) => tellLine (Decimal.natText (job.pids.headD 0))
      | letter => tell (shownJob s letter.isSome job)
      if job.exit.isSome && !options.any (·.1 = 'p') then
        modify fun s => { s with jobs := s.jobs.filter (·.number != job.number) }
    return .ok 0

/-! ### All of them -/

/-- A builtin that does nothing. -/
def idle (code : Nat) : Builtin := fun _ => return .ok code

/-- Shows what is not limited. -/
def ulimitBuiltin : Builtin := fun args => do
  if (Tool.intOf? (args.getLast?.getD [])).isNone then tellLine (octets "unlimited")
  return .ok 0

/-- Shows the times that were used. -/
def timesBuiltin : Builtin := fun _ => do
  tell (octets "0m0.000000s 0m0.000000s\n0m0.000000s 0m0.000000s\n")
  return .ok 0

/-- Goes on with a job. There is none that stands still. -/
def resumeBuiltin : Builtin := withLetters "" fun _ words => do
  let s ← get
  return .error (match findJob s (words.headD ['%']) with
    | .error message => message
    | .ok _ =>
      octets "job " ++ words.headD (octets "(null)") ++ octets " not created under job control")

/-- Gives words texts that take their places, or shows them. -/
def aliasBuiltin : Builtin := withLetters "" fun _ args => do
  let display (name text : Octets) : Sh Unit := tellLine (name ++ '=' :: quotedValue text)
  if args.isEmpty then
    for (name, text) in (← get).aliases do display name text
    return .ok 0
  let mut code := 0
  for word in args do
    match nameAndValue word with
    | (name, some text) =>
      modify fun s => { s with aliases := s.aliases.filter (·.1 != name) ++ [(name, text)] }
    | (name, none) =>
      match (← get).aliases.lookup name with
      | some text => display name text
      | none =>
        act (.put 2 (octets "alias: " ++ name ++ octets " not found\n"))
        code := 1
  return .ok code

/-- Takes such texts back. -/
def unaliasBuiltin : Builtin := withLetters "a" fun options args => do
  if !options.isEmpty then modify fun s => { s with aliases := [] }
  let mut code := 0
  for name in args do
    if !(← get).aliases.any (·.1 = name) then
      act (.put 2 (octets "unalias: " ++ name ++ octets " not found\n"))
      code := 1
    modify fun s => { s with aliases := s.aliases.filter (·.1 != name) }
  return .ok code

/-- The builtins that need no other commands. -/
def plainBuiltins : List (String × Builtin) :=
  [(":", idle 0), ("true", idle 0), ("false", idle 1), ("jobs", jobsBuiltin),
    ("alias", aliasBuiltin), ("unalias", unaliasBuiltin), ("fg", resumeBuiltin),
    ("bg", resumeBuiltin),
    ("echo", echoBuiltin), ("printf", printfBuiltin), ("test", testBuiltin "test"),
    ("[", testBuiltin "["), ("cd", cdBuiltin), ("chdir", cdBuiltin), ("pwd", pwdBuiltin),
    ("umask", umaskBuiltin), ("ulimit", ulimitBuiltin), ("times", timesBuiltin),
    ("export", markBuiltin "export" (·.exported) fun v => { v with exported := true }),
    ("readonly", markBuiltin "readonly" (·.fixed) fun v => { v with fixed := true }),
    ("unset", unsetBuiltin), ("local", localBuiltin), ("set", setBuiltin),
    ("shift", shiftBuiltin), ("read", readBuiltin), ("getopts", getoptsBuiltin),
    ("exit", exitBuiltin), ("return", returnBuiltin), ("break", loopBuiltin .leave),
    ("continue", loopBuiltin .next), ("kill", killBuiltin), ("trap", trapBuiltin),
    ("wait", waitBuiltin)]

/-- The builtin of a name that needs no other commands. -/
def plainBuiltin? (name : Octets) : Option Builtin := plainBuiltins.lookup (String.ofList name)

/-- The builtins that carry out other commands. -/
def carryingBuiltins : List String := ["eval", ".", "exec", "command", "type", "hash"]

/-- There is a builtin of the name. -/
def isBuiltin (name : Octets) : Bool :=
  (plainBuiltin? name).isSome || carryingBuiltins.contains (String.ofList name)

/-- What is assigned before the builtin stays, and its complaints end the script. -/
def isSpecial (name : Octets) : Bool :=
  [".", ":", "break", "continue", "eval", "exec", "exit", "export", "readonly", "return", "set",
    "shift", "times", "trap", "unset"].contains (String.ofList name)

/-- The arguments of the builtin are names with values. -/
def takesAssignments (name : Octets) : Bool :=
  ["export", "readonly", "local"].contains (String.ofList name)

end MutationTesting.Shell
