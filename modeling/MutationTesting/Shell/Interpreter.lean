import MutationTesting.Shell.Parser
import MutationTesting.Shell.Redirect
/-!
# Carrying out scripts

A script is read and carried out command by command. The parts of a pipe, commands in brackets, jobs
in the background and scripts whose output is put into words are processes of their own; so are
programs, unless nothing is left to do after them.

What a command is made of is carried out by a function that is handed down. The recursion is over
how deep commands are nested, counting those that a script defines.

## Main definitions

* `Manner`, `Context`
* `evaluate` — a script, line by line
* `runSimple`, `runCommand` — a command
* `context` — with which whole scripts are carried out
-/

namespace MutationTesting.Shell

/-- How a command is carried out. -/
structure Manner where
  /-- Something depends on its code, so that a failure does not end the script. -/
  tested : Bool
  /-- Nothing is left to do after it. -/
  last : Bool

namespace Manner

/-- Neither tested nor last. -/
def plain : Manner := ⟨false, false⟩

/-- Something depends on the code. -/
def test : Manner := ⟨true, false⟩

/-- The command is not the last one, whatever was said. -/
def notLast (m : Manner) : Manner := { m with last := false }

end Manner

/-- What commands are carried out with. -/
structure Context where
  table : ProgramTable
  /-- Carries out a command that is part of another one. -/
  run : Manner → ShellCommand → Sh Unit

/-- Where a script comes from. -/
structure Origin where
  /-- What stands before complaints about its form. -/
  front : Octets
  /-- It is read as it is carried out, so that its lines can be shown before they take effect. -/
  isRead : Bool

namespace Origin

/-- A text that is there as a whole. -/
def text : Origin := ⟨[], false⟩

/-- A file or an input. -/
def file : Origin := ⟨[], true⟩

end Origin

variable (x : Context)

/-! ### Scripts -/

/-- Shows lines of a script that were just read, if that is wanted. -/
def showRead (origin : Origin) (lines : Octets) : Sh Unit := do
  if origin.isRead && (← get).options.contains 'v' then act (Act.put 2 lines)

/-- The beginning of a text up to the end of the line with the number, the first line being 1. -/
def firstLines : Nat → Octets → Octets
  | 0, _ | _, [] => []
  | n + 1, c :: rest => c :: firstLines (if c = '\n' then n else n + 1) rest

/-- Carries out what is left of a script, line by line; whether there were any commands. The number
is above that of the lines. -/
def evaluateFrom (origin : Origin) (manner : Manner) : Nat → Cursor → Bool → Sh Bool
  | 0, _, ran => return ran
  | n + 1, cursor, ran => do
    let s ← get
    match readLine { cursor with nextDocument := s.nextDocument, aliases := s.aliases } with
    | .error fault =>
      showRead origin (firstLines (fault.line + 1 - cursor.line) cursor.rest)
      modify fun s => { s with line := fault.line }
      giveUp (origin.front ++ fault.message)
    | .ok (none, _) => return ran
    | .ok (some command, next) =>
      modify fun s => { s with
        documents := next.documents ++ s.documents, nextDocument := next.nextDocument }
      let read := cursor.rest.take (cursor.rest.length - next.rest.length)
      let isLast := next.rest.isEmpty && read.getLast? != some '\n'
      showRead origin read
      match command with
      | .sequence [] => evaluateFrom origin manner n { next with documents := [] } ran
      | command =>
        x.run { manner with last := manner.last && isLast } command
        evaluateFrom origin manner n { next with documents := [] } true

/-- Carries out a script. -/
def evaluate (origin : Origin) (manner : Manner) (script : Octets) (line : Nat) : Sh Unit := do
  let cursor := Cursor.start script line (← get).nextDocument
  let ran ← evaluateFrom x origin manner (script.length + 2) cursor false
  if !ran then setStatus 0

/-- Carries out the scripts of the signals that were caught. -/
def runTraps : Sh Unit := do
  if !(← get).traps.isEmpty then
    repeated do
      let self ← act .self
      match ← act (.access (·.takeCaught self)) with
      | none => return some ()
      | some n =>
        let s ← get
        match s.traps.lookup n with
        | none => return none
        | some script =>
          evaluate x .text .plain script s.line
          setStatus s.status
          return none

/-! ### Processes -/

/-- The code of a shell after its script. -/
def codeAfter (result : Except Jump Unit) (s : State) : Nat :=
  match result with
  | .error (.quit code) | .error (.giveBack code) => code
  | _ => s.status

/-- Does something as a shell, and then what is to be done at its end; the code. -/
def asProcess (body : Sh Unit) (s : State) : Act Nat := do
  let (result, s) ← body.run.run s
  let code := codeAfter result s
  match s.traps.lookup 0 with
  | none => return code
  | some script =>
    let s := { s with traps := s.traps.filter (·.1 != 0), status := code, loops := 0, taken := [] }
    let (result, s) ← ((evaluate x .text .plain script s.line).run).run s
    match result with
    | .error (.quit code) => return code
    | _ => let _ := s; return code

/-- A shell as it is in a process that it starts. -/
def forSubshell (s : State) : State :=
  { s with
    traps := s.traps.filter fun (n, script) => n != 0 && script.isEmpty
    jobs := [] }

/-- Starts a process that goes on as a shell; its number. -/
def forkShell (body : Sh Unit) : Sh Nat := do
  let s ← get
  act (.fork (asProcess x (do
    registerTraps
    body) (forSubshell s)))

/-- The output of a script. -/
def outputOf (script : Octets) : Sh Octets := do
  let (outlet, inlet) ← act .newPipe
  let line := (← get).line
  let _ ← takeNumber
  let pid ← forkShell x do
    act do
      moveTo 1 inlet
      Act.close outlet
    evaluate x .text ⟨false, true⟩ script line
  act (.close inlet)
  let content ← act (.readAll outlet)
  act (.close outlet)
  let code ← waitFor pid
  modify fun s => { s with inner := code }
  let text := (Octets.ofBytes (content.toOption.getD [])).filter (· != '\x00')
  return (text.reverse.dropWhile (· = '\n')).reverse

/-- A failure ends the script, if that is asked for and nothing depends on it. -/
def checkStatus (manner : Manner) : Sh Unit := do
  let s ← get
  if s.has 'e' && !manner.tested && s.status != 0 then throw (.quit s.status)

/-! ### Programs -/

/-- Why a program cannot be executed, in the words of a shell. -/
def launchFault : FileError → String
  | .missing | .notDirectory => "not found"
  | e => e.message

/-- What is started by a name. Directories of the search path before a place are passed over. -/
def startFor (s : State) (k : Kernel) (place : Nat) (name : Octets) (args : List Octets) :
    Except FileError Start :=
  if name.isEmpty then .error .refused
  else
    startOfFirst k k.here name args .missing
      (if name.contains '/' then [name] else (programPaths (searchPath s) name).drop place)

/-- Takes the place of the shell with a program; what is wrong if there is none. -/
def takePlace (place : Nat) (name : Octets) (args : List Octets) : Sh FileError := do
  let s ← get
  act do
    Act.change (·.adjustSelf fun p => { p with environment := s.environment })
    let k ← Act.look
    match startFor s k place name args with
    | .ok start => Act.perform x.table start
    | .error .unsuitable =>
      let path := (programPath? s k name).getD name
      Act.perform x.table ⟨octets "sh", path, path :: args⟩
    | .error e => return e

/-- Takes the place of the shell with a program, which may not be there. -/
def runProgram (front : Octets) (place : Nat) (name : Octets) (args : List Octets) :
    Sh Unit := do
  let e ← takePlace x place name args
  complain (front ++ name ++ octets ": " ++ octets (launchFault e))
  let code := if launchFault e = "not found" then 127 else 126
  setStatus code
  throw (.quit code)

/-- Carries out a program, in the place of the shell if nothing is left to do. -/
def callProgram (manner : Manner) (name : Octets) (args : List Octets) : Sh Unit := do
  let place? ← if name.contains '/' then pure none else track name
  let s ← get
  let k ← act Act.look
  let found := startFor s k 0 name args
  if place?.isNone && !name.contains '/' then
    let e := match found with
      | .error e => e
      | .ok _ => .missing
    complain (if s.extended then name ++ octets ": command not found"
      else name ++ octets ": " ++ octets (launchFault e))
    setStatus 127
  else if manner.last && s.traps.isEmpty then runProgram x [] (place?.getD 0) name args
  else
    let _ ← takeNumber
    let pid ← forkShell x (runProgram x [] (place?.getD 0) name args)
    setStatus (← waitFor pid)

/-! ### Finding commands -/

/-- The words with a meaning of their own. -/
def reservedWords : List String :=
  ["!", "case", "do", "done", "elif", "else", "esac", "fi", "for", "if", "in", "then", "until",
    "while", "\x7b", "\x7d"]

/-- The path of the program that a name stands for. -/
def pathFor (name : Octets) : Sh (Option Octets) := do
  if name.contains '/' then
    let k ← act Act.look
    return if isExecutable k name then some name else none
  else
    let place? ← match (← get).tracked.find? (·.name = name) with
      | some t => pure (some t.place)
      | none => track name
    let paths := programPaths (searchPath (← get)) name
    return place?.bind (paths[·]?)

/-- Says what names stand for, in short or at length. -/
def describe (short : Bool) (names : List Octets) : Sh Nat := do
  let mut code := 0
  for name in names do
    let s ← get
    let say (text : String) : Sh Unit :=
      tellLine (if short then name else name ++ octets text)
    if reservedWords.contains (String.ofList name) then say " is a shell keyword"
    else if let some text := s.aliases.lookup name then
      tellLine (if short then octets "alias " ++ name ++ '=' :: quotedValue text
        else name ++ octets " is an alias for " ++ text)
    else if isSpecial name then say " is a special shell builtin"
    else if s.functions.any (·.1 = name) then say " is a shell function"
    else if isBuiltin name then say " is a shell builtin"
    else
      match ← pathFor name with
      | some path =>
        let isKnown := s.tracked.any (·.name = name)
        let tracked := if isKnown then " is a tracked alias for " else " is "
        tellLine (if short then path else name ++ octets tracked ++ path)
      | none =>
        if !short then tell (name ++ octets ": not found\n")
        code := 127
  return code

/-- Shows or forgets which programs were found. -/
def hashBuiltin : Builtin :=
  withLetters "r" fun options args => do
    if !options.isEmpty then
      modify fun s => { s with tracked := [] }
      return .ok 0
    if args.isEmpty then
      tell (Tool.ofLines (trackedLines (← get)))
      return .ok 0
    let mut code := 0
    for name in args do
      modify fun s => { s with tracked := s.tracked.filter (·.name != name) }
      let isOwn := isBuiltin name || (← get).functions.any (·.1 = name)
      if !isOwn && !name.contains '/' then
        if (← track name).isNone then
          warn (octets "hash") (name ++ octets ": not found")
          code := 1
    return .ok code

/-! ### Simple commands -/

/-- What a name stands for. -/
inductive Callee where
  | builtin (b : Builtin)
  | function (body : ShellCommand)
  | program

/-- Finds a script that is carried out by the shell itself. -/
def findScript (s : State) (k : Kernel) (name : Octets) : Octets :=
  if name.contains '/' then name
  else
    ((programPaths (searchPath s) name).find? fun path =>
      match k.files.nodeAt? .follow k.here path with
      | some ⟨.file _, _, _⟩ => true
      | _ => false).getD name

/-- The content of a script. A directory is a script without commands. -/
def scriptOf (path : Octets) : Act (Except FileError Bytes) := do
  match ← Act.contentOf path with
  | .error .isDirectory => return .ok []
  | result => return result

/-- Carries out a script of a file. -/
def sourceBuiltin (manner : Manner) : Builtin := fun args => do
  match args with
  | [] => return .ok 0
  | name :: _ =>
    let s ← get
    let path := findScript s (← act Act.look) name
    match ← act (scriptOf path) with
    | .error e =>
      return .error (if name.contains '/' then openFault false name e
        else name ++ octets ": not found")
    | .ok content =>
      match ← observe (evaluate x .file manner.notLast (Octets.ofBytes content) 1) with
      | .ok () => return .ok (← get).status
      | .error (.giveBack code) => return .ok code
      | .error jump => throw jump

/-- The builtins that carry out other commands. -/
def carryingBuiltin? (manner : Manner) (name : Octets) : Option Builtin :=
  match String.ofList name with
  | "eval" => some fun args => do
    let script := List.intercalate [' '] args
    evaluate x ⟨octets "eval: ", false⟩ manner.notLast script (← get).line
    return .ok (← get).status
  | "." => some (sourceBuiltin x manner)
  | "exec" => some fun args => do
    match if args.head? = some ['-', '-'] then args.drop 1 else args with
    | [] => return .ok 0
    | name :: args =>
      runProgram x (octets "exec: ") 0 name args
      return .ok 0
  | "type" => some fun args => return .ok (← describe false args)
  | "hash" => some hashBuiltin
  | "command" => some fun args =>
    match args with
    | ['-', 'v'] :: names => return .ok (← describe true names)
    | ['-', 'V'] :: names => return .ok (← describe false names)
    | _ => return .ok 0
  | _ => none

/-- What a name stands for. -/
def callee (s : State) (manner : Manner) (functions : Bool) (name : Octets) : Callee :=
  let builtin? := match plainBuiltin? name with
    | some b => some b
    | none => carryingBuiltin? x manner name
  match if isSpecial name then none else
      if functions then s.functions.lookup name else none with
  | some body => .function body
  | none =>
    match builtin? with
    | some b => .builtin b
    | none => .program

/-- How deep commands that a script defines may call one another, in the smaller dialect. -/
def callLimit : Nat := 1000

/-- Carries out a command that a script defines. -/
def callFunction (manner : Manner) (body : ShellCommand) (args : List Octets) : Sh Unit := do
  let before ← get
  if !before.extended && callLimit ≤ before.taken.length then
    giveUp (octets s!"Maximum function recursion depth ({callLimit}) reached")
  set { before with
    arguments := args, taken := [] :: before.taken, loops := 0, optionOffset := 0 }
  let result ← observe (x.run manner.notLast body)
  modify fun s =>
    { s.withOld ((s.taken.head?).getD []) with
      arguments := before.arguments, taken := before.taken, loops := before.loops,
      optionOffset := before.optionOffset }
  match result with
  | .ok () => return ()
  | .error (.giveBack code) => setStatus code
  | .error jump => throw jump

/-- The words that are left when those that only say how a name is looked up are taken away, and
whether the commands that the script defines count. -/
def lookupWords : List Octets → List Octets × Bool
  | ['c', 'o', 'm', 'm', 'a', 'n', 'd'] :: rest =>
    match rest with
    | ['-', 'v'] :: _ | ['-', 'V'] :: _ => (octets "command" :: rest, true)
    | ['-', 'p'] :: rest | ['-', '-'] :: rest => ((lookupWords rest).1, false)
    | rest => ((lookupWords rest).1, false)
  | words => (words, true)

/-- The fields of the words of a command. Once a name is known that takes assignments, words that
look like those are not cut into fields. -/
def expandWords (words : List Word) (known : List Octets) : Sh (List Octets) := do
  match words with
  | [] => return []
  | w :: rest =>
    let asValue := match lookupWords known with
      | (name :: _, _) => takesAssignments name && w.assignment?.isSome
      | _ => false
    let fields ←
      if asValue then
        match w.assignment? with
        | some (name, value) => do
          pure [name ++ '=' :: (← expandValue (outputOf x) value)]
        | none => pure []
      else expandFields (outputOf x) w
    return fields ++ (← expandWords rest (known ++ fields))

/-- What stands before a command that is shown: the value of a parameter, in which others may be
mentioned. -/
def tracePrompt : Sh Octets := do
  let s ← get
  let text := (s.value? (octets "PS4")).getD []
  match readDocument text with
  | none => return text
  | some word =>
    modify fun s => { s with options := s.options.filter (· != 'x') }
    let text ← expandText (outputOf x) word
    modify fun s => { s with options := s.options ++ ['x'] }
    return text

/-- Shows a command before it is carried out, where errors were shown before its redirections. -/
def showCommand (saved : Saved) (assigned : List (Octets × Octets)) (fields : List Octets) :
    Sh Unit := do
  if (← get).has 'x' then
    let words := assigned.map (fun (name, value) => name ++ '=' :: value) ++ fields
    let front ← tracePrompt x
    let place := ((saved.filter (·.1 = 2)).getLast?.bind (·.2)).getD 2
    act (.put place (front ++ List.intercalate [' '] words ++ ['\n']))

/-- Gives parameters values, one after the other. -/
def assignEach (export? : Bool) : List (Octets × Word) → Sh (List (Octets × Octets))
  | [] => return []
  | (name, w) :: rest => do
    let value ← expandValue (outputOf x) w
    assign name value
    if export? then adjustVariable name fun v => { v with exported := true }
    return (name, value) :: (← assignEach export? rest)

/-- Carries out what a name stands for. -/
def call (manner : Manner) (special : Bool) (functions : Bool) (name : Octets)
    (args : List Octets) : Sh Unit := do
  match callee x (← get) manner functions name with
  | .function body => callFunction x manner body args
  | .program => callProgram x manner name args
  | .builtin b =>
    match ← observe (b args) with
    | .ok (.ok code) =>
      flush
      let lost := (← act (.fault? 1)).isSome
      if lost then
        act .forgetFaults
        warn name (name ++ octets ": I/O error")
      setStatus (if lost then code ||| 1 else code)
    | .ok (.error message) =>
      warn name message
      flush
      act .forgetFaults
      setStatus 2
      if special then throw (.quit 2)
    | .error jump =>
      flush
      act .forgetFaults
      throw jump

/-- Carries out a simple command. -/
def runSimple (manner : Manner) (line : Nat) (words : List Word) (rs : List Redirection) :
    Sh Unit := do
  modify fun s => { s with line, inner := 0 }
  let assignments := (words.takeWhile (·.assignment?.isSome)).filterMap (·.assignment?)
  let fields ← expandWords x (words.drop assignments.length) []
  let (fields, functions) := lookupWords fields
  modify fun s => { s with line }
  match fields with
  | [] =>
    match ← redirect (outputOf x) rs with
    | none => setStatus 2
    | some saved =>
      let assigned ← assignEach x false assignments
      showCommand x saved assigned []
      act (undo saved)
      setStatus (← get).inner
  | name :: args =>
    let special := functions && isSpecial name
    match ← redirect (outputOf x) rs with
    | none =>
      setStatus 2
      if special then throw (.quit 2)
    | some saved =>
      let before ← get
      let keeps := special && name != octets "exec"
      let assigned ← assignEach x (!keeps) assignments
      showCommand x saved assigned fields
      let result ← observe (call x manner special functions name args)
      if !special then
        modify (·.withOld (assignments.map fun (name, _) => (name, before.bindings.lookup name)))
      if !(name = octets "exec" && result.toOption.isSome) then act (undo saved)
      match result with
      | .ok () => return ()
      | .error jump => throw jump

/-! ### Commands -/

/-- Remembers where the program of a stage is found, if its name is written as it is. -/
def trackStage (c : ShellCommand) : Sh Unit := do
  match c with
  | .simple _ words _ =>
    match (words.dropWhile (·.assignment?.isSome)).head?.bind (·.plain?) with
    | some name =>
      let s ← get
      if isName name && !isBuiltin name && !s.functions.any (·.1 = name) then
        let _ ← track name
      else return ()
    | none => return ()
  | _ => return ()

/-- A process does not belong to those in the foreground any more. -/
def setApart : Act Unit :=
  Act.change (·.adjustSelf fun p =>
    { p with ignored := [Signal.interrupt, Signal.quit] ++ p.ignored })

/-- The input of a process is empty. -/
def withoutInput : Act Unit := do
  let _ ← openFor 0 (octets "/dev/null") .toRead

/-- Starts the stages of a pipe, possibly in the background; their numbers. -/
def startStages (apart : Bool) (input : Option Nat) : List ShellCommand → Sh (List Nat)
  | [] => return []
  | c :: rest => do
    trackStage c
    let outgoing ← if rest.isEmpty then pure none else some <$> act .newPipe
    let pid ← forkShell x do
      act do
        if apart then setApart
        match input with
        | some d => moveTo 0 d
        | none => if apart then withoutInput
      act do
        match outgoing with
        | some (outlet, inlet) =>
          moveTo 1 inlet
          Act.close outlet
        | none => return ()
      x.run ⟨false, true⟩ c
    act do
      match input with
      | some d => Act.close d
      | none => return ()
    act do
      match outgoing with
      | some (_, inlet) => Act.close inlet
      | none => return ()
    return pid :: (← startStages apart (outgoing.map (·.1)) rest)

/-- Carries out a round of a loop; whether the loop is over. -/
def loopRound (body : Sh Unit) : Sh Bool := do
  match ← observe body with
  | .ok () => return false
  | .error (.leave (n + 2)) => throw (.leave (n + 1))
  | .error (.leave _) => return true
  | .error (.next (n + 2)) => throw (.next (n + 1))
  | .error (.next _) => return false
  | .error jump => throw jump

/-- Counts a loop as long as it is carried out. -/
def inLoop (body : Sh Unit) : Sh Unit := do
  let loops := (← get).loops
  modify fun s => { s with loops := loops + 1 }
  let result ← observe body
  modify fun s => { s with loops }
  match result with
  | .ok () => return ()
  | .error jump => throw jump

/-- Repeats a body as long as a test succeeds, or as long as it fails. -/
def runLoop (manner : Manner) (wanted : Bool) (test body : ShellCommand) : Sh Unit := do
  inLoop do
    let code ← repeatedFrom 0 fun (code : Nat) => do
      let ended ← loopRound do x.run .test test
      if ended then return .inr 0
      if ((← get).status = 0) != wanted then return .inr code
      let ended ← loopRound do x.run manner.notLast body
      let code := (← get).status
      if ended then return .inr code else return .inl code
    setStatus code
where
  /-- Passes a code on from round to round. -/
  repeatedFrom (start : Nat) (step : Nat → Sh (Nat ⊕ Nat)) : Sh Nat :=
    ExceptT.mk fun s : State =>
      Act.iterate (fun (code, s) => do
        let (r, s) ← (step code).run.run s
        match r with
        | .error jump => return .inr (.error jump, s)
        | .ok (.inr code) => return .inr (.ok code, s)
        | .ok (.inl code) => return .inl (code, s)) (start, s)

/-- Carries out a body for each of some words. -/
def runEach (name : Octets) (body : Sh Unit) : List Octets → Sh Unit
  | [] => return ()
  | word :: rest => do
    assign name word
    if ← loopRound body then return ()
    runEach name body rest

/-- Carries out commands one after the other. -/
def runSequence (manner : Manner) : List ShellCommand → Sh Unit
  | [] => return ()
  | [c] => x.run manner c
  | c :: rest => do
    x.run manner.notLast c
    runSequence manner rest

/-- One of the patterns of an arm fits a text. -/
def fitsArm (text : Octets) : List Word → Sh Bool
  | [] => return false
  | w :: rest => do
    if (Glob.ofMarked (← expandMarked (outputOf x) w)).accepts text then return true
    else fitsArm text rest

/-- Carries out the first arm with a pattern that fits a text. -/
def runArms (manner : Manner) (text : Octets) : List (List Word × ShellCommand) → Sh Unit
  | [] => setStatus 0
  | (patterns, body) :: rest => do
    if ← fitsArm x text patterns then
      match body with
      | .sequence [] => setStatus 0
      | body => x.run manner body
    else runArms manner text rest

/-- Starts a command in the background. The stages of a pipe are the processes of the job; any other
command has a process of its own. -/
def startJob (c : ShellCommand) : Sh Unit := do
  let number ← takeNumber
  let pids ← match c with
    | .pipe stages => startStages x true none stages
    | c => do
      let (texts, c) ← match c with
        | .redirected line c@(.subshell _) rs => pure ([], .redirected line c rs)
        | .redirected line c rs => do
          modify fun s => { s with line }
          pure (← redirectionTexts (outputOf x) rs, c)
        | c => pure ([], c)
      let pid ← forkShell x do
        act do
          setApart
          withoutInput
        redirectForGood texts
        x.run ⟨false, true⟩ c
      pure [pid]
  startedJob number pids
  setStatus 0

/-- Carries out a command in a process of its own, with its redirections. If nothing is left to do
after it, this process is one. -/
def runSubshell (manner : Manner) (texts : List (Redirection × Octets)) (c : ShellCommand) :
    Sh Unit := do
  if manner.last && (← get).traps.isEmpty then
    redirectForGood texts
    x.run manner c
  else
    let _ ← takeNumber
    let pid ← forkShell x do
      redirectForGood texts
      x.run { manner with last := true } c
    setStatus (← waitFor pid)

/-- Carries out a command. -/
def runCommand (manner : Manner) (c : ShellCommand) : Sh Unit := do
  if (← get).has 'n' then return
  match c with
  | .simple line words rs =>
    runSimple x manner line words rs
    runTraps x
    checkStatus manner
  | .redirected line (.subshell c) rs =>
    modify fun s => { s with line }
    let texts ← redirectionTexts (outputOf x) rs
    runSubshell x manner texts c
    runTraps x
    checkStatus manner
  | .redirected line c rs =>
    modify fun s => { s with line }
    match ← redirect (outputOf x) rs with
    | none => setStatus 2
    | some saved =>
      let result ← observe (x.run manner.notLast c)
      act (undo saved)
      match result with
      | .ok () => return ()
      | .error jump => throw jump
  | .pipe stages =>
    let _ ← takeNumber
    let pids ← startStages x false none stages
    setStatus (← waitForAll pids)
    runTraps x
    checkStatus manner
  | .negated c =>
    x.run .test c
    setStatus (if (← get).status = 0 then 1 else 0)
  | .both a b =>
    x.run .test a
    if (← get).status = 0 then x.run manner b
  | .either a b =>
    x.run .test a
    if (← get).status != 0 then x.run manner b
  | .sequence cs => runSequence x manner cs
  | .background c => startJob x c
  | .subshell c =>
    runSubshell x manner [] c
    runTraps x
    checkStatus manner
  | .cond test yes no =>
    x.run .test test
    if (← get).status = 0 then x.run manner yes
    else
      match no with
      | some no => x.run manner no
      | none => setStatus 0
  | .loop wanted test body => runLoop x manner wanted test body
  | .each line name words body =>
    modify fun s => { s with line }
    let fields ← words.mapM (expandFields (outputOf x))
    let before := (← get).status
    setStatus 0
    if !fields.flatten.isEmpty then
      setStatus before
      inLoop (runEach name (x.run manner.notLast body) fields.flatten)
  | .choose line word arms =>
    modify fun s => { s with line }
    runArms x manner (← expandText (outputOf x) word) arms
  | .define name body =>
    modify fun s => { s with
      functions := (name, body) :: s.functions.filter (·.1 != name)
      tracked := s.tracked.filter (·.name != name) }
    setStatus 0

/-- Carries out a command with commands nested to the given depth. -/
def carryOut (table : ProgramTable) : Nat → Manner → ShellCommand → Sh Unit
  | 0, _, _ => act (Act.finish (.signal Signal.badAddress))
  | depth + 1, manner, c => do
    let _ ← act Act.look
    runCommand ⟨table, carryOut table depth⟩ manner c

/-- How deep commands may be nested. -/
def nesting : Nat := 100000

/-- What the commands of a script are carried out with. -/
def context (table : ProgramTable) : Context := ⟨table, carryOut table nesting⟩

end MutationTesting.Shell
