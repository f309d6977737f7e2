import MutationTesting.Tool.EditScript
import MutationTesting.Tool.File
import MutationTesting.Tool.Line
/-!
# Editing streams

The program `sed`: a script of commands is carried out for each line of its input. There are two
spaces for text: the one that is worked on, which is written after the script, and one in which text
is held.

## Main definitions

* `Sed.State`, `Sed.Editor`
* `Sed.runCommand` — what a command does
* `sed`
-/

namespace MutationTesting.Tool

open Act

namespace Sed

/-! ### Carrying out -/

/-- What is known while a script is carried out. -/
structure State where
  /-- The name of the program. -/
  name : Octets
  /-- The lines that were not read yet. -/
  input : LineSource
  /-- The latest line had an end. -/
  isEnded : Bool
  number : Nat
  file : Octets
  space : Octets
  held : Octets
  /-- What is written after the line. -/
  queue : List (Octets ⊕ Octets)
  /-- For each command whether it is in a range, and up to which line if that is known. -/
  ranges : List (Nat × Option Nat)
  latest : Option Pattern
  substituted : Bool
  /-- What was written. -/
  output : Backlog
  /-- The output is kept back to the end. -/
  isCollected : Bool
  /-- Nothing of the output is kept back. -/
  isHasty : Bool
  /-- The end of a line was left out in the output. -/
  isOpen : Bool
  quiet : Bool
  /-- What ends a line. -/
  ending : Char
  /-- How wide lines are in which the space is shown. -/
  width : Nat
  code : Nat
  /-- The script asked for the end. -/
  isOver : Bool

/-- How a script goes on after a command. -/
inductive Onward where
  | next
  | jump (n : Nat)
  /-- The next line begins; the space is written or not. -/
  | finish (printed : Bool)
  /-- The script begins again with what is left of the space. -/
  | restart
  | quit (printed : Bool)

/-- Carries out scripts. -/
abbrev Editor := StateT State Act

/-- Writes a text; the end of a line that was left out before it is made up for. -/
def writeText (text : Octets) : Editor Unit := do
  let s ← get
  let text := if s.isOpen then s.ending :: text else text
  let output := s.output.add text
  let output ← if s.isCollected then pure output
    else if s.isHasty then do
      (output.flush : Act Unit)
      pure {}
    else (output.settle : Act Backlog)
  set { s with output, isOpen := text.getLast?.any (· != s.ending) }

/-- Writes a line, which has an end if the latest one that was read has. -/
def writeLine (text : Octets) : Editor Unit := do
  let s ← get
  let line := if s.isEnded then text ++ [s.ending] else text
  if !line.isEmpty then writeText line

/-- Ends at once with a code. -/
def stop {α : Type} (code : Nat) : Editor α := do
  ((← get).output.flush : Act Unit)
  (finish (.code code) : Act α)

/-- Says what is wrong with a file that cannot be opened. -/
def reportMissing (path : Octets) (e : FileError) : Editor Unit := do
  let s ← get
  let _ ← (complain 2 (s.name ++ octets ": can't read " ++ path ++ octets ": "
    ++ octets e.message) : Act Nat)
  set { s with code := 2 }

/-- No line follows. What cannot be read is passed over. -/
def isLast : Editor Bool := do
  let s ← get
  let (last, faults, input) ← (iterate (fun ((faults : List (Octets × FileError)), input) => do
    match ← LineSource.next input with
    | (.line text ended, input) =>
      return .inr (false, faults.reverse, input.putBack text ended)
    | (.fault path e, input) =>
      return .inl (if isReadFault e then faults else (path, e) :: faults, input)
    | (.nothing, input) => return .inr (true, faults.reverse, input)) ([], s.input)
    : Act (Bool × List (Octets × FileError) × LineSource))
  set { s with input }
  faults.forM fun (path, e) => reportMissing path e
  return last

/-- Writes what was kept for the end of the line. -/
def flushQueue : Editor Unit := do
  let queue := (← get).queue
  modify fun s => { s with queue := [] }
  queue.forM fun
    | .inl text => writeText text
    | .inr path => do
      match ← (contentOf path : Act (Except FileError Bytes)) with
      | .ok content => if content.isEmpty then pure () else writeText (Octets.ofBytes content)
      | .error _ => pure ()

/-- Reads the next line into the space, behind what is there or in its place. Nothing is done after
a directory. The first argument bounds the number of files that cannot be opened. -/
def readNextOf (appended : Bool) : Nat → Editor Bool
  | 0 => return false
  | n + 1 => do
    let s ← get
    match ← (s.input.next : Act (Arrival × LineSource)) with
    | (.nothing, input) =>
      set { s with input }
      return false
    | (.line text isEnded, input) =>
      set { s with
        input
        isEnded
        number := s.number + 1
        file := input.path
        space := if appended then s.space ++ s.ending :: text else text }
      return true
    | (.fault path e, input) =>
      set { s with input }
      if isReadFault e then
        let shown := if path = ['-'] then octets "stdin" else path
        let code ← (complain 4 (s.name ++ octets ": read error on " ++ shown ++ octets ": "
          ++ octets e.message) : Act Nat)
        stop code
      else
        reportMissing path e
        readNextOf appended n

/-- Reads the next line into the space, behind what is there or in its place. -/
def readNext (appended : Bool) : Editor Bool := do
  readNextOf appended ((← get).input.paths.length + 1)

/-- Ends when the latest pattern is meant and there is none. -/
def failWithoutPattern {α : Type} : Editor α := do
  let code ← (complain 1 (octets
    "sed: -e expression #1, char 0: no previous regular expression") : Act Nat)
  stop code

/-- The line is one of those that an address means. -/
def isMeant (a : Address) : Editor Bool := do
  let s ← get
  match a with
  | .line n => return s.number = n
  | .last => isLast
  | .step first step =>
    if step = 0 then return s.number = first
    else return first ≤ s.number && (s.number - first) % step = 0
  | .matching p? =>
    match p?.orElse fun _ => s.latest with
    | none => failWithoutPattern
    | some p =>
      set { s with latest := some p }
      return p.occursIn s.space

/-- The line is one of those that a selector selects, for the command of a number. -/
def isSelected (i : Nat) (sel : Selector) : Editor Bool := do
  let inside ← match sel.first, sel.final with
    | none, _ => pure true
    | some a, none => isMeant a
    | some a, some final => do
      let s ← get
      match s.ranges.find? (·.1 = i) with
      | some (_, until') =>
        let close : Editor Unit := modify fun s => { s with ranges := s.ranges.filter (·.1 != i) }
        match until', final with
        | some n, .at (.line _) =>
          if n ≤ s.number then close
          pure (s.number ≤ n)
        | some n, _ =>
          if n ≤ s.number then close
          pure true
        | none, .at b =>
          if ← isMeant b then close
          pure true
        | none, _ =>
          close
          pure true
      | none =>
        let zero : Bool := match a with
          | .line 0 => s.number == 1
          | _ => false
        if zero then
          match final with
          | .at b =>
            if !(← isMeant b) then
              modify fun s => { s with ranges := (i, none) :: s.ranges }
          | _ => pure ()
          pure true
        else if ← isMeant a then
          let s ← get
          let ends ← match final with
            | .at .last => isLast
            | _ => pure false
          let until? : Option (Option Nat) := match final with
            | .at (.line n) => if n ≤ s.number then none else some (some n)
            | .plus n => if n = 0 then none else some (some (s.number + n))
            | .multiple n =>
              if n = 0 || s.number % n = 0 then none
              else some (some ((s.number / n + 1) * n))
            | .at .last => if ends then none else some none
            | .at _ => some none
          match until? with
          | some until' => modify fun s => { s with ranges := (i, until') :: s.ranges }
          | none => pure ()
          pure true
        else pure false
  return inside != sel.negated

/-- A text written as a letter says: as a whole, or its first character. -/
def inCase (whole : Option Char) (first : Option Char) (text : Octets) : Octets :=
  let change (c : Char) : Char → Char := if c = 'U' || c = 'u' then Char.toUpper else Char.toLower
  let text := match whole with
    | some c => text.map (change c)
    | none => text
  match first, text with
  | some f, c :: rest => change f c :: rest
  | _, _ => text

/-- What takes the place of a match. -/
def replacement (parts : List ReplacementPart) (m : PatternMatch) (text : Array Char) : Octets :=
  let (pieces, _, _) := parts.foldl
    (fun (pieces, whole, first) part =>
      match part with
      | .letterCase 'E' => (pieces, none, none)
      | .letterCase c =>
        if c = 'U' || c = 'L' then (pieces, some c, first) else (pieces, whole, some c)
      | part =>
        let piece := match part with
          | .text cs => cs
          | .group n => m.textOf text n
          | .letterCase _ => []
        if piece.isEmpty then (pieces, whole, first)
        else (inCase whole first piece :: pieces, whole, none))
    (([] : List Octets), (none : Option Char), (none : Option Char))
  pieces.reverse.flatten

/-- Replaces matches from a place on, given what stands from there on: the text from there, and
whether there were any. The first argument bounds their number. -/
def replaceFrom (p : Pattern) (e? : Option Expression) (s : Substitution) (text : Array Char) :
    Nat → Octets → Nat → Nat → Option Nat → Octets × Bool
  | 0, rest, _, _, _ => (rest, false)
  | n + 1, rest, start, count, lastEnd =>
    match p.searchFrom e? text rest start with
    | none => (rest, false)
    | some m =>
      let front := rest.take (m.start - start)
      let here := rest.drop (m.start - start)
      if m.stop = m.start && lastEnd = some m.start then
        -- An empty match right behind another one is none.
        match here with
        | [] => (front, false)
        | c :: onward =>
          let (rest, found) := replaceFrom p e? s text n onward (m.start + 1) count none
          (front ++ c :: rest, found)
      else
        let replaced := s.least ≤ count + 1
        let piece := if replaced then replacement s.parts m text else m.textOf text 0
        let after := here.drop (m.stop - m.start)
        if replaced && !s.all then (front ++ piece ++ after, true)
        else if m.stop = m.start then
          match here with
          | [] => (front ++ piece, replaced)
          | c :: onward =>
            let (rest, found) := replaceFrom p e? s text n onward (m.start + 1) (count + 1) none
            (front ++ piece ++ c :: rest, replaced || found)
        else
          let (rest, found) := replaceFrom p e? s text n after m.stop (count + 1) (some m.stop)
          (front ++ piece ++ rest, replaced || found)

/-- Adds a line to a file that the script writes. -/
def addToFile (path line : Octets) : Editor Unit := do
  if path = octets "/dev/stdout" then writeText (line ++ ['\n'])
  else
    let _ ← (withFile path .toAppend fun d => Act.write d (Octets.bytes (line ++ ['\n'])) :
      Act (Except FileError (Except FileError Unit)))

/-- A character as it is shown unambiguously. -/
def unambiguous (c : Char) : Octets :=
  match c with
  | '\\' => ['\\', '\\']
  | '\x07' => ['\\', 'a']
  | '\x08' => ['\\', 'b']
  | '\x0c' => ['\\', 'f']
  | '\n' => ['\\', 'n']
  | '\r' => ['\\', 'r']
  | '\t' => ['\\', 't']
  | '\x0b' => ['\\', 'v']
  | c =>
    if ' ' ≤ c && c ≤ '~' then [c]
    else
      let digits := Nat.toDigits 8 c.toNat
      '\\' :: List.replicate (3 - digits.length) '0' ++ digits

/-- A text as it is shown unambiguously, in lines of a width if that is not zero. -/
def shownLine (width : Nat) (text : Octets) : Octets :=
  let (pieces, _) := text.foldl (fun (pieces, used) c =>
      let piece := unambiguous c
      if width != 0 && width - 1 < used + piece.length then
        (piece :: ['\\', '\n'] :: pieces, piece.length)
      else (piece :: pieces, used + piece.length))
    (([] : List Octets), 0)
  pieces.reverse.flatten ++ ['$', '\n']

/-- The place of a label at which the script goes on. -/
def labelPlace (commands : List (Selector × Command)) (name : Octets) : Nat :=
  (labelPlace? commands name).getD commands.length

/-- Carries out the command of a number. -/
def runCommand (commands : List (Selector × Command)) (i : Nat) (sel : Selector) (c : Command) :
    Editor Onward := do
  let s ← get
  match c with
  | .opening _ | .nothing | .label _ => return .next
  | .append text =>
    set { s with queue := s.queue ++ [Sum.inl text] }
    return .next
  | .insert text =>
    writeText text
    return .next
  | .change text =>
    let inRange := sel.final.isSome && !sel.negated && s.ranges.any (·.1 = i)
    if !inRange then writeText text
    return .finish false
  | .branch name => return .jump (labelPlace commands name)
  | .branchIf wanted name =>
    set { s with substituted := if wanted then false else s.substituted }
    if s.substituted = wanted then
      return .jump (labelPlace commands name)
    else
      modify fun s => { s with substituted := false }
      return .next
  | .delete => return .finish false
  | .deleteFirst =>
    if s.space.contains s.ending then
      set { s with space := (s.space.dropWhile (· != s.ending)).drop 1 }
      return .restart
    else return .finish false
  | .print =>
    writeLine s.space
    return .next
  | .printFirst =>
    writeText (s.space.takeWhile (· != s.ending) ++ [s.ending])
    return .next
  | .number =>
    writeText (Decimal.natText s.number ++ ['\n'])
    return .next
  | .fileName =>
    writeText (s.file ++ ['\n'])
    return .next
  | .next =>
    if ← isLast then return .quit true
    else
      if !s.quiet then writeLine s.space
      flushQueue
      let _ ← readNext false
      return .next
  | .nextAppended =>
    if ← isLast then return .quit true
    else
      flushQueue
      let _ ← readNext true
      return .next
  | .hold appended =>
    set { s with held := if appended then s.held ++ s.ending :: s.space else s.space }
    return .next
  | .get appended =>
    set { s with space := if appended then s.space ++ s.ending :: s.held else s.held }
    return .next
  | .exchange =>
    set { s with space := s.held, held := s.space }
    return .next
  | .list width? =>
    writeText (shownLine (width?.getD s.width) s.space)
    return .next
  | .quit printed code =>
    set { s with code := max s.code code, isOver := true }
    (s.input.giveBack : Act Unit)
    return .quit printed
  | .readFile path =>
    set { s with queue := s.queue ++ [Sum.inr path] }
    return .next
  | .writeFile path =>
    addToFile path s.space
    return .next
  | .translate pairs =>
    set { s with space := s.space.map fun c => (pairs.lookup c).getD c }
    return .next
  | .clear =>
    set { s with space := [] }
    return .next
  | .substitute sub =>
    match sub.pattern.orElse fun _ => s.latest with
    | none => failWithoutPattern
    | some p =>
      let (space, found) := replaceFrom p p.expression? sub s.space.toArray (s.space.length + 2)
        s.space 0 0 none
      set { s with latest := some p }
      if found then
        modify fun s => { s with space, substituted := true }
        if sub.shown then writeLine space
        match sub.file with
        | some path => addToFile path space
        | none => pure ()
      return .next

/-- Carries out the commands from one on. The first argument bounds the number of steps. -/
def runFrom (commands : List (Selector × Command)) : Nat → Nat → Editor Onward
  | 0, _ => return .finish true
  | n + 1, i => do
    match commands[i]? with
    | none => return .finish true
    | some (sel, c) =>
      if ← isSelected i sel then
        match ← runCommand commands i sel c with
        | .next => runFrom commands n (i + 1)
        | .jump j =>
          let _ ← (look : Act Kernel)
          runFrom commands n j
        | onward => return onward
      else
        match c with
        | .opening finish => runFrom commands n finish
        | _ => runFrom commands n (i + 1)

/-- As many steps are taken for a line at most. -/
def stepLimit : Nat := 100000000

/-- Carries out a script for the line in the space and for those after it. -/
def runLines (commands : List (Selector × Command)) : Nat → Editor Unit
  | 0 => return ()
  | n + 1 => do
    let _ ← (look : Act Kernel)
    modify fun s => { s with substituted := false }
    let onward ← runFrom commands stepLimit 0
    let write (printed : Bool) : Editor Unit := do
      let s ← get
      if printed && !s.quiet then writeLine s.space
      flushQueue
    match onward with
    | .quit printed => write printed
    | .restart =>
      flushQueue
      runLines commands n
    | .finish printed =>
      write printed
      if ← readNext false then runLines commands n
    | _ =>
      write true
      if ← readNext false then runLines commands n

/-! ### Sources -/

/-- Where a part of a script comes from: the number of the argument, or a file. -/
inductive Source where
  | argument (n : Nat)
  | file (path : Octets)

/-- The parts of a script that options give, with the number of the next argument. -/
def scriptParts (name : Octets) : Nat → Options → Act (Except Nat (List (Source × Octets)))
  | _, [] => return .ok []
  | n, (key, value) :: rest => do
    match key with
    | 'e' => return (← scriptParts name (n + 1) rest).map ((.argument n, value) :: ·)
    | 'f' =>
      match ← inputContent value with
      | .ok content =>
        let text := Octets.ofBytes content
        let text := if text.getLast? = some '\n' then text.dropLast else text
        return (← scriptParts name n rest).map ((.file value, text) :: ·)
      | .error e =>
        return .error (← complain 1 (name ++ octets ": couldn't open file " ++ value
          ++ octets ": " ++ octets e.message))
    | _ => scriptParts name n rest

/-- The part of a script in which a place is, and the place in that part. -/
def partAt : List (Source × Octets) → Nat → Source × Octets × Nat
  | [], place => (.argument 1, [], place)
  | [(source, text)], place => (source, text, place)
  | (source, text) :: rest, place =>
    if place ≤ text.length then (source, text, place) else partAt rest (place - text.length - 1)

/-- What is said of a fault in a script, and the exit code. -/
def faultMessage (parts : List (Source × Octets)) : ScriptFault → Octets × Nat
  | .label name => (octets "can't find label for jump to `" ++ name ++ ['\''], 4)
  | .at place message =>
    let place :=
      match partAt parts place with
      | (.argument n, _, place) =>
        octets "-e expression #" ++ Decimal.natText n ++ octets ", char " ++ Decimal.natText place
      | (.file path, text, place) =>
        octets "file " ++ path ++ octets " line "
          ++ Decimal.natText ((text.take place).count '\n' + 1)
    (place ++ octets ": " ++ message, 1)

/-! ### Inputs -/

/-- How files are edited. -/
structure Manner where
  commands : List (Selector × Command)
  quiet : Bool
  ending : Char
  width : Nat
  /-- Files are changed, and what their copies are called. -/
  inPlace : Option Octets
  /-- Lines are counted anew for each file. -/
  separate : Bool
  /-- Nothing of the output is kept back. -/
  hasty : Bool

/-- What is known when a script begins to be carried out for files. -/
def startFor (m : Manner) (name : Octets) (paths : List Octets) : State :=
  { name, input := LineSource.ofPaths paths m.ending, isEnded := true, number := 0, file := ['-']
    space := [], held := [], queue := [], ranges := [], latest := none, substituted := false
    output := {}, isCollected := m.inPlace.isSome, isHasty := m.hasty, isOpen := false
    quiet := m.quiet, ending := m.ending, width := m.width, code := 0, isOver := false }

/-- Carries out a script from a state on. -/
def editFrom (m : Manner) (s : State) : Act State := do
  let edit : Editor Unit := do
    if ← readNext false then runLines m.commands 1000000000
  return (← edit.run s).2

/-- The path of the copy of a file. An asterisk in the ending stands for the name of the file. -/
def copyPath (ending path : Octets) : Octets :=
  let name := lastName path
  let copy := if ending.contains '*' then
      ending.flatMap fun c => if c = '*' then name else [c]
    else name ++ ending
  if ending.contains '/' then copy else path.take (path.length - name.length) ++ copy

/-- Puts another file in the place of one, which is kept under the name of a copy if an ending is
given. -/
def replaceFile (path ending : Octets) (content : Bytes) : FileSystem → Nat → FileChange :=
  fun fs here => do
    let n ← fs.find .follow here path
    let mode := ((fs.node? n).map (·.mode)).getD 0o644
    let fs ← if ending.isEmpty then fs.removeFile here path
      else fs.rename here path (copyPath ending path)
    return (← fs.make here path (.file content) mode).2

/-- Edits files in their places, one after the other. -/
def editInPlace (name : Octets) (m : Manner) (ending : Octets) : List Octets → Act Nat
  | [] => return 0
  | path :: rest => do
    let fs ← files
    match ← nodeBehind? path with
    | .error e =>
      let _ ← complain 2 (name ++ octets ": can't read " ++ path ++ octets ": " ++ octets e.message)
      return max 2 (← editInPlace name m ending rest)
    | .ok n =>
      if (fs.content n).toOption.isNone then
        complain 4 (name ++ octets ": couldn't edit " ++ path ++ octets ": not a regular file")
      else
        let s ← editFrom m (startFor m name [path])
        let _ ← onFiles fun fs here => replaceFile path ending (Octets.bytes s.output.text) fs here
        if s.isOver then return s.code
        else return max s.code (← editInPlace name m ending rest)

/-- Edits files as if each were alone, one after the other, beginning in a state. -/
def editApart (m : Manner) (s : State) : List Octets → Act State
  | [] => return s
  | path :: rest => do
    let fresh := startFor m s.name [path]
    let s ← editFrom m { fresh with output := s.output, isOpen := s.isOpen, code := s.code }
    if s.isOver then return s else editApart m s rest

/-- The files that commands write. -/
def writtenFiles (commands : List (Selector × Command)) : List Octets :=
  let paths := commands.filterMap fun (_, c) =>
    match c with
    | .writeFile path => some path
    | .substitute s => s.file
    | _ => none
  paths.eraseDups.filter (· != octets "/dev/stdout")

/-- Edits files. -/
def editPaths (name : Octets) (m : Manner) (paths : List Octets) : Act Nat := do
  (writtenFiles m.commands).forM fun path => do
    let _ ← withFile path .toWrite fun _ => return ()
  match m.inPlace with
  | some ending => editInPlace name m ending paths
  | none =>
    let s := startFor m name paths
    let s ← if m.separate then editApart m s paths else editFrom m s
    s.output.flush
    return s.code

/-- An option for files to be changed, with what follows it in its word, and the letters before
it. -/
def inPlaceOption? (word : Octets) : Option (Octets × Octets) :=
  match word with
  | '-' :: '-' :: _ => if word.take 10 = octets "--in-place" then some ([], word.drop 11) else none
  | '-' :: rest =>
    let letters := rest.takeWhile fun c => "nErsuzb".toList.contains c
    match rest.drop letters.length with
    | 'i' :: ending => some (if letters.isEmpty then [] else '-' :: letters, ending)
    | _ => none
  | _ => none

/-- The options of the program. -/
def forms : List OptionForm :=
  [flag 'n' "quiet", longFlag 'n' "silent", valued 'e' "expression", valued 'f' "file",
    flag 'E' "regexp-extended", flag 'r', flag 's' "separate", flag 'u' "unbuffered",
    flag 'z' "null-data", longFlag 'p' "posix", flag 'b' "binary", valued 'l' "line-length"]

end Sed

/-- Carries out a script for each line. -/
def sed : Program := fun name args => do
  -- The ending for copies can only follow the option directly.
  let (args, inPlace) := args.foldl (fun (kept, found) a =>
    match Sed.inPlaceOption? a with
    | some (letters, ending) => (if letters.isEmpty then kept else kept ++ [letters], some ending)
    | none => (kept ++ [a], found)) (([] : List Octets), (none : Option Octets))
  withOptions name Sed.forms 1 args fun o operands => do
    match ← Sed.scriptParts name 1 o with
    | .error code => return code
    | .ok given =>
      match given, operands with
      | [], [] =>
        complain 1 (octets "Usage: " ++ name
          ++ octets " [OPTION]... \x7bscript-only-if-no-other-script\x7d [input-file]...")
      | _, _ =>
        let (parts, paths) := match given, operands with
          | [], script :: paths => ([(Sed.Source.argument 1, script)], paths)
          | parts, paths => (parts, paths)
        let script := List.intercalate ['\n'] (parts.map (·.2))
        match Sed.readScript (o.has 'E' || o.has 'r') script with
        | .error fault =>
          let (message, code) := Sed.faultMessage parts fault
          complain code (name ++ octets ": " ++ message)
        | .ok commands =>
          let quiet := o.has 'n' || script.take 3 = octets "#n\n" || script = octets "#n"
          Sed.editPaths name
            { commands, quiet, inPlace, separate := o.has 's', hasty := o.has 'u'
              ending := if o.has 'z' then '\x00' else '\n'
              width := match (o.last? 'l').bind natOf? with
                | none => 70
                | some 1 => 0
                | some n => n } (if inPlace.isSome then paths else pathsOrInput paths)

end MutationTesting.Tool
