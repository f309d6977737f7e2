import MutationTesting.Shell.Redirect
import MutationTesting.Tool.Launch
import MutationTesting.Tool.Line
/-!
# Programs for batches of words

The program `xargs`: it reads words and starts a program again and again, each time with the next
ones as arguments. Words stand between blanks, and quotes and backslashes keep blanks in them, or
else they end with a certain character. A batch is full when there are enough words in it, or
enough lines, or when the command would become too long; or each line is put into the command in the
places of a mark.

## Main definitions

* `BatchForm` — how batches are made, and what is done with them
* `WordScan` — how words are found in a text
* `Batching` — reading words and starting programs
* `xargs`
-/

namespace MutationTesting.Tool

open Act

/-- How batches are made, and what is done with them. -/
structure BatchForm where
  name : Octets
  command : List Octets := []
  /-- As many words, or lines, are in a batch. -/
  words : Option Nat := none
  lines : Option Nat := none
  /-- What is replaced by a line. -/
  mark : Option Octets := none
  /-- What ends a word, if blanks do not. -/
  delimiter : Option Char := none
  /-- The word after which nothing is read. -/
  last : Option Octets := none
  /-- So long a command may become. -/
  limit : Nat := 131072
  /-- A batch must not be ended by its length. -/
  strict : Bool := false
  /-- Nothing is started without words. -/
  needsWords : Bool := false
  traced : Bool := false
  /-- As many programs may run at once; zero is any number. -/
  workers : Nat := 1
  /-- Words come from this file and not from the input. -/
  source : Option Octets := none

/-! ### Words -/

/-- What stands around the next character of a text of words. -/
inductive WordPlace where
  /-- Before a word. -/
  | blank
  | plain
  /-- After a backslash. -/
  | escaped
  | quoted (mark : Char)
  deriving DecidableEq

/-- How far a line of words was read. -/
structure WordScan where
  place : WordPlace := .blank
  /-- The characters of the word that is being read, the last first. -/
  word : Octets := []
  /-- There is a word in the line, perhaps an empty one. -/
  isBegun : Bool := false
  /-- No word of the line was finished. -/
  isFirst : Bool := true
  previous : Option Char := none

/-- What is found in a text of words. -/
inductive WordEvent where
  | nothing
  | word (text : Octets)
  /-- The end of a line with its last word; whether the line counts. -/
  | line (text : Octets) (counts : Bool)
  /-- A quote has no end. -/
  | open (mark : Char)

namespace WordScan

/-- What is found at a character; blanks do not end words if so said. -/
def step (keepsBlanks : Bool) (s : WordScan) (c : Char) : WordScan × WordEvent :=
  let after : WordScan := { s with previous := some c }
  let added (s : WordScan) : WordScan × WordEvent :=
    ({ s with place := .plain, word := c :: s.word, isBegun := true }, .nothing)
  let isSpace (c : Char) : Bool := c = ' ' || ('\t' ≤ c && c ≤ '\r')
  match s.place with
  | .escaped => added after
  | .quoted q =>
    if c = '\n' then (after, .open q)
    else if c = q then ({ after with place := .plain, isBegun := true }, .nothing)
    else ({ after with word := c :: s.word }, .nothing)
  | place =>
    if place = .blank && isSpace c then (after, .nothing)
    else if c = '\n' then
      if s.word.isEmpty && !s.isBegun then ({ after with place := .blank }, .nothing)
      else ({}, .line s.word.reverse (s.previous != some ' ' && s.previous != some '\t'))
    else if !keepsBlanks && (c = ' ' || c = '\t') then
      ({ place := .blank, isBegun := true, isFirst := false, previous := some c },
        .word s.word.reverse)
    else if c = '\\' then ({ after with place := .escaped, isBegun := true }, .nothing)
    else if c = '\'' || c = '"' then
      ({ after with place := .quoted c, isBegun := true }, .nothing)
    else added after

/-- What is found at the end of the text. -/
def finish (s : WordScan) : WordEvent :=
  match s.place, s.word with
  | _, [] => .nothing
  | .quoted q, _ => .open q
  | _, word => .line word.reverse true

end WordScan

/-! ### Batches -/

/-- How far words were put into batches. -/
structure BatchState where
  /-- The words of the batch, the last first. -/
  words : List Octets := []
  lines : Nat := 0
  /-- The length of the batch. -/
  size : Nat := 0
  /-- As many programs were started. -/
  runs : Nat := 0
  /-- The programs that are running. -/
  running : List Nat := []
  code : Nat := 0
  /-- There was a warning about zeros. -/
  hasWarned : Bool := false

/-- Reading words and starting programs, until there is a code to end with. -/
abbrev Batching := ExceptT Nat (StateT BatchState Act)

namespace BatchForm

variable (f : BatchForm) (table : ProgramTable)

/-- The length of words in a command. -/
def lengthOf (words : List Octets) : Nat := (words.map (·.length + 1)).foldl (· + ·) 0

/-- Does something as the program and not with words. -/
def act {α : Type} (a : Act α) : Batching α := liftM a

/-- Ends with a complaint. -/
def fail {α : Type} (code : Nat) (message : Octets) : Batching α := do
  throw (← act (complain code (f.name ++ octets ": " ++ message)))

/-- Hears of the end of a program. -/
def heed (pid : Nat) : Batching Unit := do
  let exit ← act (exitOf pid)
  modify fun s => { s with running := s.running.filter (· != pid) }
  let program := f.command.headD (octets "echo")
  match exit with
  | .signal n => f.fail 125 (program ++ octets ": terminated by signal " ++ Decimal.natText n)
  | .code 255 => f.fail 124 (program ++ octets ": exited with status 255; aborting")
  | .code 0 => return ()
  | .code _ => modify fun s => { s with code := 123 }

/-- Waits until at most so many programs are running; the first argument is above their number. -/
def heedDownTo : Nat → Nat → Batching Unit
  | 0, _ => return ()
  | n + 1, most => do
    let running := (← get).running
    if most < running.length then
      let hasEnded (k : Kernel) (pid : Nat) : Bool := !(k.process? pid).any (·.exit.isNone)
      act (await (fun k => running.any (hasEnded k)) none)
      let k ← act look
      match running.find? (hasEnded k) with
      | some pid => f.heed pid
      | none => return ()
      heedDownTo n most

/-- Starts the program with some arguments. -/
def start (command : List Octets) : Batching Unit := do
  if f.traced then
    act (put 2 (List.intercalate [' '] (command.map Quote.inShellIfNeeded) ++ ['\n']))
  if f.workers != 0 then f.heedDownTo ((← get).running.length + 1) (f.workers - 1)
  let program := command.headD []
  match ← act (launchFault? program) with
  | some e =>
    let code := if e = .missing || e = .notDirectory then 127 else 126
    f.fail code (program ++ octets ": " ++ octets e.message)
  | none =>
    let pid ← act <| fork do
      -- The program reads nothing of the words.
      if f.source.isNone then
        let _ ← Shell.openFor 0 (octets "/dev/null") .toRead
      let _ ← launch table program (command.drop 1)
      return 127
    modify fun s => { s with runs := s.runs + 1, running := s.running ++ [pid] }
    if f.workers = 1 then f.heed pid

/-- Starts the program with the words of the batch. -/
def ship : Batching Unit := do
  let words := (← get).words.reverse
  modify fun s => { s with words := [], size := 0 }
  f.start table (f.command ++ words)

/-- Starts the program with the words of the batch before the end, if there are any. -/
def shipRest : Batching Unit := do
  if f.mark.isNone && !(← get).words.isEmpty && !f.strict then f.ship table

/-- Puts a word into the batch, up to a zero in it. -/
def add (word : Octets) : Batching Unit := do
  let word := word.takeWhile (· != '\x00')
  if f.limit < lengthOf f.command + (← get).size + word.length + 1 then
    if (← get).words.isEmpty then
      f.fail 1 (octets "cannot fit single argument within argument list size limit")
    if f.strict && (f.words.isSome || f.lines.isSome) then
      f.fail 1 (octets "argument list too long")
    f.ship table
  modify fun s => { s with words := word :: s.words, size := s.size + word.length + 1 }
  if f.words = some (← get).words.length then f.ship table

/-- Takes note of the end of a line. -/
def endLine (counts : Bool) : Batching Unit := do
  modify fun s => { s with lines := if counts then s.lines + 1 else s.lines }
  if f.lines.any (· ≤ (← get).lines) then
    f.ship table
    modify fun s => { s with lines := 0 }

/-- Starts the program with a line in the places of the mark. -/
def insert (mark line : Octets) : Batching Unit := do
  let rec filled : Nat → Octets → Octets
    | 0, text => text
    | _, [] => []
    | n + 1, c :: rest =>
      if !mark.isEmpty && mark.isPrefixOf (c :: rest) then
        line ++ filled n (rest.drop (mark.length - 1))
      else c :: filled n rest
  let args := (f.command.drop 1).map fun word => filled (word.length + 1) word
  let command := f.command.take 1 ++ args
  if mark.isEmpty || f.limit < lengthOf command then f.fail 1 (octets "command too long")
  f.start table command

/-- Does what is to be done with a line or its last word; whether reading goes on. -/
def takeLine (text : Octets) (counts isFirst canStop : Bool) : Batching Bool := do
  if canStop && f.last = some text then
    if !isFirst then f.endLine table false
    return false
  match f.mark with
  | some mark => f.insert table mark text
  | none =>
    f.add table text
    f.endLine table counts
  return true

/-- Ends with a complaint about a quote. -/
def failOpen {α : Type} (mark : Char) : Batching α := do
  f.shipRest table
  f.fail 1 (octets "unmatched " ++ octets (if mark = '"' then "double" else "single")
    ++ octets " quote; by default quotes are special to " ++ f.name
    ++ octets " unless you use the -0 option")

/-- Reads words of a line until its end; whether reading goes on. -/
def takeCharacters (s : WordScan) : Octets → Batching (WordScan × Bool)
  | [] => return (s, true)
  | c :: rest => do
    let (next, event) := s.step f.mark.isSome c
    if c = '\x00' && !(← get).hasWarned then
      modify fun s => { s with hasWarned := true }
      let _ ← act (complain 0 (f.name ++ octets (": WARNING: a NUL character occurred in the "
        ++ "input.  It cannot be passed through in the argument list.  Did you mean to use the "
        ++ "--null option?")))
    if f.limit ≤ lengthOf f.command + next.word.length then
      f.shipRest table
      f.fail 1 (octets "argument line too long")
    match event with
    | .nothing => takeCharacters next rest
    | .open q => f.failOpen table q
    | .word text =>
      if f.last = some text then
        if !s.isFirst then f.endLine table false
        return (next, false)
      f.add table text
      takeCharacters next rest
    | .line text counts =>
      if ← f.takeLine table text counts s.isFirst true then takeCharacters next rest
      else return (next, false)

/-- Does what is to be done with what comes from the input; the line that is not finished, unless
reading has come to its end. -/
def takeArrival (s : WordScan) : Arrival → Batching (Option WordScan)
  | .line text ended => do
    match f.delimiter, f.mark with
    | none, _ =>
      let (s, goesOn) ← f.takeCharacters table s (text ++ if ended then ['\n'] else [])
      return if goesOn then some s else none
    | some _, some mark => do
      f.insert table mark text
      return some s
    | some _, none => do
      f.add table text
      f.endLine table ended
      return some s
  | .fault _ _ | .nothing => do
    match f.delimiter, s.finish with
    | none, .open q => f.failOpen table q
    | none, .line text _ =>
      let _ ← f.takeLine table text false s.isFirst s.isFirst
      return none
    | _, _ => return none

/-- Reads all words. -/
def takeAll (source : LineSource) : Batching Unit := fun batch =>
  iterate (fun (batch, source, scan) => do
    let (arrival, source) ← source.next
    match ← (f.takeArrival table scan arrival).run batch with
    | (.error code, batch) => return .inr (.error code, batch)
    | (.ok none, batch) => return .inr (.ok (), batch)
    | (.ok (some scan), batch) => return .inl (batch, source, scan))
    (batch, source, ({} : WordScan))

/-- Starts programs with all words. -/
def run (source : LineSource) : Act Nat := do
  let work : Batching Unit := do
    if f.mark.isNone && f.limit < lengthOf f.command then
      f.fail 1 (octets "cannot fit single argument within argument list size limit")
    f.takeAll table source
    let s ← get
    if f.mark.isNone && (!s.words.isEmpty || (s.runs = 0 && !f.needsWords)) then f.ship table
  let (result, s) ← work.run {}
  let (rest, s) ← (f.heedDownTo (s.running.length + 1) 0).run s
  match result, rest with
  | .error code, _ | .ok (), .error code => return code
  | .ok (), .ok () => return s.code

/-! ### The program -/

/-- The options of `xargs`. -/
def options : List OptionForm :=
  [valued 'n' "max-args", valued 'I', extended 'i' "replace", flag '0' "null",
    valued 'd' "delimiter", flag 'r' "no-run-if-empty", flag 't' "verbose", valued 'L',
    extended 'l' "max-lines", valued 'P' "max-procs", valued 'a' "arg-file",
    valued 's' "max-chars", flag 'x' "exit", valued 'E', extended 'e' "eof"]

/-- A form that takes shape, with the warnings about it. -/
structure Draft where
  form : BatchForm
  warnings : List Octets := []

/-- The draft after an option; what is wrong with it, and whether that is a misuse. -/
def Draft.add (d : Draft) : Char × Octets → Except (Octets × Bool) Draft
  | (key, word) => do
    let f := d.form
    let number (least : Int) : Except (Octets × Bool) Nat :=
      match intOf? (word.dropWhile fun c => c = ' ' || c = '\t') with
      | none => .error (octets "invalid number \"" ++ word ++ octets "\" for -" ++ key
          :: octets " option", true)
      | some n =>
        if n < least then
          .error (octets "value " ++ word ++ octets " for -" ++ key
            :: octets (" option should be >= " ++ toString least), true)
        else .ok n.toNat
    let instead (d : Draft) (isThere : Bool) (new old : String) : Draft :=
      if !isThere then d
      else
        { d with warnings := d.warnings ++ [octets ("warning: options " ++ old ++ " and " ++ new
            ++ " are mutually exclusive, ignoring previous " ++ old ++ " value")] }
    let withForm (d : Draft) (form : BatchForm) : Draft := { d with form }
    match key with
    | 'n' =>
      let n ← number 1
      if n = 1 && f.mark.isSome then return d
      let d := instead d f.lines.isSome "--max-args/-n" "--max-lines"
      let d := instead d f.mark.isSome "--max-args/-n" "--replace"
      return withForm d { f with words := some n, lines := none, mark := none }
    | 'L' | 'l' =>
      let n ← if word.isEmpty && key = 'l' then pure 1 else number 1
      let new := if key = 'l' then "--max-lines/-l" else "-L"
      let d := instead d f.words.isSome new "--max-args"
      let d := instead d f.mark.isSome new "--replace"
      return withForm d { f with words := none, lines := some n, mark := none }
    | 'I' | 'i' =>
      let mark := if word.isEmpty && key = 'i' then ['\x7b', '\x7d'] else word
      let d := instead d f.words.isSome "--replace/-I/-i" "--max-args"
      let d := instead d f.lines.isSome "--replace/-I/-i" "--max-lines"
      return withForm d { f with words := none, lines := none, mark := some mark }
    | '0' => return withForm d { f with delimiter := some '\x00' }
    | 'd' =>
      match delimiter? word with
      | .ok c => return withForm d { f with delimiter := some c }
      | .error message => throw (message, false)
    | 'r' => return withForm d { f with needsWords := true }
    | 't' => return withForm d { f with traced := true }
    | 'P' => return withForm d { f with workers := ← number 0 }
    | 'a' => return withForm d { f with source := some word }
    | 's' =>
      let n ← number 1
      if n ≤ 2092981 then return withForm d { f with limit := n }
      else
        let warning := octets "value " ++ word ++ octets " for -s option should be <= 2092981"
        return { form := { f with limit := 2092981 }, warnings := d.warnings ++ [warning] }
    | 'x' => return withForm d { f with strict := true }
    | _ => return withForm d { f with last := if word.isEmpty then none else some word }
where
  /-- The character that a word says. -/
  delimiter? (word : Octets) : Except Octets Char :=
    match word with
    | [c] => .ok c
    | '\\' :: c :: rest =>
      let number (base : Nat) (digits : Octets) : Option Char :=
        ((digits.mapM Decimal.hexValue?).filter (·.all (· < base))).map fun ds =>
          Char.ofNat (ds.foldl (fun n d => n * base + d) 0 % 256)
      match c, rest with
      | 'n', [] => .ok '\n'
      | 't', [] => .ok '\t'
      | 'r', [] => .ok '\r'
      | 'a', [] => .ok '\x07'
      | 'b', [] => .ok '\x08'
      | 'f', [] => .ok '\x0c'
      | 'v', [] => .ok '\x0b'
      | '\\', [] => .ok '\\'
      | 'x', digits =>
        match number 16 digits with
        | some c => .ok c
        | none => .error (octets "Invalid escape sequence " ++ word
            ++ octets " in input delimiter specification.")
      | c, rest =>
        match number 8 (c :: rest) with
        | some c => .ok c
        | none => .error (octets "Invalid escape sequence " ++ word
            ++ octets " in input delimiter specification.")
    | _ => .error (octets "Invalid input delimiter specification " ++ word
        ++ octets (": the delimiter must be either a single character or an escape sequence "
          ++ "starting with \\."))

end BatchForm

/-- Starts a program with words from the input as arguments. -/
def xargs (table : ProgramTable) : Program := fun name args => do
  match readOptions BatchForm.options true args with
  | .error message => misuse name 1 message
  | .ok (o, operands) =>
    let command := if operands.isEmpty then [octets "echo"] else operands
    match (o : List (Char × Octets)).foldlM BatchForm.Draft.add ⟨{ name, command }, []⟩ with
    | .error (message, true) => misuse name 1 message
    | .error (message, false) => complain 1 (name ++ octets ": " ++ message)
    | .ok d =>
      let f := d.form
      let _ ← eachOperand (fun text => complain 0 (name ++ octets ": " ++ text)) d.warnings
      if f.delimiter.isSome && f.last.isSome then
        let _ ← complain 0 (name
          ++ octets ": warning: the -E option has no effect if -0 or -d is used.\n")
      let ending := f.delimiter.getD '\n'
      match f.source with
      | none => f.run table (LineSource.ofOpen ['-'] 0 ending)
      | some path =>
        match ← openFile path .toRead with
        | .ok d => f.run table (LineSource.ofOpen path d ending)
        | .error e => complainOf name (octets "Cannot open input file " ++ quoted path) e

end MutationTesting.Tool
