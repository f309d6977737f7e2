import MutationTesting.Shell.Redirect
import MutationTesting.Tool.FindCondition
import MutationTesting.Tool.Removal
/-!
# Finding files

The program `find`: goes through directories and asks a condition about everything there is. Parts
of the condition do something: they show a path, start a program or remove what was found. What has
been removed meanwhile cannot be gone through any more.

## Main definitions

* `Found`, `FindState`, `Search`
* `holdsFor` — whether a condition holds
* `visit` — goes through something and what is below it
* `find`
-/

namespace MutationTesting.Tool

open Act

/-- What was found. -/
structure Found where
  path : Octets
  /-- The path from which the search began. -/
  start : Octets
  depth : Nat
  number : Nat
  node : Node

/-- How a search goes about links. -/
inductive LinkManner where
  | never
  | atStart
  | always
  deriving DecidableEq

/-- What is known of a search. -/
structure FindState where
  /-- What is below the directory that was found last does not count. -/
  pruned : Bool
  isOver : Bool
  code : Nat
  /-- The paths for programs that get several of them. -/
  collected : List (List Octets × List Octets)

/-- A search. -/
abbrev Search := StateT FindState Act

/-- The letter of a form in a search. -/
def findLetter : NodeForm → Char
  | .file _ => 'f'
  | form => formLetter form

/-- What a letter in a format means for something that was found. -/
def findField (k : Kernel) (x : Found) : Char → Option Octets
  | 'p' => some x.path
  | 'f' => some (lastName x.path)
  | 'h' => some (withoutLastName x.path)
  | 'P' => some ((x.path.drop x.start.length).dropWhile (· = '/'))
  | 'H' => some x.start
  | 's' => some (Decimal.natText (nodeSize x.node.form))
  | 'k' => some (Decimal.natText (nodeBlocks x.node.form))
  | 'b' => some (Decimal.natText (nodeBlocks x.node.form * 2))
  | 'd' => some (Decimal.natText x.depth)
  | 'm' => some (Nat.toDigits 8 x.node.mode)
  | 'M' => some (formLetter x.node.form :: modeLetters x.node.mode)
  | 'y' => some [findLetter x.node.form]
  | 'Y' =>
    match k.files.find .follow k.here x.path with
    | .ok n => some [((k.files.form? n).map findLetter).getD 'N']
    | .error .tooManyLinks => some ['L']
    | .error _ => some ['N']
  | 'l' =>
    match x.node.form with
    | .link target => some target
    | _ => some []
  | 'i' => some (Decimal.natText x.number)
  | 'n' => some (Decimal.natText (nameCount k.files x.number))
  | 'u' | 'g' => some (octets "root")
  | 'U' | 'G' => some ['0']
  | 'D' => some ['1']
  | 't' | 'a' | 'c' => some ((nodeMoment x.node).text (octets "%a %b %e %T.%N0 %Y"))
  | _ => none

/-- What two letters in a format mean: a time, and how it is shown. -/
def findTime (x : Found) (c : Char) : Octets :=
  let m := nodeMoment x.node
  match c with
  | '@' => m.text (octets "%s.%N0")
  | '+' => m.text (octets "%F+%T.%N0")
  | 'T' | 'X' => m.text (octets "%T.%N0")
  | 'S' => m.text (octets "%S.%N0")
  | c => m.text ['%', c]

/-- A text filled up to a width, at its end if so said. -/
def padded (left zeros : Bool) (width : Nat) (text : Octets) : Octets :=
  let fill := List.replicate (width - text.length) (if zeros && !left then '0' else ' ')
  if left then text ++ fill else fill ++ text

/-- A format with what is known of something in the places of its letters. The first argument is
above the length of the format. -/
def findText (k : Kernel) (x : Found) : Nat → Octets → Octets
  | 0, _ | _, [] => []
  | n + 1, '%' :: '%' :: rest => '%' :: findText k x n rest
  | n + 1, '%' :: rest =>
    let flags := rest.takeWhile fun c => (octets "-+ 0#").contains c
    let digits := (rest.drop flags.length).takeWhile Char.isDigit
    let pad (zeros : Bool) : Octets → Octets :=
      padded (flags.contains '-') (zeros && flags.contains '0') ((natOf? digits).getD 0)
    match rest.drop (flags.length + digits.length) with
    | [] => ['%']
    | c :: more =>
      match findField k x c, more with
      | some text, _ =>
        let text := if c = 'm' && flags.contains '#' then '0' :: text else text
        pad (c = 'm' || c = 'd') text ++ findText k x n more
      | none, kind :: more =>
        if c = 'T' || c = 'A' || c = 'C' then pad false (findTime x kind) ++ findText k x n more
        else '%' :: c :: findText k x n (kind :: more)
      | none, [] => ['%', c]
  | n + 1, '\\' :: c :: rest =>
    let digits := (c :: rest).takeWhile fun c => '0' ≤ c && c ≤ '7'
    match Shell.digitsIn? 8 (digits.take 3) with
    | some code => Char.ofNat (code % 256)
        :: findText k x n ((c :: rest).drop (digits.take 3).length)
    | none =>
      match c with
      | 'c' => []
      | 'n' => '\n' :: findText k x n rest
      | 't' => '\t' :: findText k x n rest
      | 'a' => '\x07' :: findText k x n rest
      | 'b' => '\x08' :: findText k x n rest
      | 'f' => '\x0c' :: findText k x n rest
      | 'r' => '\r' :: findText k x n rest
      | 'v' => '\x0b' :: findText k x n rest
      | '\\' => '\\' :: findText k x n rest
      | c => '\\' :: c :: findText k x n rest
  | n + 1, c :: rest => c :: findText k x n rest

/-- A line with all that is known of something. -/
def findLine (k : Kernel) (now : Moment) (x : Found) : Octets :=
  let target := match x.node.form with
    | .link target => octets " -> " ++ target
    | _ => []
  findText k x 64 (octets "%9i %6k %M %3n %-8u %-8g %8s ")
    ++ listedTime none now x.node ++ ' ' :: x.path
    ++ target ++ ['\n']

/-- A word with a path in the places of empty braces. -/
def withPath (path : Octets) : Octets → Octets
  | '{' :: '}' :: rest => path ++ withPath path rest
  | c :: rest => c :: withPath path rest
  | [] => []

/-- Something compared, as a sign says. -/
def isCompared (sign : Option Char) (n value : Int) : Bool :=
  match sign with
  | some '+' => n < value
  | some '-' => value < n
  | _ => value = n

section

variable (table : ProgramTable) (name : Octets)

/-- Starts a program, in a directory if one is given, and waits for it; its code. -/
def runProgram (place : Option Octets) (words : List Octets) : Act Nat := do
  match words with
  | [] => return 0
  | program :: args =>
    let pid ← fork do
      match place with
      | none => pure ()
      | some directory =>
        change fun k =>
          match k.files.find .follow k.here directory with
          | .ok n => k.adjustSelf fun p => { p with directory := n }
          | .error _ => k
      let e ← launch table program args
      put 2 (name ++ octets ": " ++ quoted program ++ octets ": " ++ octets e.message ++ ['\n'])
      return 127
    return Shell.codeOf (← exitOf pid)

/-- A complaint in a search. -/
def complainInSearch (path : Octets) (e : FileError) (tried : String := "") : Search Unit := do
  let code ← (complain 1 (name ++ octets ": " ++ octets tried ++ quoted path ++ octets ": "
    ++ octets e.message) : Act Nat)
  modify fun s => { s with code }

/-- Whether a condition holds for something; what it does is done. -/
def holdsFor (x : Found) : FindCondition → Search Bool
  | .name g caseless =>
    let last := lastName x.path
    return g.accepts (if caseless then last.map Char.toLower else last)
  | .path g caseless => return g.accepts (if caseless then x.path.map Char.toLower else x.path)
  | .regex p caseless => return p.occursIn (if caseless then x.path.map Char.toLower else x.path)
  | .target g caseless =>
    match x.node.form with
    | .link target => return g.accepts (if caseless then target.map Char.toLower else target)
    | _ => return false
  | .form letters => return letters.contains (findLetter x.node.form)
  | .otherForm letters => do
    let k ← (look : Act Kernel)
    let other := match k.files.nodeAt? .follow k.here x.path with
      | some node => node.form
      | none => x.node.form
    return letters.contains (findLetter other)
  | .size sign n block =>
    return isCompared sign n ((nodeSize x.node.form + block - 1) / block : Nat)
  | .empty =>
    match x.node.form with
    | .file content => return content.isEmpty
    | .directory _ entries => return entries.isEmpty
    | _ => return false
  | .newer time => return time < x.node.time
  | .aged sign n unit wholeUnits => do
    let past := (← (momentNow : Act Moment)) - nodeMoment x.node
    if wholeUnits then return isCompared sign n (past / unit)
    else
      let limit : Int := (n * unit : Nat)
      match sign with
      | some '+' => return limit < past
      | some '-' => return past < limit
      | _ => return past ≤ limit && limit - unit < past
  | .mode sign bits =>
    match sign with
    | some '-' => return x.node.mode &&& bits = bits
    | some '/' => return x.node.mode &&& bits != 0 || bits = 0
    | _ => return x.node.mode = bits
  | .number sign n => return isCompared sign n x.number
  | .names sign n => do
    let k ← (look : Act Kernel)
    return isCompared sign n (nameCount k.files x.number)
  | .constant b => return b
  | .print ending => do
    say (x.path ++ [ending])
    return true
  | .printf format => do
    let k ← (look : Act Kernel)
    say (findText k x (format.length + 1) format)
    return true
  | .list => do
    let k ← (look : Act Kernel)
    say (findLine k (← (momentNow : Act Moment)) x)
    return true
  | .exec words .together => do
    modify fun s => { s with
      collected :=
        if s.collected.any (·.1 = words) then
          s.collected.map fun (w, paths) => (w, if w = words then paths ++ [x.path] else paths)
        else s.collected ++ [(words, [x.path])] }
    return true
  | .exec words manner => do
    let inPlace := manner = .inPlace
    let path := if inPlace then '.' :: '/' :: lastName x.path else x.path
    let agreed ← (agrees (manner = .asking) (octets "< " ++ words.headD [] ++ octets " ... "
      ++ x.path ++ octets " > ? ") : Act Bool)
    if agreed then
      let place := if inPlace && 0 < x.depth then some (withoutLastName x.path) else none
      return (← runProgram table name place (words.map (withPath path))) = 0
    else return false
  | .delete => do
    if x.path = ['.'] then return true
    else
      let result ← (onFiles fun fs here =>
        if fs.isDirectory x.number then fs.removeDirectory here x.path
        else fs.removeFile here x.path : Act (Except FileError Unit))
      match result with
      | .ok () => return true
      | .error e => do
        complainInSearch name x.path e "cannot delete "
        return false
  | .prune => do
    modify fun s => { s with pruned := true }
    return true
  | .quit => do
    modify fun s => { s with isOver := true }
    return true
  | .not a => return !(← holdsFor x a)
  | .both a b => do
    let first ← holdsFor x a
    if first && !(← get).isOver then holdsFor x b else return false
  | .either a b => do
    if ← holdsFor x a then return true else holdsFor x b
  | .second a b => do
    let _ ← holdsFor x a
    if (← get).isOver then return false else holdsFor x b

/-- Goes through something and what is below it, as far as it is still there. The first argument
bounds the depth. -/
def visit (c : FindCondition) (l : FindLimits) (links : LinkManner) (start : Octets) :
    Nat → Nat → Octets → Search Unit
  | 0, _, _ => return ()
  | bound + 1, depth, path => do
    if (← get).isOver then return ()
    let k ← (look : Act Kernel)
    let follows := links = .always || (links = .atStart && depth = 0)
    let found : Except FileError Nat := match follows, k.files.find .follow k.here path with
      | true, .ok n => .ok n
      | _, _ => k.files.find .stay k.here path
    match found with
    | .error e => complainInSearch name path e
    | .ok n =>
      match k.files.node? n with
      | none => return ()
      | some node =>
        let ask : Search Unit := do
          if l.least ≤ depth then
            let _ ← holdsFor table name ⟨path, start, depth, n, node⟩ c
        modify fun s => { s with pruned := false }
        if !l.depthFirst then ask
        let s ← get
        let goesOn := !s.isOver && (l.depthFirst || !s.pruned) && l.most.all (depth < ·)
        if k.files.isDirectory n && goesOn then
          let k ← (look : Act Kernel)
          match k.files.find .follow k.here path with
          | .error e => complainInSearch name path e
          | .ok n =>
            for (entry, _) in k.files.entries n do
              visit c l links start bound (depth + 1) (inside path entry)
        if l.depthFirst && !(← get).isOver then ask

/-- Starts the programs that get several paths. -/
def runCollected : List (List Octets × List Octets) → Act Nat
  | [] => return 0
  | (words, found) :: rest => do
    let words := words.flatMap fun w => if w = ['{', '}'] then found else [w]
    let code ← runProgram table name none words
    let later ← runCollected rest
    return max (if code = 0 then 0 else 1) later

end

/-- How links are gone about, and the words after those that say so. -/
def linkManner (manner : LinkManner) : List Octets → LinkManner × List Octets
  | ['-', 'L'] :: rest => linkManner .always rest
  | ['-', 'H'] :: rest => linkManner .atStart rest
  | ['-', 'P'] :: rest => linkManner .never rest
  | ['-', 'O', _] :: rest => linkManner manner rest
  | rest => (manner, rest)

/-- Goes through directories. -/
def find (table : ProgramTable) : Program := fun name args => do
  let (links, args) := linkManner .never args
  let isPath (a : Octets) : Bool := a.head? != some '-' && a != ['!'] && a != ['(']
  let paths := args.takeWhile isPath
  let words := args.drop paths.length
  let paths := if paths.isEmpty then [['.']] else paths
  let k ← look
  let l := FindLimits.ofWords words
  let condition? : Except Octets FindCondition :=
    if words.isEmpty then .ok (.print '\n')
    else do
      let tokens ← FindToken.ofWords k (octets "findutils-default") none (words.length + 1) words
      let c ← FindCondition.ofTokens tokens
      return if l.acts then c else .both c (.print '\n')
  match condition? with
  | .error e => complain 1 (name ++ octets ": " ++ e)
  | .ok c =>
    let search : Search Unit := paths.forM fun path =>
      visit table name c l links path FileSystem.pathLimit 0 path
    let (_, s) ← search.run ⟨false, false, 0, []⟩
    return max s.code (← runCollected table name s.collected)

end MutationTesting.Tool
