import MutationTesting.Text.Pattern
import MutationTesting.Tool.Basic
/-!
# Editing scripts

The scripts of the program `sed`: a list of commands, each for all lines or for those that an
address selects, or for ranges of lines. What is wrong with a script is told with the number of the
character at which it was noticed.

## Main definitions

* `Sed.Address`, `Sed.Selector`, `Sed.Command`
* `Sed.readScript`
-/

namespace MutationTesting.Tool.Sed

/-- Which lines are meant. -/
inductive Address where
  | line (n : Nat)
  | last
  /-- Lines that a pattern matches; without a pattern the latest one is meant. -/
  | matching (p : Option Pattern)
  | step (first step : Nat)

/-- Where a range of lines ends. -/
inductive RangeEnd where
  | at (a : Address)
  /-- So many lines later. -/
  | plus (n : Nat)
  /-- At the next line whose number is a multiple. -/
  | multiple (n : Nat)

/-- The lines to which a command applies. -/
structure Selector where
  first : Option Address
  final : Option RangeEnd
  negated : Bool

/-- A part of the text that takes the place of a match. -/
inductive ReplacementPart where
  | text (cs : Octets)
  | group (n : Nat)
  /-- A letter that says how what follows is written: upper or lower case, as a whole or its first
  character, or as it is. -/
  | letterCase (c : Char)

/-- How a match is replaced. -/
structure Substitution where
  pattern : Option Pattern
  parts : List ReplacementPart
  /-- The first match that is replaced. -/
  least : Nat
  all : Bool
  shown : Bool
  file : Option Octets

/-- What is done. -/
inductive Command where
  /-- Goes on after the command of a number, unless the line is selected. -/
  | opening (finish : Nat)
  | nothing
  | append (text : Octets)
  | insert (text : Octets)
  | change (text : Octets)
  /-- Goes on at the command of a number, or at the end. -/
  | branch (label : Octets)
  | branchIf (wanted : Bool) (label : Octets)
  | delete
  | deleteFirst
  | print
  | printFirst
  | number
  | fileName
  | next
  | nextAppended
  | hold (appended : Bool)
  | get (appended : Bool)
  | exchange
  /-- Shows the space, in lines of a width if one is given. -/
  | list (width : Option Nat)
  | quit (printed : Bool) (code : Nat)
  | readFile (path : Octets)
  | writeFile (path : Octets)
  | substitute (s : Substitution)
  | translate (pairs : List (Char × Char))
  | clear
  | label (name : Octets)

/-- What is wrong with a script. -/
inductive ScriptFault where
  /-- It was noticed after so many characters. -/
  | at (place : Nat) (message : Octets)
  /-- There is no such label. -/
  | label (name : Octets)

/-- A script as it is read: its length, what is left, and the commands so far, the last one first.
-/
structure Reading where
  length : Nat
  rest : Octets
  commands : List (Selector × Command)
  /-- The commands that opened blocks which are not closed, by their numbers. -/
  blocks : List Nat

/-- A reader of scripts. -/
abbrev Reader := StateT Reading (Except ScriptFault)

/-- Gives up at the cursor. -/
def refuse {α : Type} (message : String) : Reader α := do
  let r ← get
  throw (.at (r.length - r.rest.length) (octets message))

/-- The characters at the cursor that are of a kind. -/
def takeWhile (p : Char → Bool) : Reader Octets := do
  let taken := (← get).rest.takeWhile p
  modify fun r => { r with rest := r.rest.drop taken.length }
  return taken

/-- Goes on after so many characters. -/
def skip (n : Nat) : Reader Unit := modify fun r => { r with rest := r.rest.drop n }

/-- A blank in a line. -/
def isBlankHere (c : Char) : Bool := c = ' ' || c = '\t'

/-- The number at the cursor; without digits it is zero. -/
def number : Reader Nat := do return (natOf? (← takeWhile Char.isDigit)).getD 0

/-- Text up to a delimiter in the same line, and what follows the delimiter; without one, what is
left. The delimiter loses its backslash where it has one; in a set of a pattern it has no meaning.
A line feed belongs to the text if there is a backslash before it. -/
def delimited (delimiter : Char) (pattern : Bool) (text : Octets) :
    Except Octets (Octets × Octets) :=
  go (text.length + 1) false [] text
where
  /-- The text, given what was taken of it, the last character first. -/
  go : Nat → Bool → Octets → Octets → Except Octets (Octets × Octets)
    | 0, _, _, rest => .error rest
    | n + 1, inSet, taken, rest =>
      match rest with
      | [] => .error []
      | '\\' :: d :: more =>
        if inSet && d != '\n' then go n inSet ('\\' :: taken) (d :: more)
        else if d = delimiter then go n inSet (d :: taken) more
        else go n inSet (d :: '\\' :: taken) more
      | c :: more =>
        if c = delimiter && !inSet then .ok (taken.reverse, more)
        else if c = '\n' then .error rest
        else if c = '[' && pattern && !inSet then
          -- A closing bracket in the first place is a member.
          match more with
          | '^' :: ']' :: more => go n true (']' :: '^' :: c :: taken) more
          | ']' :: more => go n true (']' :: c :: taken) more
          | _ => go n true (c :: taken) more
        else go n (inSet && c != ']') (c :: taken) more

/-- Text at the cursor up to a delimiter. -/
def delimitedHere (delimiter : Char) (pattern : Bool) (message : String) : Reader Octets := do
  match delimited delimiter pattern (← get).rest with
  | .ok (text, rest) =>
    modify fun r => { r with rest }
    return text
  | .error rest =>
    modify fun r => { r with rest }
    refuse message

/-- The character that a number after a backslash and a letter stands for, and what follows. -/
def numbered? (letter : Char) (text : Octets) : Option (Char × Octets) := do
  let (base, size) ← [('x', (16, 2)), ('o', (8, 3)), ('d', (10, 3))].lookup letter
  let digits := (text.take size).takeWhile fun c => (Decimal.hexValue? c).any (· < base)
  if digits.isEmpty then none
  else
    let n := digits.foldl (fun n c => base * n + (Decimal.hexValue? c).getD 0) 0
    return (Char.ofNat (n % 256), text.drop digits.length)

/-- A pattern whose characters are not written by their numbers. -/
def withoutNumbers : Nat → Octets → Octets
  | 0, text => text
  | n + 1, '\\' :: c :: rest =>
    match numbered? c rest with
    | some (d, rest) =>
      (if d.isAlphanum || d.toNat ≥ 128 then [d] else ['\\', d]) ++ withoutNumbers n rest
    | none => '\\' :: c :: withoutNumbers n rest
  | n + 1, c :: rest => c :: withoutNumbers n rest
  | _, [] => []

/-- The pattern that a text is; an empty text means the latest one. -/
def patternOf (extended caseless : Bool) (text : Octets) : Reader (Option Pattern) := do
  if text.isEmpty then return none
  else
    match Pattern.ofText? ⟨extended, true, true⟩ (withoutNumbers text.length text) with
    | .ok p => return some (if caseless then p.caseless else p)
    | .error e => refuse e

/-- An address at the cursor, if there is one. -/
def address? (extended : Bool) : Reader (Option Address) := do
  match (← get).rest with
  | '$' :: _ =>
    skip 1
    return some .last
  | c :: rest =>
    if c.isDigit then
      let n ← number
      match (← get).rest with
      | '~' :: _ =>
        skip 1
        return some (.step n (← number))
      | _ => return some (.line n)
    else if c = '/' || c = '\\' then
      let delimiter := if c = '/' then c else rest.headD c
      skip (if c = '/' then 1 else 2)
      let text ← delimitedHere delimiter true "unterminated address regex"
      let flags ← takeWhile fun c => c = 'I' || c = 'M'
      return some (.matching (← patternOf extended (flags.contains 'I') text))
    else return none
  | [] => return none

/-- The end of a range at the cursor. -/
def rangeEnd (extended : Bool) : Reader RangeEnd := do
  let _ ← takeWhile isBlankHere
  match (← get).rest with
  | '+' :: _ =>
    skip 1
    return .plus (← number)
  | '~' :: _ =>
    skip 1
    return .multiple (← number)
  | _ =>
    match ← address? extended with
    | some a => return .at a
    | none =>
      skip 1
      refuse "unexpected `,'"

/-- The lines that a command is for. -/
def selector (extended : Bool) : Reader Selector := do
  let first ← address? extended
  let _ ← takeWhile isBlankHere
  let final : Option RangeEnd ←
    match first, (← get).rest with
    | some _, ',' :: _ => do
      skip 1
      some <$> rangeEnd extended
    | _, _ => pure none
  let _ ← takeWhile isBlankHere
  match (← get).rest with
  | '!' :: _ =>
    skip 1
    let _ ← takeWhile isBlankHere
    if (← get).rest.head? = some '!' then
      skip 1
      refuse "multiple `!'s"
    return ⟨first, final, true⟩
  | _ => return ⟨first, final, false⟩

/-- The text of a command that adds one: up to the end of a line that does not end in a
backslash. -/
def addedText : Reader Octets := do
  let _ ← takeWhile isBlankHere
  let begun : Bool ←
    match (← get).rest with
    | [] => refuse "expected \\ after `a', `c' or `i'"
    | '\\' :: rest =>
      let blanks := rest.takeWhile isBlankHere
      match rest.drop blanks.length with
      | '\n' :: _ => skip (blanks.length + 2)
      | _ => skip 1
      pure true
    | _ => pure false
  let rec go : Nat → Octets → Octets × Octets
    | 0, text => ([], text)
    | _, [] => ([], [])
    | n + 1, '\\' :: c :: rest =>
      let (t, r) := go n rest
      (c :: t, r)
    | n + 1, c :: rest =>
      if c = '\n' then ([], rest)
      else
        let (t, r) := go n rest
        (c :: t, r)
  let text := (← get).rest
  if begun && text.isEmpty then return []
  let (added, rest) := go (text.length + 1) text
  modify fun r => { r with rest }
  return added ++ ['\n']

/-- The character that a letter after a backslash stands for. -/
def letterCharacter? (c : Char) : Option Char :=
  [('n', '\n'), ('t', '\t'), ('r', '\r'), ('a', '\x07'), ('f', '\x0c'), ('v', '\x0b')].lookup c

/-- The parts of a replacement. The first argument is at least its length. -/
def replacementParts : Nat → Octets → List ReplacementPart
  | 0, _ | _, [] => []
  | n + 1, '&' :: rest => .group 0 :: replacementParts n rest
  | n + 1, '\\' :: c :: rest =>
    match Decimal.digitValue? c, numbered? c rest with
    | some k, _ => .group k :: replacementParts n rest
    | none, some (d, rest) => .text [d] :: replacementParts n rest
    | none, none =>
      if "LUluE".toList.contains c then .letterCase c :: replacementParts n rest
      else .text [(letterCharacter? c).getD c] :: replacementParts n rest
  | n + 1, c :: rest => .text [c] :: replacementParts n rest

/-- The characters of both sides of a transliteration, without backslashes. -/
def plainCharacters : Octets → Octets
  | '\\' :: 'n' :: rest => '\n' :: plainCharacters rest
  | '\\' :: 't' :: rest => '\t' :: plainCharacters rest
  | '\\' :: '\\' :: rest => '\\' :: plainCharacters rest
  | c :: rest => c :: plainCharacters rest
  | [] => []

/-- A path up to the end of the line. -/
def filePath : Reader Octets := do
  let _ ← takeWhile isBlankHere
  let path ← takeWhile (· != '\n')
  if path.isEmpty then refuse "missing filename in r/R/w/W commands"
  return path

/-- Goes on after the end of a command. -/
def endCommand : Reader Unit := do
  let _ ← takeWhile isBlankHere
  match (← get).rest with
  | [] | '}' :: _ | '#' :: _ => return ()
  | c :: _ =>
    skip 1
    if c != ';' && c != '\n' then refuse "extra characters after command"

/-- What is said behind a replacement. -/
structure SubstitutionFlags where
  all : Bool := false
  shown : Bool := false
  caseless : Bool := false
  least : Option Nat := none
  file : Option Octets := none

/-- The flags at the cursor, up to the end of the command. The first argument bounds their
number. -/
def substitutionFlags : Nat → SubstitutionFlags → Reader SubstitutionFlags
  | 0, f => return f
  | n + 1, f => do
    let _ ← takeWhile isBlankHere
    match (← get).rest with
    | [] | '}' :: _ | '#' :: _ => return f
    | c :: _ =>
      if c.isDigit then
        let k ← number
        if f.least.isSome then refuse "multiple number options to `s' command"
        if k = 0 then refuse "number option to `s' command may not be zero"
        substitutionFlags n { f with least := some k }
      else
        skip 1
        match c with
        | ';' | '\n' => return f
        | 'i' | 'I' => substitutionFlags n { f with caseless := true }
        | 'm' | 'M' | 'e' => substitutionFlags n f
        | 'g' =>
          if f.all then refuse "multiple `g' options to `s' command"
          substitutionFlags n { f with all := true }
        | 'p' =>
          if f.shown then refuse "multiple `p' options to `s' command"
          substitutionFlags n { f with shown := true }
        | 'w' => return { f with file := some (← filePath) }
        | _ => refuse "unknown option to `s'"

/-- How many groups a pattern has. -/
def groupCount : Pattern → Nat
  | .seq a b | .alt a b => max (groupCount a) (groupCount b)
  | .times a _ _ => groupCount a
  | .group n a => max n (groupCount a)
  | _ => 0

/-- A command that replaces matches. -/
def substitution (extended : Bool) : Reader Command := do
  let message := "unterminated `s' command"
  match (← get).rest with
  | [] => refuse message
  | delimiter :: _ =>
    skip 1
    let text ← delimitedHere delimiter true message
    let replacement ← delimitedHere delimiter false message
    let f ← substitutionFlags ((← get).rest.length + 1) {}
    let pattern ← patternOf extended f.caseless text
    let parts := replacementParts (replacement.length + 1) replacement
    match pattern, (parts.filterMap fun
        | .group n => some n
        | _ => none).max? with
    | some p, some n =>
      if groupCount p < n then
        refuse s!"invalid reference \\{n} on `s' command's RHS"
    | _, _ => pure ()
    return .substitute ⟨pattern, parts, f.least.getD 1, f.all, f.shown, f.file⟩

/-- A command that replaces characters. -/
def transliteration : Reader Command := do
  let message := "unterminated `y' command"
  match (← get).rest with
  | [] => refuse message
  | delimiter :: _ =>
    skip 1
    let source ← plainCharacters <$> delimitedHere delimiter false message
    let target ← plainCharacters <$> delimitedHere delimiter false message
    if source.length != target.length then
      refuse "strings for `y' command are different lengths"
    endCommand
    return .translate (source.zip target)

/-- A command after the lines that it is for. -/
def command (extended : Bool) (sel : Selector) : Reader Command := do
  match (← get).rest with
  | [] => refuse "missing command"
  | c :: _ =>
    skip 1
    let simple (command : Command) : Reader Command := do
      endCommand
      return command
    let withNumber (make : Option Nat → Command) : Reader Command := do
      let _ ← takeWhile isBlankHere
      let digits ← takeWhile Char.isDigit
      simple (make (natOf? digits))
    let oneAddress (act : Reader Command) : Reader Command := do
      if sel.final.isSome then refuse "command only uses one address"
      act
    let label : Reader Octets := do
      let _ ← takeWhile isBlankHere
      takeWhile fun c => !isBlankHere c && c != '\n' && c != ';' && c != '}'
    match c with
    | 'a' => return .append (← addedText)
    | 'i' => return .insert (← addedText)
    | 'c' => return .change (← addedText)
    | 's' => substitution extended
    | 'y' => transliteration
    | 'b' => return .branch (← label)
    | 't' => return .branchIf true (← label)
    | 'T' => return .branchIf false (← label)
    | ':' =>
      if sel.first.isSome then refuse ": doesn't want any addresses"
      let name ← label
      if name.isEmpty then refuse "\":\" lacks a label"
      return .label name
    | 'd' => simple .delete
    | 'D' => simple .deleteFirst
    | 'p' => simple .print
    | 'P' => simple .printFirst
    | '=' => simple .number
    | 'F' => simple .fileName
    | 'n' => simple .next
    | 'N' => simple .nextAppended
    | 'h' => simple (.hold false)
    | 'H' => simple (.hold true)
    | 'g' => simple (.get false)
    | 'G' => simple (.get true)
    | 'x' => simple .exchange
    | 'z' => simple .clear
    | 'l' => withNumber .list
    | 'q' => oneAddress (withNumber fun n => .quit true (n.getD 0))
    | 'Q' => oneAddress (withNumber fun n => .quit false (n.getD 0))
    | 'r' => return .readFile (← filePath)
    | 'w' => return .writeFile (← filePath)
    | c => refuse ("unknown command: `" ++ c.toString ++ "'")

/-- Line zero is meant where it has no meaning: only a range that ends where a pattern matches can
begin there. -/
def misusesZero (sel : Selector) : Bool :=
  match sel.first, sel.final with
  | some (.line 0), some (.at (.matching _)) => false
  | some (.line 0), _ => true
  | _, _ => false

/-- Reads the commands of a script. The first argument is above its length. -/
def readCommands (extended : Bool) : Nat → Reader Unit
  | 0 => return ()
  | n + 1 => do
    let _ ← takeWhile fun c => isBlankHere c || c = '\n' || c = ';'
    match (← get).rest with
    | [] =>
      if !(← get).blocks.isEmpty then throw (.at 0 (octets "unmatched `\x7b'"))
    | '#' :: _ =>
      let _ ← takeWhile (· != '\n')
      readCommands extended n
    | '+' :: _ | '~' :: _ =>
      skip 2
      refuse "invalid usage of +N or ~N as first address"
    | _ =>
      let s ← selector extended
      match (← get).rest with
      | '}' :: _ =>
        skip 1
        let r ← get
        match r.blocks with
        | [] => refuse "unexpected `\x7d'"
        | start :: blocks =>
          if s.first.isSome then refuse "\x7d doesn't want any addresses"
          let finish := r.commands.length
          let commands := r.commands.reverse.zipIdx.map fun ((s, c), i) =>
            if i = start then (s, .opening finish) else (s, c)
          set { r with commands := commands.reverse, blocks }
          endCommand
          readCommands extended n
      | '#' :: _ =>
        skip 1
        refuse "comments don't accept any addresses"
      | '{' :: _ =>
        skip 1
        modify fun r => { r with
          commands := (s, .opening 0) :: r.commands
          blocks := r.commands.length :: r.blocks }
        readCommands extended n
      | rest =>
        if misusesZero s && !rest.isEmpty then
          skip 1
          refuse "invalid usage of line address 0"
        let c ← command extended s
        modify fun r => { r with commands := (s, c) :: r.commands }
        readCommands extended n

/-- The place of a label; the end if it is empty. -/
def labelPlace? (commands : List (Selector × Command)) (name : Octets) : Option Nat :=
  if name.isEmpty then some commands.length
  else
    commands.findIdx? fun
      | (_, .label l) => l = name
      | _ => false

/-- A label to which a command goes on and that there is not. -/
def missingLabel? (commands : List (Selector × Command)) : Option Octets :=
  commands.findSome? fun (_, c) =>
    match c with
    | .branch name | .branchIf _ name =>
      if (labelPlace? commands name).isNone then some name else none
    | _ => none

/-- The commands of a script, or what is wrong with it. -/
def readScript (extended : Bool) (script : Octets) :
    Except ScriptFault (List (Selector × Command)) := do
  let (_, r) ← (readCommands extended (script.length + 2)).run ⟨script.length, script, [], []⟩
  let commands := r.commands.reverse
  match missingLabel? commands with
  | some name => throw (.label name)
  | none => return commands

end MutationTesting.Tool.Sed
