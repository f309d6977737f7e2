import MutationTesting.Tool.Line
/-!
# Repeated lines

The program `uniq`: of lines that follow each other and look the same it writes the first one, or
all of them, with marks around groups of them if so said.

## Main definitions

* `GroupMarks` — where groups are marked
* `UniqueForm` — what is written
* `UniqueForm.groupStep`, `UniqueForm.step` — what becomes of a line
* `uniq`
-/

namespace MutationTesting.Tool

open Act

/-- Where groups of lines are marked. -/
inductive GroupMarks where
  | unmarked
  | before
  /-- Between groups. -/
  | between
  | after
  | both
  deriving DecidableEq

/-- What is written of repeated lines. -/
structure UniqueForm where
  /-- Lines that are not repeated, the first of repeated ones, and the later ones. -/
  unique : Bool := true
  first : Bool := true
  later : Bool := false
  counts : Bool := false
  /-- All lines are written, in groups. -/
  grouping : Option GroupMarks := none
  /-- Where groups of repeated lines are marked if later ones are written. -/
  marks : GroupMarks := .unmarked
  /-- So many fields and then so many characters are not compared. -/
  fields : Nat := 0
  skipped : Nat := 0
  /-- So many characters are compared at most. -/
  limit : Option Nat := none
  ignoresCase : Bool := false
  ending : Char := '\n'
  /-- What is written was chosen. -/
  isChosen : Bool := false
  /-- The number of fields was written in digits of options. -/
  hasDigits : Bool := false

/-- How far lines were compared. -/
structure UniqueState where
  last : Option Octets := none
  /-- The last line is the same as so many before it. -/
  repeats : Nat := 0
  /-- There was a group before. -/
  isLater : Bool := false

/-- A line without its first fields. -/
def dropFields : Nat → Octets → Octets
  | 0, line => line
  | n + 1, line =>
    let isBlank (c : Char) : Bool := c = ' ' || c = '\t'
    dropFields n ((line.dropWhile isBlank).dropWhile (!isBlank ·))

namespace UniqueForm

variable (f : UniqueForm)

/-- What is compared of a line. -/
def view (line : Octets) : Octets :=
  let line := (dropFields f.fields line).drop f.skipped
  let line := match f.limit with
    | some n => line.take n
    | none => line
  if f.ignoresCase then line.map Char.toLower else line

/-- The line looks like the one before. -/
def isSame (s : UniqueState) (line : Octets) : Bool :=
  s.last.any fun last => f.view last = f.view line

/-- Lines are written as they come, or the first ones of groups. -/
def isSimple : Bool := f.unique && f.first && !f.counts

/-- What becomes of a line if all that is written is known when it comes. -/
def groupStep (s : UniqueState) (line : Octets) : UniqueState × Octets :=
  let isNew := !f.isSame s line
  let marked := isNew && match f.grouping with
    | none | some .unmarked => false
    | some .before | some .both => true
    | some .between | some .after => s.isLater
  let isShown := isNew || f.grouping.isSome
  let s := if isShown then { s with last := some line, isLater := true } else s
  (s, (if marked then [f.ending] else []) ++ if isShown then line ++ [f.ending] else [])

/-- What is written of the last line, given whether the next one is the same. -/
def written (s : UniqueState) (last : Octets) (isSame : Bool) (repeats : Nat) : Octets :=
  let isShown := if repeats = 0 then f.unique else if isSame then f.later else f.first
  let digits := Decimal.natText (repeats + 1)
  let count := if f.counts then List.replicate (7 - digits.length) ' ' ++ digits ++ [' '] else []
  if isShown && s.last.isSome then count ++ last ++ [f.ending] else []

/-- What becomes of a line, so that what is written of the one before is known. -/
def step (s : UniqueState) (line : Octets) : UniqueState × Octets :=
  match s.last with
  | none => ({ s with last := some line }, [])
  | some last =>
    let isSame := f.isSame s line
    let repeats := if isSame then s.repeats + 1 else s.repeats
    let marked := isSame && repeats = 1
      && (f.marks = .before || f.marks = .between && s.isLater)
    let isLater := s.isLater || (!isSame && repeats != 0)
    let shown := if !isSame || f.later then f.written s last isSame repeats else []
    let s := if isSame then { s with last := if f.later then some line else s.last, repeats }
      else { s with last := some line, repeats := 0 }
    ({ s with isLater }, (if marked then [f.ending] else []) ++ shown)

/-- What is written at the end. -/
def finish (s : UniqueState) : Octets :=
  if f.isSimple then
    if s.isLater && (f.grouping = some .both || f.grouping = some .after) then [f.ending] else []
  else f.written s (s.last.getD []) false s.repeats

/-- The form after an option, or what is wrong with it and whether that is a misuse. -/
def add (f : UniqueForm) : Char × Octets → Except (Octets × Bool) UniqueForm
  | (key, word) => do
    let number (what : String) : Except (Octets × Bool) Nat :=
      match natOf? word with
      | some n => .ok n
      | none => .error (word ++ octets (": invalid number of " ++ what), false)
    let pick (option : String) (table : List (String × GroupMarks)) :
        Except (Octets × Bool) GroupMarks :=
      match chosen option (table.map fun entry => [entry.1]) word with
      | .ok i => .ok ((table[i]?.map (·.2)).getD .unmarked)
      | .error message => .error (message, true)
    match key with
    | 'c' => return { f with counts := true, isChosen := true }
    | 'd' => return { f with unique := false, isChosen := true }
    | 'u' => return { f with first := false, isChosen := true }
    | 'D' => return { f with unique := false, later := true, isChosen := true }
    | 'A' =>
      let marks ← if word.isEmpty then pure .unmarked else
        pick "--all-repeated" [("none", .unmarked), ("prepend", .before), ("separate", .between)]
      return { f with unique := false, later := true, marks, isChosen := true }
    | 'G' =>
      let marks ← if word.isEmpty then pure .between else
        pick "--group" [("prepend", .before), ("append", .after), ("separate", .between),
          ("both", .both)]
      return { f with grouping := some marks }
    | 'i' => return { f with ignoresCase := true }
    | 'f' => return { f with fields := ← number "fields to skip", hasDigits := false }
    | 's' => return { f with skipped := ← number "bytes to skip" }
    | 'w' => return { f with limit := some (← number "bytes to compare") }
    | 'z' => return { f with ending := '\x00' }
    | digit =>
      let fields := if f.hasDigits then f.fields else 0
      return { f with fields := fields * 10 + digit.toNat - 48, hasDigits := true }

/-- The form that options ask for, or what is wrong with them and whether that is a misuse. -/
def ofOptions (o : Options) : Except (Octets × Bool) UniqueForm := do
  let f ← (o : List (Char × Octets)).foldlM add {}
  if f.grouping.isSome && f.isChosen then
    throw (octets "--group is mutually exclusive with -c/-d/-D/-u", true)
  if f.counts && f.later then
    throw (octets "printing all duplicated lines and repeat counts is meaningless", true)
  return f

/-- The options of `uniq`. -/
def options : List OptionForm :=
  [flag 'c' "count", flag 'd' "repeated", flag 'u' "unique", flag 'i' "ignore-case",
    valued 'f' "skip-fields", valued 's' "skip-chars", valued 'w' "check-chars", flag 'D',
    longExtended 'A' "all-repeated", longExtended 'G' "group", flag 'z' "zero-terminated"]
    ++ "0123456789".toList.map flag

end UniqueForm

/-- Writes lines that follow each other and are the same only once. -/
def uniq : Program := fun name args =>
  let isOldSkip (word : Octets) : Bool := word.head? = some '+' && (natOf? (word.drop 1)).isSome
  withOptions name UniqueForm.options 1 args fun o operands => do
    let o := o ++ ((operands.filter isOldSkip).map fun word => ('s', word.drop 1))
    let paths := operands.filter (!isOldSkip ·)
    match UniqueForm.ofOptions o, paths[2]? with
    | .error (message, true), _ => misuse name 1 message
    | .error (message, false), _ => complain 1 (name ++ octets ": " ++ message)
    | .ok _, some extra => misuse name 1 (octets "extra operand " ++ quoted extra)
    | .ok f, none =>
      let blame : Blame := fun path e =>
        if isReadFault e then octets "error reading " ++ named path else plain path
      let input := paths.headD ['-']
      match ← if input = ['-'] then pure (.ok 0) else openFile input .toRead with
      | .error e => complainOf name (plain input) e
      | .ok d =>
        let step (s : UniqueState) (line : Octets) (_ : Bool) : UniqueState × Octets :=
          if f.isSimple then f.groupStep s line else f.step s line
        let pass : Act Nat :=
          filterSource name {} step (LineSource.ofOpen input d f.ending) blame true f.finish
        match paths[1]? with
        | none | some ['-'] => pass
        | some path =>
          match ← openFile path .toWrite with
          | .error e => complainOf name (plain path) e
          | .ok target =>
            let _ ← redirect 1 target
            pass

end MutationTesting.Tool
