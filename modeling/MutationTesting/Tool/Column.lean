import MutationTesting.Tool.Line
/-!
# Columns

The programs that count columns: `fold` breaks lines that are too long, `expand` writes blanks in
the place of tabs and `unexpand` tabs in the place of blanks. A tab leads to the next stop.

## Main definitions

* `FoldForm`, `fold`
* `TabStops`, `TabStops.after?` — the stops and the next one
* `TabStops.expanded`, `TabStops.unexpanded`
* `expand`, `unexpand`
-/

namespace MutationTesting.Tool

open Act

/-- A character that is a blank. -/
def isBlank (c : Char) : Bool := c = ' ' || c = '\t'

/-! ### Long lines -/

/-- How lines are broken. -/
structure FoldForm where
  width : Nat
  /-- Every byte counts as a column. -/
  byBytes : Bool
  /-- After blanks, where there are any. -/
  atBlanks : Bool

/-- The line that is being broken: what was finished of it, in pieces, the last first, and what was
not, backwards. -/
structure FoldState where
  finished : List Octets := []
  line : Octets := []
  column : Nat := 0

namespace FoldForm

variable (f : FoldForm)

/-- The column after a character. -/
def columnAfter (column : Nat) (c : Char) : Nat :=
  if f.byBytes then column + 1
  else
    match c with
    | '\x08' => column - 1
    | '\r' => 0
    | '\t' => column + 8 - column % 8
    | _ => column + 1

/-- The line is broken before a character, unless it would be the first one. -/
def breakBefore (s : FoldState) (c : Char) : FoldState :=
  if s.line.isEmpty then { s with line := [c], column := f.columnAfter s.column c }
  else ⟨['\n'] :: s.line.reverse :: s.finished, [c], f.columnAfter 0 c⟩

/-- The state after a character. -/
def step (s : FoldState) (c : Char) : FoldState :=
  let column := f.columnAfter s.column c
  let tail := s.line.takeWhile (!isBlank ·)
  if column ≤ f.width then { s with line := c :: s.line, column }
  else if f.atBlanks && tail.length < s.line.length then
    let start := tail.foldr (fun c column => f.columnAfter column c) 0
    let s := ⟨['\n'] :: (s.line.drop tail.length).reverse :: s.finished, tail, start⟩
    let column := f.columnAfter start c
    if column ≤ f.width then { s with line := c :: tail, column } else f.breakBefore s c
  else f.breakBefore s c

/-- A line, broken where it is too long. -/
def broken (line : Octets) : Octets :=
  let s := line.foldl f.step {}
  (s.line.reverse :: s.finished).reverse.flatten

end FoldForm

/-- A line with its end, if it has one. -/
def withEnd (ended : Bool) (line : Octets) : Octets := if ended then line ++ ['\n'] else line

/-- Options that are written as digits, as arguments of an option. -/
def withDigits (key : Char) (args : List Octets) : List Octets :=
  args.map fun word =>
    match word with
    | '-' :: c :: rest => if c.isDigit then '-' :: key :: c :: rest else word
    | _ => word

/-- Breaks lines. -/
def fold : Program := fun name args =>
  let forms := [valued 'w' "width", flag 's' "spaces", flag 'b' "bytes"]
  withOptions name forms 1 (withDigits 'w' args) fun o paths => do
    let greatest : Int := 18446744073709551606
    match (o.every 'w').mapM (wholeNumber "invalid number of columns" 1 greatest) with
    | .error message => complain 1 (name ++ octets ": " ++ message)
    | .ok widths =>
      let f : FoldForm := ⟨(widths.getLast?.getD 80).toNat, o.has 'b', o.has 's'⟩
      filterLines name () (fun () line ended => ((), withEnd ended (f.broken line)))
        (pathsOrInput paths)

/-! ### Tab stops -/

/-- Where tabs lead to. -/
structure TabStops where
  /-- The columns of stops, in order. -/
  stops : List Nat := []
  /-- Beyond them, every multiple of this is a stop. -/
  multiple : Option Nat := none
  /-- Beyond them, every step of this size leads to a stop. -/
  distance : Option Nat := none

namespace TabStops

/-- The distance of all stops, if it is always the same. -/
def regular? (t : TabStops) : Option Nat :=
  match t.stops, t.multiple, t.distance with
  | [], none, none => some 8
  | [], some n, _ | [], none, some n => some n
  | [n], none, none => some n
  | _, _, _ => none

/-- The stop after a column. -/
def after? (t : TabStops) (column : Nat) : Option Nat :=
  match t.regular?, t.stops.find? (column < ·), t.multiple, t.distance with
  | some n, _, _, _ => some (column + n - column % n)
  | none, some stop, _, _ => some stop
  | none, none, some n, _ => some (column + n - column % n)
  | none, none, none, some n =>
    let last := t.stops.getLast?.getD 0
    some (column + n - (column - last) % n)
  | none, none, none, none => none

/-- Adds a number of a list, with the sign before it. -/
def add (t : TabStops) (sign : Option Char) (n : Nat) : Except Octets TabStops :=
  match sign with
  | none => .ok { t with stops := t.stops ++ [n] }
  | some '/' =>
    if t.multiple.isSome then .error (octets "'/' specifier only allowed with the last value")
    else .ok { t with multiple := some n }
  | some _ =>
    if t.distance.isSome then .error (octets "'+' specifier only allowed with the last value")
    else .ok { t with distance := some n }

/-- Reads the rest of a list of stops after a sign and digits. -/
def read (t : TabStops) (sign : Option Char) (digits : Octets) :
    Octets → Except Octets TabStops
  | [] =>
    match natOf? digits with
    | some n => t.add sign n
    | none => .ok t
  | c :: rest => do
    if c = ',' || isBlank c then
      match natOf? digits with
      | some n => (← t.add sign n).read sign [] rest
      | none => t.read sign [] rest
    else if c = '/' || c = '+' then
      if digits.isEmpty then t.read (some c) [] rest
      else
        throw (octets "'" ++ c :: octets "' specifier not at start of number: "
          ++ quoted (c :: rest))
    else if c.isDigit then t.read sign (digits ++ [c]) rest
    else throw (octets "tab size contains invalid character(s): " ++ quoted (c :: rest))

/-- Stops as they can be used: no number is zero, and they come in order. -/
def checked (t : TabStops) : Except Octets TabStops :=
  let positive (n? : Option Nat) : Option Nat := n?.filter (· != 0)
  let rec fault? (last : Nat) : List Nat → Option String
    | [] => none
    | n :: rest =>
      if n = 0 then some "tab size cannot be 0"
      else if n ≤ last then some "tab sizes must be ascending"
      else fault? n rest
  match fault? 0 t.stops, positive t.multiple, positive t.distance with
  | some message, _, _ => .error (octets message)
  | none, some _, some _ => .error (octets "'/' specifier is mutually exclusive with '+'")
  | none, multiple, distance => .ok { t with multiple, distance }

/-- The stops that lists say. -/
def ofLists (lists : List Octets) : Except Octets TabStops := do
  (← lists.foldlM (fun t list => t.read none [] list) ({} : TabStops)).checked

variable (t : TabStops)

/-- A line with blanks in the place of tabs; only before the first character that is no blank, if so
said. -/
def expanded (onlyFirst : Bool) (line : Octets) : Octets :=
  let (pieces, _, _) := line.foldl (fun (pieces, column, isOn) c =>
    if !isOn then ([c] :: pieces, column, isOn)
    else if c = '\t' then
      let next := (t.after? column).getD (column + 1)
      (List.replicate (next - column) ' ' :: pieces, next, isOn)
    else
      let column := if c = '\x08' then column - 1 else column + 1
      ([c] :: pieces, column, !onlyFirst || c = ' ')) (([] : List Octets), 0, true)
  pieces.reverse.flatten

/-- How far a line has been gone through. -/
structure BlankState where
  /-- What is written, in pieces, the last first. -/
  pieces : List Octets := []
  column : Nat := 0
  /-- Blanks that are perhaps written as a tab. -/
  pending : Octets := []
  /-- The first of them stands right before a stop. -/
  isBeforeStop : Bool := false
  afterBlank : Bool := true
  isOn : Bool := true

/-- The state after what is pending and a character were written. -/
def BlankState.write (s : BlankState) (c : Char) : BlankState :=
  let pending := if 1 < s.pending.length && s.isBeforeStop then '\t' :: s.pending.drop 1
    else s.pending
  { s with pieces := [c] :: pending :: s.pieces, pending := [], isBeforeStop := false }

/-- The state after a tab was written in the place of what is pending. A blank right before an
earlier stop is a tab of its own. -/
def BlankState.writeTab (s : BlankState) : BlankState :=
  { s with pending := if s.isBeforeStop then ['\t'] else [] }.write '\t'

/-- The state after a character. -/
def blankStep (onlyFirst : Bool) (s : BlankState) (c : Char) : BlankState :=
  let written (s : BlankState) : BlankState :=
    { s with afterBlank := isBlank c, isOn := s.isOn && (!onlyFirst || isBlank c) }
  if !s.isOn then s.write c
  else if !isBlank c then
    let column := if c = '\x08' then s.column - 1 else s.column + 1
    written ({ s with column }.write c)
  else
    match t.after? s.column with
    | none => written ({ s with isOn := false }.write c)
    | some next =>
      if c = '\t' then written ({ s with column := next }.writeTab)
      else
        let column := s.column + 1
        if s.afterBlank && column = next then written ({ s with column }.writeTab)
        else
          { s with
            column
            pending := s.pending ++ [c]
            isBeforeStop := s.isBeforeStop || column = next
            afterBlank := true }

/-- A line with tabs in the place of blanks; only before the first character that is no blank, if so
said. -/
def unexpanded (onlyFirst : Bool) (line : Octets) : Octets :=
  let s := line.foldl (t.blankStep onlyFirst) {}
  let pending := if 1 < s.pending.length && s.isBeforeStop then '\t' :: s.pending.drop 1
    else s.pending
  (pending :: s.pieces).reverse.flatten

end TabStops

/-- Passes lines on as they are changed. A line that has no end goes on in the next file. -/
def filterJoined (name : Octets) (act : Octets → Octets) (paths : List Octets) : Act Nat :=
  filterSource name ([] : Octets) (fun front line ended =>
    if ended then ([], act (front ++ line) ++ ['\n']) else (front ++ line, []))
    (LineSource.ofPaths paths '\n') plainBlame true act

/-- Writes blanks in the place of tabs. -/
def expand : Program := fun name args =>
  withOptions name [valued 't' "tabs", flag 'i' "initial"] 1 (withDigits 't' args)
    fun o paths => do
      match TabStops.ofLists (o.every 't') with
      | .error message => complain 1 (name ++ octets ": " ++ message)
      | .ok t => filterJoined name (t.expanded (o.has 'i')) (pathsOrInput paths)

/-- Writes tabs in the place of blanks. -/
def unexpand : Program := fun name args =>
  withOptions name [flag 'a' "all", valued 't' "tabs", longFlag 'f' "first-only"] 1
    (withDigits 't' args) fun o paths => do
      match TabStops.ofLists (o.every 't') with
      | .error message => complain 1 (name ++ octets ": " ++ message)
      | .ok t =>
        let everywhere := (o.has 'a' || o.has 't') && !o.has 'f'
        filterJoined name (t.unexpanded !everywhere) (pathsOrInput paths)

end MutationTesting.Tool
