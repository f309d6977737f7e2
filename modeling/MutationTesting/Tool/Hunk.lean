import Std.Data.HashMap
import MutationTesting.Text.Alignment
import MutationTesting.Text.Pattern
import MutationTesting.Tool.Column
/-!
# Changes between texts

What makes the lines of one text those of another, written in several ways: change by change, with
the lines around them, as a script for an editor, or side by side. Lines can be compared without
regard to some of their characters, and changes of lines that do not matter can be left out.

## Main definitions

* `BlankRule`, `LineView` — how lines are compared
* `Hunk`, `hunksOf` — the changes between two texts
* `HunkStyle`, `HunkForm` — how changes are written
* `HunkForm.written`
-/

namespace MutationTesting.Tool

open Act

/-! ### Lines -/

/-- The lines of a text with their line feeds. -/
def linesWithEnds (text : Octets) : List Octets :=
  let lines := linesOf text
  if text.getLast? = some '\n' then lines.map (· ++ ['\n'])
  else lines.dropLast.map (· ++ ['\n']) ++ lines.getLast?.toList

/-- Which blanks of lines are not compared. -/
inductive BlankRule where
  | exact
  /-- It does not matter what tabs are made of. -/
  | tabs
  /-- Those at the end. -/
  | trailing
  | tabsAndTrailing
  /-- It only matters where there are some. -/
  | amount
  | all
  deriving DecidableEq

/-- How lines are compared. -/
structure LineView where
  blanks : BlankRule := .exact
  ignoresCase : Bool := false
  /-- Lines end with returns. -/
  stripsReturns : Bool := false
  tab : Nat := 8

namespace LineView

/-- A character that is a blank in some way. -/
def isSpace (c : Char) : Bool := c = ' ' || ('\t' ≤ c && c ≤ '\r')

/-- A line without the blanks at its end. -/
def withoutTrailing (line : Octets) : Octets := (line.reverse.dropWhile isSpace).reverse

/-- A line with one blank wherever there are some. -/
def withSingle (line : Octets) : Octets :=
  (line.foldl (fun (done : Octets) c =>
    if !isSpace c then c :: done
    else if done.head? = some ' ' then done
    else ' ' :: done) []).reverse

/-- What is compared of a line. A line without a line feed is another one, unless blanks at the end
do not matter. -/
def compared (v : LineView) (line : Octets) : Octets :=
  let line := if v.ignoresCase then line.map Char.toLower else line
  let body := if line.getLast? = some '\n' then line.dropLast else line
  let expanded (line : Octets) : Octets := ({ stops := [v.tab] } : TabStops).expanded false line
  match v.blanks with
  | .exact => line
  | .tabs => expanded body ++ line.drop body.length
  | .trailing => withoutTrailing body
  | .tabsAndTrailing => withoutTrailing (expanded body)
  | .amount => withoutTrailing (withSingle body)
  | .all => body.filter (!isSpace ·)

/-- The lines of a text, without returns at their ends if these do not matter. -/
def lines (v : LineView) (text : Octets) : List Octets :=
  let all := linesWithEnds text
  if !v.stripsReturns then all
  else
    all.map fun line =>
      match line.reverse with
      | '\n' :: '\r' :: rest => ('\n' :: rest).reverse
      | _ => line

end LineView

/-! ### Changes -/

/-- A change: how many lines come before it on either side, and the lines that go and come. -/
structure Hunk where
  oldStart : Nat
  newStart : Nat
  gone : List Octets
  come : List Octets
  /-- It does not matter. -/
  isTrivial : Bool := false

namespace Hunk

/-- How many lines come up to the end of the change. -/
def oldStop (h : Hunk) : Nat := h.oldStart + h.gone.length

/-- The same on the other side. -/
def newStop (h : Hunk) : Nat := h.newStart + h.come.length

end Hunk

/-- Lines as numbers: the same lines have the same number. -/
def numbered (old new : List Octets) : List Nat × List Nat × Nat :=
  let step (table : Std.HashMap String Nat) (line : Octets) : Std.HashMap String Nat × Nat :=
    let key := String.ofList line
    match table[key]? with
    | some n => (table, n)
    | none => (table.insert key table.size, table.size)
  let all (table : Std.HashMap String Nat) (lines : List Octets) :
      Std.HashMap String Nat × List Nat :=
    let (table, numbers) := lines.foldl (fun (table, numbers) line =>
      let (table, n) := step table line
      (table, n :: numbers)) (table, ([] : List Nat))
    (table, numbers.reverse)
  let (table, first) := all {} old
  let (table, second) := all table new
  (first, second, table.size)

/-- How many items are the same at the beginning of two lists. -/
def commonPrefix : List Octets → List Octets → Nat
  | a :: as, b :: bs => if a = b then commonPrefix as bs + 1 else 0
  | _, _ => 0

/-- The changes between two texts. Of lines that are the same at the beginning and at the end as
many as said are looked at. -/
def hunksOf (v : LineView) (isMinimal : Bool) (horizon : Nat) (old new : List Octets) : List Hunk :=
  let same := commonPrefix old new
  let first := same - horizon
  let tail := min (commonPrefix old.reverse new.reverse) (min old.length new.length - same)
  let last := tail - horizon
  let inner (lines : List Octets) : List Octets :=
    (lines.drop first).take (lines.length - last - first)
  let (as, bs, limit) := numbered ((inner old).map v.compared) ((inner new).map v.compared)
  let c := Alignment.changes isMinimal limit as.toArray bs.toArray
  let rec go : Nat → Nat → Nat → List (Octets × Bool) → List (Octets × Bool) → List Hunk
    | 0, _, _, _, _ => []
    | n + 1, i, j, as, bs =>
      let gone := as.takeWhile (·.2)
      let come := bs.takeWhile (·.2)
      let rest := go n (i + gone.length + 1) (j + come.length + 1) (as.drop (gone.length + 1))
        (bs.drop (come.length + 1))
      let here := if gone.isEmpty && come.isEmpty then []
        else [⟨i, j, gone.map (·.1), come.map (·.1), false⟩]
      if as.isEmpty && bs.isEmpty then [] else here ++ rest
  go (old.length + new.length + 1) first first ((inner old).zip c.old.toList)
    ((inner new).zip c.new.toList)

/-! ### Ways of writing -/

/-- How changes are written. -/
inductive HunkStyle where
  | normal
  /-- Both sides, with so many lines around changes. -/
  | context (lines : Nat)
  | unified (lines : Nat)
  /-- A script for an editor, the last change first. -/
  | script
  /-- The same, the first change first. -/
  | forwardScript
  /-- Numbers of lines that go, and lines that come. -/
  | counted
  | sideBySide
  deriving DecidableEq

namespace HunkStyle

/-- As many lines are shown around changes. -/
def around : HunkStyle → Nat
  | .context n | .unified n => n
  | _ => 0

/-- A last line without a line feed can be told apart. -/
def isRobust (s : HunkStyle) : Bool := s != .script && s != .forwardScript

end HunkStyle

/-- How changes are written, with all that was asked for. -/
structure HunkForm where
  style : HunkStyle := .normal
  view : LineView := {}
  /-- There are as few changes as possible. -/
  isMinimal : Bool := false
  /-- As many of the lines that are the same at the beginning and at the end are looked at. -/
  horizon : Nat := 0
  /-- Changes of empty lines do not matter. -/
  ignoresEmpty : Bool := false
  /-- Changes do not matter in all of whose lines one of these occurs. -/
  ignored : List Pattern := []
  /-- Some of these occurs in the first line of a part of the text, which is shown. -/
  headings : List Pattern := []
  /-- Marks are followed by tabs. -/
  initialTab : Bool := false
  expandsTabs : Bool := false
  width : Nat := 130
  leftColumn : Bool := false
  onlyChanges : Bool := false

namespace HunkForm

variable (f : HunkForm)

/-- A change does not matter. -/
def isTrivial (h : Hunk) : Bool :=
  let body (line : Octets) : Octets := if line.getLast? = some '\n' then line.dropLast else line
  let isEmpty (line : Octets) : Bool :=
    let blanksCount := f.view.blanks = .exact || f.view.blanks = .tabs
    f.ignoresEmpty && if blanksCount then (body line).isEmpty else (body line).all LineView.isSpace
  (f.ignoresEmpty || !f.ignored.isEmpty) && (h.gone ++ h.come).all fun line =>
    isEmpty line || f.ignored.any (·.occursIn (body line))

/-- A line behind a mark; one without a line feed is said to have none. -/
def marked (mark line : Octets) : Octets :=
  let isEnded := line.getLast? = some '\n'
  let body := if isEnded then line.dropLast else line
  let body := if f.expandsTabs then ({ stops := [f.view.tab] } : TabStops).expanded false body
    else body
  mark ++ body ++ if isEnded then ['\n'] else octets "\n\\ No newline at end of file\n"

/-- A mark of a line, with what follows it. -/
def mark (c : Char) : Octets := [c, if f.initialTab then '\t' else ' ']

/-- A range of lines, given how many come before it; an empty one is the line before it. -/
def rangeText (separator : Char) (start count : Nat) : Octets :=
  if count ≤ 1 then Decimal.natText (start + count)
  else Decimal.natText (start + 1) ++ separator :: Decimal.natText (start + count)

/-- The letter of a change. -/
def letter (h : Hunk) : Char :=
  if h.gone.isEmpty then 'a' else if h.come.isEmpty then 'd' else 'c'

/-- A change by itself. -/
def normal (h : Hunk) : Octets :=
  rangeText ',' h.oldStart h.gone.length ++ letter h
    :: rangeText ',' h.newStart h.come.length ++ ['\n']
    ++ h.gone.flatMap (f.marked (f.mark '<'))
    ++ (if letter h = 'c' then octets "---\n" else [])
    ++ h.come.flatMap (f.marked (f.mark '>'))

/-- A line as it stands in a script. -/
def scriptLine (line : Octets) : Octets :=
  if line.getLast? = some '\n' then line else line ++ ['\n']

/-- A change as a command of an editor. A line that would end the input is changed afterwards. -/
def command (h : Hunk) : Octets :=
  let head := rangeText ',' h.oldStart h.gone.length ++ [letter h, '\n']
  let (text, isOpen) := h.come.foldl (fun (text, isOpen) line =>
    let text := if isOpen then text else text ++ octets "a\n"
    if line = ['.', '\n'] then (text ++ octets "..\n.\ns/.//\n", false)
    else (text ++ scriptLine line, true)) (([] : Octets), true)
  if h.come.isEmpty then head else head ++ text ++ if isOpen then octets ".\n" else []

/-- A change as a command with its letter in front. -/
def forwardCommand (h : Hunk) : Octets :=
  letter h :: rangeText ' ' h.oldStart h.gone.length ++ ['\n']
    ++ if h.come.isEmpty then [] else h.come.flatMap scriptLine ++ octets ".\n"

/-- A change as numbers of lines, with the lines that come. -/
def countedChange (h : Hunk) : Octets :=
  let number := Decimal.natText
  (if h.gone.isEmpty then []
    else 'd' :: number (h.oldStart + 1) ++ ' ' :: number h.gone.length ++ ['\n'])
    ++ if h.come.isEmpty then []
      else 'a' :: number h.oldStop ++ ' ' :: number h.come.length ++ ['\n'] ++ h.come.flatten

/-- Changes that are near to each other, together. -/
def groups (hs : List Hunk) : List (List Hunk) :=
  let around := f.style.around
  let near (last h : Hunk) : Bool :=
    h.oldStart - last.oldStop < if h.isTrivial then around else 2 * around + 1
  (hs.foldl (fun (groups : List (List Hunk)) h =>
    match groups with
    | (last :: more) :: rest =>
      if near last h then (h :: last :: more) :: rest else [h] :: groups
    | _ => [h] :: groups) []).reverse.map (·.reverse)

/-- The last line before a place that heads a part of the text, as it is shown. -/
def headingText (old : List Octets) (start : Nat) : Octets :=
  let isHeading (line : Octets) : Bool :=
    let text := (linesOf line).flatten
    f.headings.any (·.occursIn text)
  match if f.headings.isEmpty then none else (old.take start).reverse.find? isHeading with
  | none => []
  | some line => ' ' :: LineView.withoutTrailing ((line.dropWhile LineView.isSpace).take 40)

/-- What lies around and between changes, from the first line that is shown up to the last one, as
it is written by one function for changes and by another for other lines. -/
def around (hs : List Hunk) (lines : List Octets) (starts stops : Hunk → Nat) (start stop : Nat)
    (changed : Hunk → Octets) (kept : Octets → Octets) : Octets :=
  let between (i j : Nat) : Octets := ((lines.drop i).take (j - i)).flatMap kept
  let (body, next) := hs.foldl (fun (body, next) h =>
    (body ++ between next (starts h) ++ changed h, stops h)) (([] : Octets), start)
  body ++ between next stop

/-- Changes with the lines around them, both sides together or one after the other. -/
def group (isUnified : Bool) (old new : List Octets) (hs : List Hunk) : Octets :=
  match hs.head?, hs.getLast? with
  | some first, some last =>
    let n := f.style.around
    let before := min n first.oldStart
    let after := min n (old.length - last.oldStop)
    let (oldStart, oldStop) := (first.oldStart - before, last.oldStop + after)
    let (newStart, newStop) := (first.newStart - before, last.newStop + after)
    let heading := f.headingText old oldStart
    if isUnified then
      let range (start count : Nat) : Octets :=
        if count = 1 then Decimal.natText (start + 1)
        else
          Decimal.natText (if count = 0 then start else start + 1)
            ++ ',' :: Decimal.natText count
      let gap := if f.initialTab then ['\t'] else []
      let keptMark := if f.initialTab then ['\t'] else [' ']
      octets "@@ -" ++ range oldStart (oldStop - oldStart) ++ octets " +"
        ++ range newStart (newStop - newStart) ++ octets " @@" ++ heading ++ ['\n']
        ++ around hs old Hunk.oldStart Hunk.oldStop oldStart oldStop
          (fun h =>
            h.gone.flatMap (f.marked ('-' :: gap)) ++ h.come.flatMap (f.marked ('+' :: gap)))
          (f.marked keptMark)
    else
      let side (isOld : Bool) : Octets :=
        if hs.all fun h => (if isOld then h.gone else h.come).isEmpty then []
        else
          let changed (h : Hunk) : Octets :=
            let c := if letter h = 'c' then '!' else if isOld then '-' else '+'
            (if isOld then h.gone else h.come).flatMap (f.marked (f.mark c))
          let kept := f.marked (f.mark ' ')
          if isOld then around hs old Hunk.oldStart Hunk.oldStop oldStart oldStop changed kept
          else around hs new Hunk.newStart Hunk.newStop newStart newStop changed kept
      octets "***************" ++ heading ++ octets "\n*** "
        ++ rangeText ',' oldStart (oldStop - oldStart) ++ octets " ****\n" ++ side true
        ++ octets "--- " ++ rangeText ',' newStart (newStop - newStart) ++ octets " ----\n"
        ++ side false
  | _, _ => []

/-! ### Side by side -/

/-- The widths of the columns: of the text, and up to the second column. -/
def columns : Nat × Nat :=
  let tab := if f.expandsTabs then 1 else f.view.tab
  let least := 3
  let areOdd := f.width % 2 = 1 && (tab + least) % 2 = 1
  let whole := f.width / 2 + (tab + least) / 2 + if areOdd then 1 else 0
  let second := whole - whole % tab
  let half := if second ≤ least || f.width ≤ second then 0
    else min (second - least) (f.width - second)
  (half, if half = 0 then f.width else second)

/-- Tabs and blanks from one column to another. -/
def fill (start stop : Nat) : Octets :=
  let rec go : Nat → Nat → Octets
    | 0, _ => []
    | n + 1, column =>
      if stop ≤ column then []
      else
        let next := column + f.view.tab - column % f.view.tab
        if f.expandsTabs || stop < next then ' ' :: go n (column + 1)
        else '\t' :: go n next
  go (stop - start + 1) start

/-- A line cut where the column ends, and the column reached. -/
def halfLine (line : Octets) : Octets × Nat :=
  let (half, _) := f.columns
  let (text, column, _) := (linesOf line).flatten.foldl (fun (text, column, place) c =>
    if c = '\t' then
      let next := place + f.view.tab - place % f.view.tab
      if column != place then (text, column, next)
      else if f.expandsTabs then
        let stop := min half (column + (next - place))
        (List.replicate (stop - column) ' ' ++ text, stop, next)
      else if next < half then ('\t' :: text, next, next)
      else (text, column, next)
    else if place < half then (c :: text, place + 1, place + 1)
    else (text, column, place + 1)) (([] : Octets), 0, 0)
  (text.reverse, column)

/-- Two lines side by side, with a mark between them. -/
def pair (left : Option Octets) (separator : Char) (right : Option Octets) : Octets :=
  let (half, second) := f.columns
  let isEnded (line : Option Octets) : Bool := line.any (·.getLast? = some '\n')
  let (text, column) := left.elim ([], 0) f.halfLine
  let separator := if separator = '|' && isEnded left != isEnded right
    then (if isEnded left then '/' else '\\') else separator
  let middle := (half + second - 1) / 2
  let (text, column) := if separator = ' ' then (text, column)
    else (text ++ f.fill column middle ++ [separator], middle + 1)
  let text := match right with
    | none => text
    | some line =>
      if line = ['\n'] then text else text ++ f.fill column second ++ (f.halfLine line).1
  text ++ if isEnded left || isEnded right then ['\n'] else []

/-- All lines side by side. -/
def pairs (old new : List Octets) (hs : List Hunk) : Octets :=
  let common (i j k l : Nat) : Octets :=
    if f.onlyChanges then []
    else
      let (before, after) := ((old.drop i).take (k - i), (new.drop j).take (l - j))
      if f.leftColumn then before.flatMap fun a => f.pair (some a) '(' none
      else
        ((before.zip after).flatMap fun (a, b) => f.pair (some a) ' ' (some b))
          ++ ((after.drop before.length).flatMap fun b => f.pair none ')' (some b))
          ++ ((before.drop after.length).flatMap fun a => f.pair (some a) '(' none)
  let (text, i, j) := hs.foldl (fun (text, i, j) h =>
    let n := min h.gone.length h.come.length
    let both := (h.gone.zip h.come).flatMap fun (a, b) => f.pair (some a) '|' (some b)
    let added := (h.come.drop n).flatMap fun b => f.pair none '>' (some b)
    let gone := (h.gone.drop n).flatMap fun a => f.pair (some a) '<' none
    (text ++ common i j h.oldStart h.newStart ++ both ++ added ++ gone, h.oldStop, h.newStop))
    (([] : Octets), 0, 0)
  text ++ common i j old.length new.length

/-- Changes between two texts as they are written. -/
def written (old new : List Octets) (hs : List Hunk) : Octets :=
  let serious := hs.filter (!·.isTrivial)
  let grouped (isUnified : Bool) : Octets :=
    ((f.groups hs).filter fun group => group.any (!·.isTrivial)).flatMap (f.group isUnified old new)
  match f.style with
  | .normal => serious.flatMap f.normal
  | .script => serious.reverse.flatMap command
  | .forwardScript => serious.flatMap forwardCommand
  | .counted => serious.flatMap countedChange
  | .context _ => grouped false
  | .unified _ => grouped true
  | .sideBySide => f.pairs old new serious

/-- The changes between two texts, with those that do not matter. -/
def changes (old new : List Octets) : List Hunk :=
  (hunksOf f.view f.isMinimal (max f.horizon f.style.around) old new).map fun h =>
    { h with isTrivial := f.isTrivial h }

end HunkForm

end MutationTesting.Tool
