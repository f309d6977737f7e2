import MutationTesting.Text.Glob
import MutationTesting.Tool.Compare
import MutationTesting.Tool.Hunk
/-!
# Differences between files

The program `diff`: what makes the lines of one file those of another. Two directories are compared
name by name, and of a directory and a file it is the file of that name in the directory that is
compared. What exists on one side only is said to do so, or it is compared with nothing.

## Main definitions

* `Side` — one of two things that are compared
* `Difference` — what is asked for
* `Difference.ofOptions` — the same as options say it
* `Difference.sides` — two things compared
* `diff`
-/

namespace MutationTesting.Tool

open Act

/-! ### Sides -/

/-- What stands on one side of a comparison. -/
inductive SideForm where
  /-- Nothing, which counts as something without content. -/
  | nothing
  /-- The input of the program. -/
  | input
  | node (number : Nat) (form : NodeForm)

/-- One of two things that are compared. -/
structure Side where
  path : Octets
  form : SideForm
  /-- When it was changed last. -/
  time : Moment

namespace Side

/-- Nothing, where something of that name could stand. -/
def absent (path : Octets) : Side := ⟨path, .nothing, 0⟩

/-- There is nothing. -/
def isAbsent (s : Side) : Bool :=
  match s.form with
  | .nothing => true
  | _ => false

/-- It is a directory. -/
def isDirectory (s : Side) : Bool :=
  match s.form with
  | .node _ (.directory _ _) => true
  | _ => false

/-- It is a link, which is not followed. -/
def target? (s : Side) : Option Octets :=
  match s.form with
  | .node _ (.link target) => some target
  | _ => none

/-- It has a content or a target of its own. -/
def isPlain (s : Side) : Bool :=
  match s.form with
  | .nothing | .node _ (.file _) | .node _ (.link _) => true
  | _ => false

/-- Both are one and the same. -/
def isSame (s t : Side) : Bool :=
  match s.form, t.form with
  | .node n _, .node m _ => n = m
  | .input, .input => true
  | _, _ => false

/-- What kind of thing it is. -/
def kind (s : Side) : Octets :=
  match s.form with
  | .node _ form => octets (formName form)
  | _ => octets "fifo"

/-- What is read from it. -/
def content (s : Side) : Act (Except FileError Bytes) :=
  match s.form with
  | .nothing => return .ok []
  | .input => readAll 0
  | .node _ _ => contentOf s.path

/-- The names in it, if it is a directory. -/
def names (s : Side) : List Octets :=
  match s.form with
  | .node _ (.directory _ entries) => entries.map (·.1)
  | _ => []

end Side

/-! ### What is asked for -/

/-- How things are compared, and what is said of them. -/
structure Difference where
  name : Octets
  /-- The program as it was called, without the operands. -/
  command : Octets
  hunks : HunkForm
  /-- It is only said that files differ. -/
  isBrief : Bool
  /-- It is said that files are the same. -/
  tellsSame : Bool
  /-- Every file is a text. -/
  isText : Bool
  isRecursive : Bool
  /-- What exists on one side only is compared with nothing. -/
  takesAlone : Bool
  /-- The same, if it is the second side. -/
  takesNew : Bool
  followsLinks : Bool
  /-- Names for both sides. -/
  labels : List Octets
  /-- Names that fit one of these are left out. -/
  omitted : List Glob
  /-- Names in the first directories that come before this one are left out. -/
  start : Octets

namespace Difference

/-- The options. -/
def forms : List OptionForm :=
  [flag 'q' "brief", flag 'u', valued 'U', longExtended 'U' "unified", flag 'c', valued 'C',
    longExtended 'C' "context", flag 'e' "ed", flag 'f' "forward-ed", flag 'n' "rcs",
    flag 'y' "side-by-side", longFlag 'o' "normal", flag 'r' "recursive", flag 'N' "new-file",
    flag 'P' "unidirectional-new-file", flag 's' "report-identical-files", flag 'a' "text",
    flag 'i' "ignore-case", flag 'w' "ignore-all-space", flag 'b' "ignore-space-change",
    flag 'Z' "ignore-trailing-space", flag 'E' "ignore-tab-expansion",
    flag 'B' "ignore-blank-lines", valued 'I' "ignore-matching-lines", flag 'p' "show-c-function",
    valued 'F' "show-function-line", valued 'L' "label", valued 'x' "exclude",
    valued 'X' "exclude-from", valued 'S' "starting-file", valued 'W' "width",
    flag 't' "expand-tabs", flag 'T' "initial-tab", longValued 'A' "tabsize",
    longFlag 'G' "left-column", longFlag 'J' "suppress-common-lines",
    longFlag 'K' "strip-trailing-cr", longFlag 'M' "no-dereference", longExtended 'O' "color",
    flag 'd' "minimal", flag 'H' "speed-large-files", longValued 'Q' "horizon-lines",
    longValued 'R' "from-file", longValued 'V' "to-file"]
    ++ "0123456789".toList.map flag

/-- The words of a command that are no operands. -/
def optionWords (isArgument : Bool) : List Octets → List Octets
  | [] => []
  | word :: rest =>
    if isArgument then word :: optionWords false rest
    else
      match word with
      | ['-', '-'] => [word]
      | '-' :: '-' :: text =>
        let used := (longOption forms rest.head? text).toOption.any (·.2)
        word :: optionWords used rest
      | '-' :: c :: letters =>
        let used := (letterOptions forms rest.head? (c :: letters)).toOption.any (·.2)
        word :: optionWords used rest
      | _ => optionWords false rest

/-- The letter of the style that an option asks for. -/
def styleLetter? (key : Char) : Option Char :=
  if key = 'u' || key = 'U' then some 'u'
  else if key = 'c' || key = 'C' then some 'c'
  else if ['e', 'f', 'n', 'y', 'o'].contains key then some key
  else none

/-- A pattern, or what is wrong with it. -/
def patternOf (text : Octets) : Except Octets Pattern :=
  (Pattern.ofText? ⟨false, false, false⟩ text).mapError fun message =>
    text ++ octets (": " ++ message)

/-- A fault, and whether more can be learnt about how the program is called. -/
abbrev Fault := Octets × Bool

/-- What is wrong with an option after others. -/
def fault? (before : Options) (key : Char) (text : Octets) : Option Fault :=
  let invalid (what : String) : Option Fault :=
    some (octets ("invalid " ++ what ++ " ") ++ quoted text, true)
  let once (what : String) : Option Fault :=
    match intOf? text with
    | some n =>
      if n ≤ 0 then invalid what
      else if (before.every key).any (intOf? · != some n) then
        some (octets ("conflicting " ++ what ++ " options"), false)
      else none
    | none => invalid what
  let isNumber := (intOf? text).any (0 ≤ ·)
  let conflict := (styleLetter? key).any fun c =>
    before.any fun e => (styleLetter? e.1).any (· != c)
  let styleFault : Option Fault :=
    if conflict then some (octets "conflicting output style options", true) else none
  match key with
  | 'U' | 'C' => if isNumber || text.isEmpty then styleFault else invalid "context length"
  | 'W' => once "width"
  | 'A' => once "tabsize"
  | 'Q' => if isNumber then none else invalid "horizon length"
  | 'O' =>
    if text.isEmpty || [octets "never", octets "auto", octets "always"].contains text then none
    else invalid "color"
  | 'L' =>
    if 1 < (before.every 'L').length then some (octets "too many file label options", false)
    else none
  | 'I' | 'F' =>
    match patternOf text with
    | .error message => some (message, false)
    | .ok _ => none
  | _ => styleFault

/-- How many lines around changes are shown: as many as the greatest number says, or those of an old
number. -/
def contextLines (o : Options) : Nat :=
  let count (e : Char × Octets) : Option Nat :=
    if e.1 = 'U' || e.1 = 'C' then some ((natOf? e.2).getD 3)
    else if e.1 = 'u' || e.1 = 'c' || e.1 = 'p' then some 3
    else none
  let most := ((o.filterMap count).max?).getD 0
  let (digits, _) := o.foldl (fun (digits, isNext) (e : Char × Octets) =>
    if e.1.isDigit then (if isNext then digits ++ [e.1] else [e.1], true) else (digits, false))
    (([] : Octets), false)
  match natOf? digits with
  | some n => if most < n || !(o.has 'U' || o.has 'C') then n else most
  | none => most

/-- The style that options ask for. -/
def styleOf (o : Options) : HunkStyle :=
  match o.findSome? fun e => styleLetter? e.1 with
  | some 'u' => .unified (contextLines o)
  | some 'c' => .context (contextLines o)
  | some 'e' => .script
  | some 'f' => .forwardScript
  | some 'n' => .counted
  | some 'y' => .sideBySide
  | some _ => .normal
  | none => if o.has 'p' then .context (contextLines o) else .normal

/-- How lines are compared. -/
def viewOf (o : Options) : LineView :=
  { blanks :=
      if o.has 'w' then .all
      else if o.has 'b' then .amount
      else
        match o.has 'E', o.has 'Z' with
        | true, true => .tabsAndTrailing
        | true, false => .tabs
        | false, true => .trailing
        | false, false => .exact
    ignoresCase := o.has 'i'
    stripsReturns := o.has 'K'
    tab := ((o.last? 'A').bind natOf?).getD 8 }

/-- How changes are written. -/
def hunkFormOf (o : Options) : HunkForm :=
  let patterns (texts : List Octets) : List Pattern :=
    texts.filterMap fun text => (patternOf text).toOption
  { style := styleOf o
    view := viewOf o
    isMinimal := o.has 'd'
    horizon := (((o.every 'Q').filterMap natOf?).max?).getD 0
    ignoresEmpty := o.has 'B'
    ignored := patterns (o.every 'I')
    headings := patterns
      (o.every 'F' ++ if o.has 'p' then [octets "^[[:alpha:]$_]"] else [])
    initialTab := o.has 'T'
    expandsTabs := o.has 't'
    width := ((o.last? 'W').bind natOf?).getD 130
    leftColumn := o.has 'G'
    onlyChanges := o.has 'J' }

/-- What options ask for, given the names that files say are left out. -/
def ofOptions (name : Octets) (args : List Octets) (o : Options) (omitted : List Octets) :
    Difference :=
  { name
    command := List.intercalate [' '] (name :: (optionWords false args).map Quote.inShellIfNeeded)
    hunks := hunkFormOf o
    isBrief := o.has 'q'
    tellsSame := o.has 's'
    isText := o.has 'a'
    isRecursive := o.has 'r'
    takesAlone := o.has 'N'
    takesNew := o.has 'P'
    followsLinks := !o.has 'M'
    labels := o.every 'L'
    omitted := (o.every 'x' ++ omitted).map Glob.ofText
    start := (o.last? 'S').getD [] }

variable (d : Difference)

/-! ### What is said -/

/-- What a side is called in a message. -/
def calls (isFirst : Bool) (s : Side) : Octets := (d.labels[if isFirst then 0 else 1]?).getD s.path

/-- A line about two things. -/
def about (before : String) (s t : Side) (after : String) : Octets :=
  octets before ++ d.calls true s ++ octets " and " ++ d.calls false t ++ octets (after ++ "\n")

/-- A name in a line about changes, between quotes if it would not be seen as one. -/
def headName (path : Octets) : Octets :=
  let shown := path.flatMap fun c =>
    if c = '"' || c = '\\' then ['\\', c] else if c < ' ' then Quote.escape c else [c]
  if shown = path && !path.contains ' ' then path else '"' :: shown ++ ['"']

/-- The lines in front of changes that say what is compared. -/
def heads (isInside : Bool) (s t : Side) : Octets :=
  let line (mark : String) (format : String) (isFirst : Bool) (side : Side) : Octets :=
    octets mark ++ match d.labels[if isFirst then 0 else 1]? with
      | some label => label ++ ['\n']
      | none => headName side.path ++ side.time.text (octets format)
  let call :=
    if isInside then d.command ++ ' ' :: headName s.path ++ ' ' :: headName t.path ++ ['\n'] else []
  call ++ match d.hunks.style with
    | .unified _ =>
      let format := "\t%F %T.%N %z\n"
      line "--- " format true s ++ line "+++ " format false t
    | .context _ =>
      let format := "\t%a %b %e %T %Y\n"
      line "*** " format true s ++ line "--- " format false t
    | _ => []

/-- Something is written even of texts that are the same. -/
def showsAll : Bool := d.hunks.style = .sideBySide && !d.hunks.onlyChanges

/-- A complaint about a side. -/
def complainOf (path : Octets) (e : FileError) : Act Nat :=
  complain 2 (d.name ++ octets ": " ++ path ++ octets (": " ++ e.message))

/-! ### Contents -/

/-- So many bytes at the beginning show whether something is a text. -/
def probeSize : Nat := 4096

/-- A content with a line feed at its end. -/
def ended (text : Octets) : Octets :=
  if text.isEmpty || text.getLast? = some '\n' then text else text ++ ['\n']

/-- Two texts compared. -/
def texts (isInside : Bool) (s t : Side) (old new : Octets) : Act Nat := do
  let f := d.hunks
  let isRobust := f.style.isRobust
  let linesIn (text : Octets) : List Octets := f.view.lines (if isRobust then text else ended text)
  let (before, after) := (linesIn old, linesIn new)
  let hs := f.changes before after
  let isChanged := hs.any (!·.isTrivial)
  if d.isBrief then
    if isChanged then say (d.about "Files " s t " differ")
  else if isChanged || d.showsAll then
    say (d.heads isInside s t ++ f.written before after hs)
  let code := if isChanged then 1 else 0
  if isRobust then return code
  let open' := [(d.calls true s, old), (d.calls false t, new)].filter fun e => ended e.2 != e.2
  for (name, _) in open' do
    put 2 (d.name ++ octets ": " ++ name ++ octets ": No newline at end of file\n\n")
  return if open'.isEmpty then code else 2

/-- Two contents compared. -/
def contents (isInside : Bool) (s t : Side) (as bs : Bytes) : Act Nat := do
  let isBinary := !d.isText && ((as.take probeSize).contains 0 || (bs.take probeSize).contains 0)
  if isBinary then
    if as = bs then return 0
    say (d.about (if d.isBrief then "Files " else "Binary files ") s t " differ")
    return 1
  d.texts isInside s t (Octets.ofBytes as) (Octets.ofBytes bs)

/-! ### Files and directories -/

/-- What stands at a path. -/
def sideAt (k : Kernel) (path : Octets) : Except FileError Side :=
  if path = ['-'] then
    if (k.streamOf? 0).isSome then .ok ⟨path, .input, momentIn k⟩ else .error .badDescriptor
  else do
    let n ← k.files.find (if d.followsLinks then .follow else .stay) k.here path
    match k.files.node? n with
    | some node => return ⟨path, .node n node.form, nodeMoment node⟩
    | none => throw .missing

/-- The names in either of two directories that are compared, in order. -/
def namesIn (isInside : Bool) (s t : Side) : List Octets :=
  let all := ((s.names ++ t.names).eraseDups).mergeSort Octets.precedes
  let all := all.filter fun name => !d.omitted.any (·.accepts name)
  if isInside then all else all.dropWhile fun name => !Octets.precedes d.start name

/-- The things with names in two directories compared in a way. -/
def entries (compare : Side → Side → Act Nat) (s t : Side) : List Octets → Act Nat
  | [] => return 0
  | name :: rest => do
    let isOld := s.names.contains name
    let isNew := t.names.contains name
    let (p, q) := (inside s.path name, inside t.path name)
    let code ←
      if (isOld && isNew) || d.takesAlone || (isNew && d.takesNew) then do
        let k ← look
        let first := if isOld then d.sideAt k p else .ok (.absent p)
        let second := if isNew then d.sideAt k q else .ok (.absent q)
        match first, second with
        | .ok s, .ok t => compare s t
        | first, second => do
          if let .error e := first then discard (d.complainOf p e)
          if let .error e := second then discard (d.complainOf q e)
          pure 2
      else do
        let side := if isOld then s else t
        say (octets "Only in " ++ side.path ++ octets ": " ++ name ++ ['\n'])
        pure 1
    let later ← entries compare s t rest
    return max code later

/-- Two things compared that are not both directories; the flag says that they stand in directories
that are compared. -/
def files (isInside : Bool) (s t : Side) : Act Nat := do
  let differ : Act Nat := do
    say (octets "File " ++ d.calls true s ++ octets " is a " ++ s.kind ++ octets " while file "
      ++ d.calls false t ++ octets " is a " ++ t.kind ++ ['\n'])
    return 1
  if s.isDirectory || t.isDirectory || (isInside && !(s.isPlain && t.isPlain)) then
    if s.isAbsent || t.isAbsent then
      let path := if s.isAbsent then t.path else s.path
      say (octets "Only in " ++ withoutLastName path ++ octets ": " ++ lastName path ++ ['\n'])
      return 1
    else differ
  else
    match s.target?, t.target? with
    | some a, some b =>
      if a = b then return 0
      say (d.about "Symbolic links " s t " differ")
      return 1
    | none, none =>
      match ← s.content with
      | .error e => d.complainOf s.path e
      | .ok as =>
        match ← t.content with
        | .error e => d.complainOf t.path e
        | .ok bs => d.contents isInside s t as bs
    | _, _ => differ

/-- Two things compared. The first argument bounds the depth; the second one says that both stand in
directories that are compared. -/
def sides : Nat → Bool → Side → Side → Act Nat
  | 0, _, _, _ => return 2
  | depth + 1, isInside, s, t => do
    let isSame := s.isSame t && !d.showsAll
    let isTree (side other : Side) : Bool :=
      side.isDirectory || (side.isAbsent && other.isDirectory)
    if isTree s t && isTree t s then
      if isSame then return 0
      if isInside && !d.isRecursive then
        say (octets "Common subdirectories: " ++ s.path ++ octets " and " ++ t.path ++ ['\n'])
        return 0
      d.entries (fun s t => sides depth true s t) s t (d.namesIn isInside s t)
    else
      let code ← if isSame then pure 0 else d.files isInside s t
      if code = 0 && d.tellsSame then say (d.about "Files " s t " are identical")
      return code

/-- What stands at two paths compared. Of a directory and a file it is the file of that name in the
directory that is compared. -/
def paths (p q : Octets) : Act Nat := do
  let k ← look
  let isMissing : Except FileError Side → Bool
    | .error e => e = .missing || e = .badDescriptor
    | .ok _ => false
  let first := d.sideAt k p
  let second := d.sideAt k q
  let (first, second) :=
    if isMissing first && second.isOk && (d.takesAlone || d.takesNew) then (.ok (.absent p), second)
    else if isMissing second && first.isOk && d.takesAlone then (first, .ok (.absent q))
    else (first, second)
  match first, second with
  | .ok s, .ok t =>
    let meet (directory file : Side) (pair : Side → Act Nat) : Act Nat :=
      if file.path = ['-'] then
        complain 2 (d.name ++ octets ": cannot compare '-' to a directory")
      else
        let path := inside directory.path (lastName file.path)
        match d.sideAt k path with
        | .error e => d.complainOf path e
        | .ok found => pair found
    let depth := FileSystem.pathLimit
    if s.isDirectory && !t.isDirectory && !t.isAbsent then
      meet s t fun found => d.sides depth false found t
    else if t.isDirectory && !s.isDirectory && !s.isAbsent then
      meet t s fun found => d.sides depth false s found
    else d.sides depth false s t
  | first, second => do
    if let .error e := first then discard (d.complainOf p e)
    if let .error e := second then discard (d.complainOf q e)
    return 2

/-- The names in files that say what is left out, or the code after a complaint. -/
def omittedIn (name : Octets) : List Octets → Act (Except Nat (List Octets))
  | [] => return .ok []
  | path :: rest => do
    match ← inputContent path with
    | .error e => return .error (← complain 2 (name ++ octets ": " ++ path
        ++ octets (": " ++ e.message)))
    | .ok content =>
      return (← omittedIn name rest).map (linesOf (Octets.ofBytes content) ++ ·)

end Difference

/-- Says what makes the lines of one file those of another. -/
def diff : Program := fun name args => do
  match readOptions Difference.forms false args with
  | .error message => comparisonMisuse name message
  | .ok (o, operands) =>
    let fault? := (o.zipIdx).findSome? fun ((key, text), i) =>
      Difference.fault? (o.take i) key text
    if let some (message, isMisuse) := fault? then
      return (← if isMisuse then comparisonMisuse name message
        else complain 2 (name ++ octets ": " ++ message))
    match ← Difference.omittedIn name (o.every 'X') with
    | .error code => return code
    | .ok omitted =>
      let d := Difference.ofOptions name args o omitted
      match o.last? 'R', o.last? 'V', operands with
      | some _, some _, _ =>
        complain 2 (name ++ octets ": --from-file and --to-file both specified")
      | some source, none, _ => eachOperand (d.paths source) operands
      | none, some target, _ => eachOperand (d.paths · target) operands
      | none, none, [p, q] => d.paths p q
      | none, none, _ :: _ :: extra :: _ =>
        comparisonMisuse name (octets "extra operand " ++ quoted extra)
      | none, none, _ =>
        let last := ((name :: Difference.optionWords false args ++ operands).getLast?).getD name
        comparisonMisuse name (octets "missing operand after " ++ quoted last)

end MutationTesting.Tool
