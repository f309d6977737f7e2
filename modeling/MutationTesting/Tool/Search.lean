import MutationTesting.Text.Glob
import MutationTesting.Text.Pattern
import MutationTesting.Tool.Find
import MutationTesting.Tool.Stream
/-!
# Searching

The program `grep`: which lines of files match a pattern. Lines are shown with the names of their
files, their numbers and the lines around them, if so said.

## Main definitions

* `Search.Wanted` — what is searched for
* `Search.Progress` — how far the search of a file is
* `Search.searchFiles` — the search of files one after the other
* `grep`
-/

namespace MutationTesting.Tool

open Act

namespace Search

/-- What is searched for. -/
structure Wanted where
  patterns : List (Pattern × Option Expression)
  /-- Matches are whole words. -/
  words : Bool
  inverted : Bool

/-- The longest match at a place of a line that is a whole word, given what stands from there on. -/
def wordAt? (p : Pattern × Option Expression) (text : Array Char) (rest : Octets) (i : Nat) :
    Option PatternMatch :=
  let isWord (i : Nat) : Bool := (text[i]?).any Pattern.isWordCharacter
  let standsAlone (i j : Nat) : Bool := !(i != 0 && isWord (i - 1)) && !isWord j
  match p.2 with
  | some e =>
    ((e.lengths (i = 0) rest).find? fun n => standsAlone i (i + n)).map fun n => ⟨i, i + n, []⟩
  | none => Pattern.follow text p.1 i [] fun j gs =>
    if standsAlone i j then some (⟨i, j, gs⟩ : PatternMatch) else none

/-- The first match in a line from a place on that is a whole word. -/
def wordMatch? (p : Pattern × Option Expression) (text : Array Char) :
    Octets → Nat → Option PatternMatch
  | [], i => wordAt? p text [] i
  | c :: rest, i => (wordAt? p text (c :: rest) i).orElse fun _ => wordMatch? p text rest (i + 1)

/-- The match of any of the patterns in a line from a place on that begins first, and of those the
longest. -/
def match? (w : Wanted) (text : Array Char) (rest : Octets) (start : Nat) : Option PatternMatch :=
  (w.patterns.filterMap fun p =>
    if w.words then wordMatch? p text rest start
    else p.1.searchFrom p.2 text rest start).foldl (fun (best : Option PatternMatch) m =>
      match best with
      | none => some m
      | some b =>
        if m.start < b.start || (m.start = b.start && b.stop < m.stop) then some m else some b) none

/-- The line is chosen. -/
def isChosen (w : Wanted) (line : Octets) : Bool :=
  let found :=
    if w.words then (match? w line.toArray line 0).isSome
    else
      w.patterns.any fun (p, e?) =>
        match e? with
        | some e => e.occursIn line
        | none => (p.search? line).isSome
  found != w.inverted

/-- The matches in a line from a place on that are not empty, with their places. The first number
bounds how many there are. -/
def matchesIn (w : Wanted) (text : Array Char) : Nat → Octets → Nat → List (Nat × Octets)
  | 0, _, _ => []
  | n + 1, rest, start =>
    match match? w text rest start with
    | none => []
    | some m =>
      if m.stop = m.start then
        if m.stop < text.size then matchesIn w text n (rest.drop (m.stop + 1 - start)) (m.stop + 1)
        else []
      else
        (m.start, (text.extract m.start m.stop).toList)
          :: matchesIn w text n (rest.drop (m.stop - start)) m.stop

/-- How lines are shown. -/
structure Shown where
  /-- The name of the file, if it is shown. -/
  label : Octets
  /-- What stands after this name in front of a chosen line, if that is not what stands there after
  a number. -/
  labelEnd : Option Char
  numbered : Bool
  offsets : Bool
  /-- Lines begin at a tab stop, and numbers have this width. -/
  tabbed : Option Nat
  onlyMatches : Bool
  /-- As many lines around a chosen one are shown as well. -/
  before : Nat
  after : Nat
  /-- What stands between lines that do not follow each other. -/
  separator : Option Octets
  /-- What ends a line. -/
  ending : Char
  /-- At most so many lines are chosen. -/
  most : Option Nat
  /-- It matters only how many lines are chosen. -/
  quiet : Bool
  /-- It matters only whether a line is chosen. -/
  onlyFirst : Bool
  /-- Every file is a text. -/
  isText : Bool

/-- What stands before what is shown of a line. -/
def front (s : Shown) (mark : Char) (number offset : Nat) : Octets :=
  let wide (n : Nat) : Octets :=
    let digits := Decimal.natText n
    List.replicate (s.tabbed.getD 0 - digits.length) ' ' ++ digits ++ [mark]
  (if s.label.isEmpty then [] else s.label ++ [s.labelEnd.getD mark])
    ++ (if s.numbered then wide number else []) ++ (if s.offsets then wide offset else [])

/-- Something of a line behind what stands before it. -/
def shownText (s : Shown) (mark : Char) (number offset : Nat) (text : Octets) : Octets :=
  let before := front s mark number offset
  let isTabbed := s.tabbed.isSome && !before.isEmpty && !text.isEmpty
  before ++ (if isTabbed then ['\t'] else []) ++ text ++ [s.ending]

/-- A line as it is shown, or the matches in it. -/
def shownLine (w : Wanted) (s : Shown) (chosen : Bool) (line : Octets) (number offset : Nat) :
    Octets :=
  let mark := if chosen then ':' else '-'
  if s.onlyMatches then
    if chosen = w.inverted then []
    else
      let text := line.toArray
      (matchesIn w text (text.size + 1) line 0).flatMap fun (start, m) =>
        shownText s mark number (offset + start) m
  else shownText s mark number offset line

/-- How far the search of a file is. -/
structure Progress where
  /-- As many lines were searched. -/
  number : Nat := 0
  /-- The next line begins here. -/
  offset : Nat := 0
  /-- As many lines were chosen. -/
  count : Nat := 0
  /-- The last one of them ended here. -/
  mark : Nat := 0
  /-- The last lines that were not shown, with their numbers and beginnings, the last first. -/
  held : List (Octets × Nat × Nat) := []
  /-- As many lines are still to be shown because of the last chosen one. -/
  pending : Nat := 0
  /-- The lines that were not shown do not follow one that was. -/
  isApart : Bool := true
  /-- Something was shown, if only of another file. -/
  isUsed : Bool
  /-- A line was chosen that is not shown because it is not text. -/
  isHidden : Bool := false

/-- Nothing more of the file is to be searched. -/
def Progress.isDone (p : Progress) (s : Shown) : Bool :=
  p.isHidden || (s.onlyFirst && p.count != 0) || (s.most.any (· ≤ p.count) && p.pending = 0)

/-- Searches a line, which takes so many bytes; what is shown. A line that is hidden is chosen
without being shown. -/
def Progress.pass (p : Progress) (w : Wanted) (s : Shown) (hidden : Bool) (line : Octets)
    (size : Nat) : Progress × Octets :=
  let next := { p with number := p.number + 1, offset := p.offset + size }
  if s.most.all (p.count < ·) && isChosen w line then
    let next := { next with count := p.count + 1, mark := next.offset }
    if s.quiet then (next, [])
    else if hidden then ({ next with isHidden := true }, [])
    else
      let gap := match s.separator with
        | some separator => if p.isUsed && p.isApart then separator ++ [s.ending] else []
        | none => []
      let earlier := p.held.reverse.flatMap fun (line, number, offset) =>
        shownLine w s false line number offset
      ({ next with held := [], pending := s.after, isApart := false, isUsed := true },
        gap ++ earlier ++ shownLine w s true line next.number p.offset)
  else if p.pending != 0 then
    ({ next with pending := p.pending - 1 }, shownLine w s false line next.number p.offset)
  else if s.quiet then (next, [])
  else
    let held := (line, next.number, p.offset) :: p.held
    ({ next with held := held.take s.before, isApart := p.isApart || s.before < held.length }, [])

/-- Searches lines until nothing more is to be searched. What ends a line takes a byte; the last
one may have no end. -/
def Progress.passAll (p : Progress) (w : Wanted) (s : Shown) (hidden ended : Bool) :
    List Octets → Progress × Octets
  | [] => (p, [])
  | line :: rest =>
    if p.isDone s then (p, [])
    else
      let size := line.length + if ended || !rest.isEmpty then 1 else 0
      let (p, said) := p.pass w s hidden line size
      let (p, more) := p.passAll w s hidden ended rest
      (p, said ++ more)

/-- The options of a search. -/
def forms : List OptionForm :=
  [flag 'E' "extended-regexp", flag 'F' "fixed-strings", flag 'G' "basic-regexp",
    flag 'P' "perl-regexp", valued 'e' "regexp", valued 'f' "file", flag 'i' "ignore-case",
    flag 'y', flag 'v' "invert-match", flag 'w' "word-regexp", flag 'x' "line-regexp",
    flag 'c' "count", flag 'l' "files-with-matches", flag 'L' "files-without-match",
    flag 'q' "quiet", longFlag 'q' "silent", flag 's' "no-messages", flag 'n' "line-number",
    flag 'H' "with-filename", flag 'h' "no-filename", flag 'o' "only-matching",
    flag 'r' "recursive", flag 'R' "dereference-recursive", valued 'm' "max-count",
    valued 'A' "after-context", valued 'B' "before-context", valued 'C' "context", flag 'a' "text",
    flag 'b' "byte-offset", flag 'z' "null-data", flag 'Z' "null", flag 'U' "binary", flag 'I',
    flag 'T' "initial-tab", longValued 'J' "include", longValued 'K' "exclude",
    longValued 'M' "exclude-dir", longExtended 'N' "color", longExtended 'N' "colour",
    longFlag 'O' "line-buffered", longValued 'Q' "label", longFlag 'S' "no-ignore-case",
    longValued 'W' "group-separator", longFlag 'X' "no-group-separator",
    flag 'u' "unix-byte-offsets", valued 'd' "directories", valued 'D' "devices",
    longValued 'Y' "binary-files"]
    ++ "0123456789".toList.map flag

/-- What options and the text of patterns say that is searched for. -/
def wanted (o : Options) (texts : List Octets) : Except String Wanted := do
  let kind := o.latest? ['E', 'F', 'G', 'P']
  let read (text : Octets) : Except String Pattern :=
    if kind = some 'F' then .ok (.ofLiteral text)
    else Pattern.ofText? ⟨kind = some 'E' || kind = some 'P', kind = some 'P', false⟩ text
  let caseless := o.latest? ['i', 'y', 'S'] |>.any (· != 'S')
  let patterns ← (texts.flatMap (splitAt '\n')).mapM fun text => do
    let p ← read text
    let p := if caseless then p.caseless else p
    let p := if o.has 'x' then p.wholeLine else p
    return (p, p.expression?)
  return ⟨patterns, o.has 'w' && !o.has 'x', o.has 'v'⟩

/-- The file is one of those that are searched below directories. -/
def isIncluded (o : Options) (path : Octets) : Bool :=
  let fits (text : Octets) : Bool := (Glob.ofText text).accepts (lastName path)
  (!o.has 'J' || (o.every 'J').any fits) && !(o.every 'K').any fits

/-- The files to search below something. The first argument bounds the depth. -/
def filesBelow (o : Options) (fs : FileSystem) (here : Nat) : Nat → Octets → List Octets
  | 0, _ => []
  | depth + 1, path =>
    match fs.find (if o.has 'R' then .follow else .stay) here path with
    | .error _ => [path]
    | .ok n =>
      if fs.isDirectory n then
        (fs.entries n).flatMap fun (name, m) =>
          let inner := inside path name
          match fs.form? m with
          | some (.directory _ _) =>
            if (o.every 'M').any fun d => (Glob.ofText d).accepts name then []
            else filesBelow o fs here depth inner
          | some (.file _) => if isIncluded o inner then [inner] else []
          | some (.link _) => if o.has 'R' then filesBelow o fs here depth inner else []
          | _ => []
      else if isIncluded o path then [path] else []

/-- A number that an option says. -/
def numberOf (o : Options) (key : Char) : Nat := ((o.last? key).bind natOf?).getD 0

/-- The separator of groups of lines. -/
def separatorOf (o : Options) : Option Octets :=
  if ['A', 'B', 'C'].any o.has then
    match o.latest? ['W', 'X'] with
    | some 'X' => none
    | _ => some ((o.last? 'W').getD ['-', '-'])
  else none

/-- How the lines of a file are shown as options say. -/
def shownFor (o : Options) (label : Octets) (width : Nat) : Shown where
  label
  labelEnd := if o.has 'Z' then some '\x00' else none
  numbered := o.has 'n'
  offsets := o.has 'b'
  tabbed := if o.has 'T' then some width else none
  onlyMatches := o.has 'o'
  before := numberOf o (if o.has 'B' then 'B' else 'C')
  after := numberOf o (if o.has 'A' then 'A' else 'C')
  separator := separatorOf o
  ending := if o.has 'z' then '\x00' else '\n'
  most := ((o.last? 'm').bind intOf?).bind fun n => if 0 ≤ n then some n.toNat else none
  quiet := ['q', 'l', 'L', 'c'].any o.has
  onlyFirst := ['q', 'l', 'L'].any o.has
  isText := o.has 'a' || o.has 'z' || o.last? 'Y' = some (octets "text")

/-- Files that are no text have no lines. -/
def skipsBinary (o : Options) : Bool :=
  match o.latest? ['a', 'Y', 'I'] with
  | some 'I' => true
  | some 'Y' => o.last? 'Y' = some (octets "without-match")
  | _ => false

/-- How the search of a file ended. -/
structure Finding where
  count : Nat
  isHidden : Bool
  isUsed : Bool
  fault : Option FileError

/-- Leaves the input where a search ends: after the last line that was chosen if there are as many
as may be, or else at the end. -/
def leaveInput (s : Shown) (p : Progress) (source : LineSource) : Act Unit := do
  if s.most.any (· ≤ p.count) then
    LineSource.giveBack { source with descriptor := some 0 } (p.offset - p.mark)
  else
    let _ ← readAll 0

/-- Searches the lines of a file. -/
def searchLines (o : Options) (w : Wanted) (s : Shown) (path : Octets) (isUsed : Bool)
    (kept : Backlog) : Act (Finding × Backlog) :=
  let close (source : LineSource) (p : Progress) : Act Unit := do
    if path = ['-'] && !(['q', 'l', 'L'].any o.has) then leaveInput s p source
    let _ ← source.shut
  iterate (fun (source, (p : Progress), (kept : Backlog)) => do
    if p.isDone s then
      close source p
      return .inr (⟨p.count, p.isHidden, p.isUsed, none⟩, kept)
    match ← source.next with
    | (.nothing, source) =>
      close source p
      return .inr (⟨p.count, p.isHidden, p.isUsed, none⟩, kept)
    | (.fault _ e, _) => return .inr (⟨p.count, p.isHidden, p.isUsed, some e⟩, kept)
    | (.line text ended, source) =>
      let isBinary := source.hasZeros && !s.isText
      if isBinary && skipsBinary o then
        close source p
        return .inr (⟨0, false, p.isUsed, none⟩, kept)
      let lines := if isBinary then splitAt '\x00' text else [text]
      let (p, said) := p.passAll w s isBinary ended lines
      let kept ← kept.push said
      return .inl (source, p, ← if o.has 'O' then kept.emptied else pure kept))
    (LineSource.ofPaths [path] s.ending, { isUsed }, kept)

/-- What is said about a file after its search. -/
def verdict (o : Options) (s : Shown) (shownPath : Octets) (f : Finding) : Octets :=
  let ending := if o.has 'Z' then '\x00' else '\n'
  if o.has 'q' then []
  else if o.has 'L' then if f.count = 0 then shownPath ++ [ending] else []
  else if o.has 'l' then if f.count = 0 then [] else shownPath ++ [ending]
  else if o.has 'c' then
    (if s.label.isEmpty then [] else s.label ++ [s.labelEnd.getD ':'])
      ++ Decimal.natText f.count ++ ['\n']
  else []

/-- The file is the one to which the output goes, so that it could grow while it is searched. -/
def isOutput (k : Kernel) (s : Shown) (path : Octets) : Bool :=
  let node? := if path = ['-'] then (fileOf? k 0).map (·.1)
    else (k.files.find .follow k.here path).toOption
  match node?, fileOf? k 1 with
  | some n, some (m, _) => n = m && !s.quiet && s.most != some 1
  | _, _ => false

/-- Searches files one after the other: whether lines were chosen, and whether a file could not be
read. -/
def searchFiles (name : Octets) (o : Options) (w : Wanted) (named : Bool) (files : List Octets) :
    Act (Bool × Bool) :=
  iterate (fun (files, isUsed, (kept : Backlog), found, failed) => do
    match files with
    | [] =>
      kept.flush
      return .inr (found, failed)
    | path :: files =>
      let k ← look
      let shownPath := if path = ['-'] then (o.last? 'Q').getD (octets "(standard input)") else path
      let width := match fileSize? k path with
        | some size => (Decimal.natText (if o.has 'n' then size + 1 else size)).length
        | none => 19
      let s := shownFor o (if named then shownPath else []) width
      let blame (kept : Backlog) (message : String) : Act Backlog := do
        let kept ← kept.emptied
        put 2 (name ++ octets ": " ++ shownPath ++ octets (": " ++ message) ++ ['\n'])
        return kept
      if isOutput k s path then
        let kept ← if o.has 's' then pure kept
          else blame kept "input file is also the output"
        return .inl (files, isUsed, kept, found, true)
      let (f, kept) ← searchLines o w s path isUsed kept
      match f.fault with
      | some e =>
        let kept ← if o.has 's' then pure kept else blame kept e.message
        return .inl (files, f.isUsed, kept, found, true)
      | none =>
        if f.count != 0 && o.has 'q' then return .inr (true, false)
        let kept ← kept.push (verdict o s shownPath f)
        let kept ← if f.isHidden then blame kept "binary file matches" else pure kept
        return .inl (files, f.isUsed, kept, found || f.count != 0, failed))
    (files, false, {}, false, false)

/-- What is wrong with the argument of an option, and whether the usage is shown as well. -/
def argumentFault? : Char × Octets → Option (Octets × Bool)
  | ('m', text) =>
    if (intOf? text).isNone then some (octets "invalid max count", false) else none
  | ('d', text) =>
    if ["read", "recurse", "skip"].any (octets · = text) then none
    else some (octets "invalid argument " ++ quoted text ++ octets (" for '--directories'\n" ++
      "Valid arguments are:\n  - 'read'\n  - 'recurse'\n  - 'skip'"), true)
  | ('D', text) =>
    if ["read", "skip"].any (octets · = text) then none
    else some (octets "unknown devices method", false)
  | ('Y', text) =>
    if ["binary", "text", "without-match"].any (octets · = text) then none
    else some (octets "unknown binary-files type", false)
  | (key, text) =>
    if ['A', 'B', 'C'].contains key && (natOf? text).isNone then
      some (text ++ octets ": invalid context length argument", false)
    else none

/-- How directories are searched: all files below them, none, or as if they were files. -/
def descent (o : Options) : Octets :=
  match o.latest? ['r', 'R', 'd'] with
  | some 'd' => (o.last? 'd').getD []
  | some _ => octets "recurse"
  | none => octets "read"

/-- Digits written like options are the number of the lines around. -/
def withNumber : Options → Options
  | [] => []
  | (key, text) :: rest =>
    if key.isDigit then
      match withNumber rest with
      | ('C', digits) :: others =>
        -- Digits next to each other are one number.
        if (rest.head?.map (·.1)).any Char.isDigit then ('C', key :: digits) :: others
        else ('C', [key]) :: ('C', digits) :: others
      | others => ('C', [key]) :: others
    else (key, text) :: withNumber rest

/-- How the program is called. -/
def usage : Octets :=
  octets "Usage: grep [OPTION]... PATTERNS [FILE]...\nTry 'grep --help' for more information."

/-- The end of a search that was called in a wrong way. -/
def misused (name message : Octets) (code : Nat := 2) : Act Nat :=
  complain code (name ++ octets ": " ++ message ++ '\n' :: usage)

end Search

/-- Searches files, or the input, for lines that match patterns. -/
def grepAs (kind : Options) : Program := fun name args => do
  match readOptions Search.forms false args with
  | .error message => Search.misused name message
  | .ok (given, operands) =>
    let o := kind ++ Search.withNumber given
    let rec fromFiles : List Octets → Act (Except Nat (List Octets))
      | [] => return .ok []
      | path :: rest => do
        match ← inputContent path with
        | .error e => return .error (← complain 2 (name ++ octets ": " ++ path ++ octets ": "
            ++ octets e.message))
        | .ok content =>
          return (← fromFiles rest).map (linesOf (Octets.ofBytes content) ++ ·)
    match ← fromFiles (o.every 'f') with
    | .error code => return code
    | .ok listed =>
      let own := o.every 'e' ++ listed
      let texts? := if o.has 'e' || o.has 'f' then some (own, operands)
        else
          match operands with
          | p :: paths => some ([p], paths)
          | [] => none
      match texts? with
      | none => complain 2 Search.usage
      | some (texts, paths) =>
        match o.findSome? Search.argumentFault?, Search.wanted o texts with
        | some (message, true), _ => Search.misused name message 1
        | some (message, false), _ => complain 2 (name ++ octets ": " ++ message)
        | none, .error e => complain 2 (name ++ octets ": " ++ octets e)
        | none, .ok w =>
          if (o.last? 'm').bind natOf? = some 0 && !o.has 'L' then return 1
          let descent := Search.descent o
          let recursive := descent = octets "recurse"
          let k ← look
          let given := if paths.isEmpty then [if recursive then ['.'] else ['-']] else paths
          let files :=
            if recursive then
              (given.flatMap (Search.filesBelow o k.files k.here FileSystem.pathLimit)).map
                fun f => if paths.isEmpty then f.drop 2 else f
            else if descent = octets "skip" then
              given.filter (!k.files.leadsToDirectory k.here ·)
            else given
          let isTree := match given with
            | [path] => k.files.leadsToDirectory k.here path
            | _ => false
          let named := match o.latest? ['H', 'h'] with
            | some key => key = 'H'
            | none => 1 < given.length || (recursive && isTree)
          let (found, failed) ← Search.searchFiles name o w named files
          return if failed && !(found && o.has 'q') then 2 else if found then 0 else 1

/-- Searches for basic patterns. -/
def grep : Program := grepAs []

/-- Searches for extended patterns. -/
def egrep : Program := grepAs [('E', [])]

/-- Searches for texts. -/
def fgrep : Program := grepAs [('F', [])]

end MutationTesting.Tool
