import MutationTesting.Tool.Line
/-!
# Two sorted files

The programs that go through two sorted files side by side: `comm` says which lines are in one of
them or in both, `join` puts lines together that have a field in common. A line that has no partner
is a hint that the files are not sorted, so from then on their order is checked, unless that was
asked for from the beginning or not at all.

## Main definitions

* `SortedFile`, `SortedPair` — how far the files have come
* `SortedPair.next` — the next line of one of them
* `comm`, `join`
-/

namespace MutationTesting.Tool

open Act

/-! ### Files side by side -/

/-- Whether it is checked that lines are in order. -/
inductive OrderCheck where
  | never
  /-- Only after a line without a partner. -/
  | ifAlone
  /-- Always, and the program ends if they are not. -/
  | always
  deriving DecidableEq

/-- A file whose lines are to be in order. -/
structure SortedFile where
  path : Octets
  source : LineSource
  /-- The line that came last, and the one before. -/
  last : Option Octets := none
  earlier : Option Octets := none
  /-- As many lines have come. -/
  number : Nat := 0
  /-- Lines that are not in order were complained about. -/
  isBlamed : Bool := false

/-- How a program goes through two files. -/
structure PairForm where
  name : Octets
  check : OrderCheck
  blame : Blame
  /-- A line of the first file, or of the second one, can come before another line of it. -/
  inOrder : Bool → Octets → Octets → Bool
  /-- What is said of a line of a file that comes too late. -/
  complaint : Bool → SortedFile → Octets → Octets
  /-- The last two lines of a file are checked again at its end. -/
  checksEnd : Bool

/-- How far a program is in two files. -/
structure SortedPair where
  first : SortedFile
  second : SortedFile
  /-- A line had no partner. -/
  isAlone : Bool := false
  kept : Backlog := {}

namespace SortedPair

/-- One of the two files. -/
def file (p : SortedPair) (isFirst : Bool) : SortedFile := if isFirst then p.first else p.second

/-- The pair with one of its files changed. -/
def withFile (p : SortedPair) (isFirst : Bool) (file : SortedFile) : SortedPair :=
  if isFirst then { p with first := file } else { p with second := file }

/-- Keeps a text back. -/
def push (p : SortedPair) (text : Octets) : Act SortedPair := do
  return { p with kept := ← p.kept.push text }

/-- Complains about something, after what was kept back. -/
def complain (p : SortedPair) (f : PairForm) (message : Octets) : Act SortedPair := do
  let kept ← p.kept.emptied
  put 2 (f.name ++ octets ": " ++ message ++ ['\n'])
  return { p with kept }

/-- Checks that a line of a file can come before another one; what is left of the program if it
goes on. -/
def checked (p : SortedPair) (f : PairForm) (isFirst : Bool) (before line : Octets) :
    Act (Except Nat SortedPair) := do
  let file := p.file isFirst
  if f.check = .never || (f.check = .ifAlone && !p.isAlone) || file.isBlamed then return .ok p
  else if f.inOrder isFirst before line then return .ok p
  else
    let p ← p.complain f (f.complaint isFirst file line)
    return if f.check = .always then .error 1
      else .ok (p.withFile isFirst { file with isBlamed := true })

/-- The next line of one of the files, or the code with which the program ends. -/
def next (p : SortedPair) (f : PairForm) (isFirst : Bool) :
    Act (Except Nat (Option Octets × SortedPair)) := do
  let file := p.file isFirst
  match ← file.source.next with
  | (.fault path e, _) =>
    p.kept.flush
    return .error (← complainOf f.name (f.blame path e) e)
  | (.line line _, source) =>
    let number := file.number + 1
    let read := { file with source, number, last := some line, earlier := file.last }
    let p := p.withFile isFirst read
    match file.last with
    | none => return .ok (some line, p)
    | some before => return (← p.checked f isFirst before line).map fun p => (some line, p)
  | (.nothing, source) =>
    let p := p.withFile isFirst { file with source }
    match file.earlier, file.last with
    | some before, some line =>
      if f.checksEnd then return (← p.checked f isFirst before line).map fun p => (none, p)
      else return .ok (none, p)
    | _, _ => return .ok (none, p)

/-- The end of a program: lines that are not in order make it fail. -/
def finish (p : SortedPair) (f : PairForm) : Act Nat := do
  p.kept.flush
  if p.first.isBlamed || p.second.isBlamed then
    put 2 (f.name ++ octets ": input is not in sorted order\n")
    return 1
  else return 0

end SortedPair

/-- Does something with two operands. -/
def withTwo (name : Octets) (paths : List Octets) (act : Octets → Octets → Act Nat) : Act Nat :=
  match paths with
  | [p, q] => act p q
  | [] => misuse name 1 (octets "missing operand")
  | [p] => misuse name 1 (octets "missing operand after " ++ quoted p)
  | _ :: _ :: r :: _ => misuse name 1 (octets "extra operand " ++ quoted r)

/-- Whether options say that the order is checked. -/
def orderCheckOf (o : Options) : OrderCheck :=
  match o.latest? ['C', 'N'] with
  | some 'C' => .always
  | some _ => .never
  | none => .ifAlone

/-! ### Lines in common -/

/-- Writes the lines of two sorted files in three columns: those of the first, of the second and of
both. -/
def comm : Program := fun name args =>
  let forms := [flag '1', flag '2', flag '3', flag 'z' "zero-terminated",
    longFlag 'C' "check-order", longFlag 'N' "nocheck-order", longFlag 'T' "total",
    longValued 'O' "output-delimiter"]
  withOptions name forms 1 args fun o paths => do
    if 1 < (o.every 'O').eraseDups.length then
      return (← complain 1 (name ++ octets ": multiple output delimiters specified"))
    let tab := (o.last? 'O').getD ['\t']
    let tab := if tab.isEmpty then ['\x00'] else tab
    let ending := if o.has 'z' then '\x00' else '\n'
    let second := if o.has '1' then [] else tab
    let both := second ++ if o.has '2' then [] else tab
    let shown (column : Char) (front line : Octets) : Octets :=
      if o.has column then [] else front ++ line ++ [ending]
    let f : PairForm := {
      name
      check := orderCheckOf o
      blame := plainBlame
      inOrder := fun _ => Octets.precedes
      complaint := fun isFirst _ _ =>
        octets (if isFirst then "file 1" else "file 2") ++ octets " is not in sorted order"
      checksEnd := true }
    withTwo name paths fun path path' => do
      let file (path : Octets) : SortedFile :=
        { path, source := LineSource.ofPaths [path] ending }
      match ← SortedPair.next ⟨file path, file path', false, {}⟩ f true with
      | .error code => return code
      | .ok (a, p) =>
        match ← p.next f false with
        | .error code => return code
        | .ok (b, p) =>
          iterate (fun (a, b, (p : SortedPair), (count : Nat × Nat × Nat)) => do
            let (ones, twos, threes) := count
            let (fromFirst, fromSecond) := match a, b with
              | none, _ => (false, b.isSome)
              | some _, none => (true, false)
              | some a, some b => (Octets.precedes a b, Octets.precedes b a)
            if !fromFirst && !fromSecond then
              let text (n : Nat) := Decimal.natText n ++ (o.last? 'O').getD tab
              let total := text ones ++ text twos ++ text threes ++ octets "total" ++ [ending]
              let p ← if o.has 'T' then p.push total else pure p
              return .inr (← p.finish f)
            let line := ((if fromFirst then a else b).getD [])
            let (text, count) :=
              if fromFirst && fromSecond then (shown '3' both line, (ones, twos, threes + 1))
              else if fromFirst then (shown '1' [] line, (ones + 1, twos, threes))
              else (shown '2' second line, (ones, twos + 1, threes))
            let p ← SortedPair.push { p with isAlone := p.isAlone || fromFirst != fromSecond } text
            match ← if fromFirst then p.next f true else pure (.ok (a, p)) with
            | .error code => return .inr code
            | .ok (a, p) =>
              match ← if fromSecond then p.next f false else pure (.ok (b, p)) with
              | .error code => return .inr code
              | .ok (b, p) => return .inl (a, b, p, count)) (a, b, p, (0, 0, 0))

/-! ### Fields in common -/

/-- A field of an output line: the one that lines have in common, or one of a file. -/
inductive JoinField where
  | shared
  | own (isFirst : Bool) (index : Nat)

/-- How lines are put together. -/
structure JoinForm where
  /-- What stands between fields, or nothing if it is any blanks. -/
  separator : Option Char
  /-- The fields that lines are to have in common, from nothing on. -/
  keys : Nat × Nat
  caseless : Bool
  /-- What an output line consists of, if that was said. -/
  fields : Option (List JoinField)
  /-- What stands for an empty field. -/
  filler : Octets
  /-- So many fields of either file are shown. -/
  counts : Option (Nat × Nat)
  ending : Char

namespace JoinForm

/-- The fields of a line. After blanks at its end there is an empty one. -/
def fieldsOf (f : JoinForm) (line : Octets) : List Octets :=
  if line.isEmpty then []
  else
    match f.separator with
    | some '\n' => [line]
    | some c => splitAt c line
    | none =>
      let isBlank (c : Char) : Bool := c = ' ' || c = '\t' || c = '\n'
      let rec go : Nat → Octets → List Octets
        | 0, _ => []
        | n + 1, text =>
          let word := text.takeWhile (!isBlank ·)
          match text.drop word.length with
          | [] => [word]
          | rest => word :: go n (rest.dropWhile isBlank)
      let text := line.dropWhile isBlank
      if text.isEmpty then [] else go (text.length + 1) text

/-- The field that a line of a file has in common with others. -/
def key (f : JoinForm) (isFirst : Bool) (line : Octets) : Octets :=
  let text := ((f.fieldsOf line)[if isFirst then f.keys.1 else f.keys.2]?).getD []
  if f.caseless then text.map Char.toUpper else text

/-- A field as it is shown. -/
def shown (f : JoinForm) (fields : List Octets) (index : Nat) : Octets :=
  match fields[index]? with
  | some [] | none => f.filler
  | some text => text

/-- The line for two lines, one of which can be missing. -/
def line (f : JoinForm) (a b : Option Octets) : Octets :=
  let as := (a.map f.fieldsOf).getD []
  let bs := (b.map f.fieldsOf).getD []
  let shared := if a.isSome then f.shown as f.keys.1 else f.shown bs f.keys.2
  let others (fields : List Octets) (key : Nat) (count : Option Nat) : List Octets :=
    ((List.range (count.getD fields.length)).filter (· != key)).map (f.shown fields)
  let parts := match f.fields with
    | some fields => fields.map fun
      | .shared => shared
      | .own true index => f.shown as index
      | .own false index => f.shown bs index
    | none =>
      shared :: others as f.keys.1 (f.counts.map (·.1)) ++ others bs f.keys.2 (f.counts.map (·.2))
  List.intercalate [f.separator.getD ' '] parts ++ [f.ending]

/-- The number of a field, counted from one on, as an index. -/
def index? (text : Octets) : Except Octets Nat :=
  match natOf? text with
  | some (n + 1) => .ok n
  | _ => .error (octets "invalid field number: " ++ quoted text)

/-- The field that a text means. -/
def field? (text : Octets) : Except Octets JoinField :=
  match text with
  | ['0'] => .ok .shared
  | '0' :: _ => .error (octets "invalid field specifier: " ++ quoted text)
  | c :: rest =>
    if c = '1' || c = '2' then
      match rest with
      | '.' :: digits => (index? digits).map (.own (c = '1'))
      | _ => .error (octets "invalid field specifier: " ++ quoted text)
    else .error (octets "invalid file number in field spec: " ++ quoted text)
  | [] => .error (octets "invalid file number in field spec: " ++ quoted text)

/-- What an option and its argument are wrong in. -/
def checkOption : Char × Octets → Except Octets Unit
  | ('t', text) =>
    if text.length ≤ 1 || text = ['\\', '0'] then .ok ()
    else .error (octets "multi-character tab " ++ quoted text)
  | ('o', text) =>
    if text = octets "auto" then .ok () else do
      let _ ← (fieldTexts text).mapM field?
  | (key, text) =>
    if key = 'a' || key = 'v' then
      if text = ['1'] || text = ['2'] then .ok ()
      else .error (octets "invalid field number: " ++ quoted text)
    else if key = '1' || key = '2' || key = 'j' then do
      let _ ← index? text
    else .ok ()
where
  /-- The texts of fields in a list of them. -/
  fieldTexts (text : Octets) : List Octets :=
    (splitAt ',' (text.map fun c => if c = ' ' || c = '\t' then ',' else c))

/-- What options say, and for each file whether its lines without a partner are shown. -/
def ofOptions (o : Options) : JoinForm :=
  let isAuto := o.last? 'o' = some (octets "auto")
  let key (letter : Char) : Nat :=
    match ((o.last? letter).orElse fun _ => o.last? 'j').bind natOf? with
    | some n => n - 1
    | none => 0
  { separator := (o.last? 't').map fun text =>
      if text = ['\\', '0'] then '\x00' else text.headD '\n'
    keys := (key '1', key '2')
    caseless := o.has 'i'
    fields := if isAuto || !o.has 'o' then none
      else
        some (((o.every 'o').flatMap checkOption.fieldTexts).filterMap fun text =>
          (field? text).toOption)
    filler := (o.last? 'e').getD []
    counts := if isAuto then some (0, 0) else none
    ending := if o.has 'z' then '\x00' else '\n' }

end JoinForm

/-- The lines of a file that follow as long as they have a field in common with a line, and the
first one that has not. -/
def joinGroup (f : PairForm) (j : JoinForm) (isFirst : Bool) (key : Octets) (p : SortedPair) :
    Act (Except Nat (List Octets × Option Octets × SortedPair)) :=
  iterate (fun (found, p) => do
    match ← SortedPair.next p f isFirst with
    | .error code => return .inr (.error code)
    | .ok (none, p) => return .inr (.ok (found.reverse, none, p))
    | .ok (some line, p) =>
      if j.key isFirst line = key then return .inl (line :: found, p)
      else return .inr (.ok (found.reverse, some line, p))) (([] : List Octets), p)

/-- Goes to the end of one file after the other one has come to its end. -/
def joinRest (f : PairForm) (j : JoinForm) (isFirst shows : Bool) (line : Option Octets)
    (p : SortedPair) : Act (Except Nat SortedPair) := do
  let single (line : Octets) : Octets :=
    if !shows then [] else if isFirst then j.line (some line) none else j.line none (some line)
  let isBlamed (p : SortedPair) : Bool := (p.file isFirst).isBlamed
  let isChecked := f.check != .never && !(p.first.isBlamed && p.second.isBlamed)
  match line with
  | none => return .ok p
  | some line =>
    if !shows && !isChecked then return .ok p
    let p ← p.push (single line)
    iterate (fun (p : SortedPair) => do
      match ← p.next f isFirst with
      | .error code => return .inr (.error code)
      | .ok (none, p) => return .inr (.ok p)
      | .ok (some line, p) =>
        let p ← p.push (single line)
        if isBlamed p && !shows then return .inr (.ok p) else return .inl p) p

/-- Puts the lines of two files together. The last arguments say whether lines in pairs are shown,
and those without a partner of the first and of the second file. -/
def joinLines (f : PairForm) (j : JoinForm) (pairs firsts seconds : Bool)
    (a b : Option Octets) (p : SortedPair) : Act Nat :=
  iterate (fun (a, b, (p : SortedPair)) => do
    match a, b with
    | some line, some line' =>
      let key := j.key true line
      let key' := j.key false line'
      if key = key' then
        match ← joinGroup f j true key p with
        | .error code => return .inr code
        | .ok (lines, a, p) =>
          match ← joinGroup f j false key p with
          | .error code => return .inr code
          | .ok (lines', b, p) =>
            let text := (line :: lines).flatMap fun l =>
              (line' :: lines').flatMap fun l' => j.line (some l) (some l')
            return .inl (a, b, ← p.push (if pairs then text else []))
      else
        let isFirst := key < key'
        let text := if isFirst then if firsts then j.line a none else []
          else if seconds then j.line none b else []
        match ← (← p.push text).next f isFirst with
        | .error code => return .inr code
        | .ok (line, p) =>
          let p := { p with isAlone := true }
          return .inl (if isFirst then (line, b, p) else (a, line, p))
    | _, _ =>
      match ← joinRest f j true firsts a p with
      | .error code => return .inr code
      | .ok p =>
        match ← joinRest f j false seconds b p with
        | .error code => return .inr code
        | .ok p => return .inr (← p.finish f)) (a, b, p)

/-- Joins lines of two sorted files that have a field in common. -/
def join : Program := fun name args =>
  let forms := [valued 't', valued '1', valued '2', valued 'j', valued 'a', valued 'v',
    valued 'o', valued 'e', flag 'i' "ignore-case", flag 'z' "zero-terminated",
    longFlag 'C' "check-order", longFlag 'N' "nocheck-order", longFlag 'H' "header"]
  withOptions name forms 1 args fun o paths => do
    if let .error message := o.forM JoinForm.checkOption then
      return (← complain 1 (name ++ octets ": " ++ message))
    let differs (key : Char) : Bool := 1 < (o.every key).eraseDups.length
    if differs 't' then return (← complain 1 (name ++ octets ": incompatible tabs"))
    if differs 'e' then
      return (← complain 1 (name ++ octets ": conflicting empty-field replacement strings"))
    let j := JoinForm.ofOptions o
    let f : PairForm := {
      name
      check := orderCheckOf o
      blame := fun path e => if isReadFault e then octets "read error" else plain path
      inOrder := fun isFirst a b => Octets.precedes (j.key isFirst a) (j.key isFirst b)
      complaint := fun _ file line =>
        file.path ++ ':' :: Decimal.natText file.number ++ octets ": is not sorted: " ++ line
      checksEnd := false }
    withTwo name paths fun path path' => do
      if path = ['-'] && path' = ['-'] then
        return (← complain 1 (name ++ octets ": both files cannot be standard input"))
      let file (path : Octets) (descriptor : Nat) : SortedFile :=
        { path, source := LineSource.ofOpen path descriptor j.ending }
      let opened (path : Octets) : Act (Except FileError Nat) :=
        if path = ['-'] then pure (.ok 0) else openFile path .toRead
      match ← opened path with
      | .error e => complainOf name (plain path) e
      | .ok d =>
        match ← opened path' with
        | .error e => complainOf name (plain path') e
        | .ok d' =>
          match ← SortedPair.next ⟨file path d, file path' d', false, {}⟩ f true with
          | .error code => return code
          | .ok (a, p) =>
            match ← p.next f false with
            | .error code => return code
            | .ok (b, p) =>
              let count (line : Option Octets) := (line.map (j.fieldsOf · |>.length)).getD 0
              let j := { j with counts := j.counts.map fun _ => (count a, count b) }
              let isShown (which : Char) : Bool :=
                (o.every 'a').contains [which] || (o.every 'v').contains [which]
              joinFrom o f j (isShown '1') (isShown '2') a b p
where
  /-- Puts lines together, the first ones without looking at them if they are the heads. -/
  joinFrom (o : Options) (f : PairForm) (j : JoinForm) (firsts seconds : Bool)
      (a b : Option Octets) (p : SortedPair) : Act Nat := do
    let pairs := !o.has 'v'
    if !o.has 'H' || (a.isNone && b.isNone) then joinLines f j pairs firsts seconds a b p
    else
      let p ← p.push (j.line a b)
      let p := { p with
        first := { p.first with last := none }, second := { p.second with last := none } }
      match ← if a.isSome then p.next f true else pure (.ok (none, p)) with
      | .error code => return code
      | .ok (a, p) =>
        match ← if b.isSome then p.next f false else pure (.ok (none, p)) with
        | .error code => return code
        | .ok (b, p) => joinLines f j pairs firsts seconds a b p

end MutationTesting.Tool
