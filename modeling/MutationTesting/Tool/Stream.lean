import MutationTesting.Tool.Line
import MutationTesting.Tool.Print
/-!
# Passing on

The programs that pass on what they read, or a part of it: `cat`, `tee`, `head`, `tail`, `tac`,
`rev`; those that make something to pass on: `seq`, `yes`; and `wc`, which measures it.
-/

namespace MutationTesting.Tool

open Act

/-! ### Copying -/

/-- As many bytes are copied at once. -/
def copyBlock : Nat := 8192

/-- Writes bytes to descriptors; those to which more can be written. -/
def writeEach (block : Bytes) : List Nat → Act (List Nat)
  | [] => return []
  | target :: rest => do
    let result ← write target block
    let others ← writeEach block rest
    return if result.toOption.isSome then target :: others else others

/-- Passes everything that comes from a descriptor on to other descriptors, as long as one of them
takes it. -/
def copyAll (source : Nat) (targets : List Nat) : Act (Except FileError Unit) :=
  iterate (fun (targets : List Nat) => do
    if targets.isEmpty then return .inr (.ok ())
    match ← read source blockSize with
    | .error e => return .inr (.error e)
    | .ok [] => return .inr (.ok ())
    | .ok block => return .inl (← writeEach block targets)) targets

/-- What is read from a descriptor would be written behind it. -/
def feedsItself (k : Kernel) (source : Nat) : Bool :=
  match fileOf? k source, fileOf? k 1 with
  | some (n, position), some (m, _) =>
    n = m && position < ((k.files.content n).toOption.getD []).length
  | _, _ => false

/-- Does something with the descriptor of each file in turn, which can fail. -/
def eachDescriptor (name : Octets) (shown : Octets → Octets)
    (act : Octets → Nat → Act (Except FileError Nat)) : List Octets → Act Nat
  | [] => return 0
  | path :: rest => do
    let fail (e : FileError) : Act Nat :=
      complain 1 (name ++ octets ": " ++ shown path ++ octets ": " ++ octets e.message)
    let code ← match ← withInput path (act path) with
      | .ok (.ok code) => pure code
      | .ok (.error e) | .error e => fail e
    let later ← eachDescriptor name shown act rest
    return max code later

/-- How lines are changed on their way. -/
structure LineMarks where
  numbered : Bool
  /-- Only lines that are not empty are numbered. -/
  onlyFull : Bool
  ends : Bool
  tabs : Bool
  visible : Bool
  squeezed : Bool

/-- A character that does not print, as it is shown. -/
def shownByte (tabs : Bool) (c : Char) : Octets :=
  let n := c.toNat
  let low (n : Nat) : Octets :=
    if n = 127 then ['^', '?'] else if n < 32 then ['^', Char.ofNat (n + 64)] else [Char.ofNat n]
  if c = '\t' && !tabs then [c]
  else if n < 128 then low n
  else ['M', '-'] ++ low (n - 128)

/-- How far the marking of lines has come. -/
structure Marking where
  /-- The number of the next line. -/
  number : Nat := 1
  /-- The next character begins a line. -/
  atStart : Bool := true
  /-- The line before was empty. -/
  afterEmpty : Bool := false
  /-- A carriage return is held back, since the line may end after it. -/
  afterReturn : Bool := false

/-- What stands before a line. -/
def Marking.label (s : Marking) : Octets :=
  let digits := Decimal.natText s.number
  List.replicate (6 - digits.length) ' ' ++ digits ++ ['\t']

/-- A character as it is marked. -/
def LineMarks.character (m : LineMarks) (c : Char) : Octets :=
  if m.visible then shownByte m.tabs c
  else if m.tabs && c = '\t' then ['^', 'I']
  else [c]

/-- Marks a character. -/
def LineMarks.mark (m : LineMarks) (s : Marking) (c : Char) : Marking × Octets :=
  let held : Octets := if s.afterReturn then (if c = '\n' then ['^', 'M'] else ['\r']) else []
  let s := { s with afterReturn := false }
  if c = '\n' then
    let isEmpty := s.atStart
    if isEmpty && m.squeezed && s.afterEmpty then (s, held)
    else
      let isNumbered := isEmpty && m.numbered && !m.onlyFull
      ({ s with
          number := if isNumbered then s.number + 1 else s.number
          atStart := true
          afterEmpty := isEmpty },
        held ++ (if isNumbered then s.label else []) ++ (if m.ends then ['$', '\n'] else ['\n']))
  else
    let isNumbered := s.atStart && m.numbered
    let isHeld := c = '\r' && m.ends && !m.visible
    ({ s with
        number := if isNumbered then s.number + 1 else s.number
        atStart := false
        afterReturn := isHeld },
      held ++ (if isNumbered then s.label else []) ++ if isHeld then [] else m.character c)

/-- Marks a text. -/
def LineMarks.markText (m : LineMarks) (s : Marking) (text : Octets) : Marking × Octets :=
  let (s, pieces) := text.foldl (fun (s, pieces) c =>
    let (s, piece) := m.mark s c
    (s, piece :: pieces)) (s, ([] : List Octets))
  (s, pieces.reverse.flatten)

/-- Passes files on with marks, beginning in a state; the code. -/
def markFiles (name : Octets) (m : LineMarks) : Marking → List Octets → Act Nat
  | s, [] => do
    if s.afterReturn then say ['\r']
    return 0
  | s, path :: rest => do
    let passed ← withInput path fun d =>
      iterate (fun (s : Marking) => do
        match ← read d copyBlock with
        | .error e => return .inr (s, some e)
        | .ok [] => return .inr (s, none)
        | .ok block =>
          let (s, text) := m.markText s (Octets.ofBytes block)
          say text
          return .inl s) s
    let (s, fault) := match passed with
      | .ok result => result
      | .error e => (s, some e)
    let code ← match fault with
      | none => pure 0
      | some e => complainOf name (plain path) e
    let later ← markFiles name m s rest
    return max code later

/-- Writes files, or the input, one after the other. -/
def cat : Program := fun name args =>
  let forms := [flag 'n' "number", flag 'b' "number-nonblank", flag 'E' "show-ends",
    flag 'T' "show-tabs", flag 'v' "show-nonprinting", flag 's' "squeeze-blank", flag 'e',
    flag 't', flag 'A' "show-all", flag 'u']
  withOptions name forms 1 args fun o paths => do
    if !(← isOpen 1) then
      noteFault 1 .badDescriptor
      return 1
    let any (keys : List Char) : Bool := keys.any o.has
    let marks : LineMarks := ⟨any ['n', 'b'], o.has 'b', any ['E', 'e', 'A'], any ['T', 't', 'A'],
      any ['v', 'e', 't', 'A'], o.has 's'⟩
    if any ['n', 'b', 'E', 'e', 'A', 'T', 't', 'v', 's'] then
      markFiles name marks {} (pathsOrInput paths)
    else
      eachDescriptor name plain (fun path d => do
        if feedsItself (← look) d then
          return .ok (← complain 1 (name ++ octets ": " ++ plain path
            ++ octets ": input file is output file"))
        return (← copyAll d [1]).map fun () => 0) (pathsOrInput paths)

/-- Opens files to write; those that cannot be opened are complained about. -/
def openTargets (name : Octets) (way : OpenWay) : List Octets → Act (List (Octets × Nat) × Nat)
  | [] => return ([], 0)
  | path :: rest => do
    match ← openFile path way with
    | .ok d =>
      let (ds, code) ← openTargets name way rest
      return ((path, d) :: ds, code)
    | .error e =>
      let _ ← complainOf name (plain path) e
      let (ds, _) ← openTargets name way rest
      return (ds, 1)

/-- Writes the input to the output and to files. -/
def tee : Program := fun name args =>
  withOptions name [flag 'a' "append", flag 'i' "ignore-interrupts", flag 'p'] 1 args
    fun o paths => do
      let (ds, code) ← openTargets name (if o.has 'a' then .toAppend else .toWrite) paths
      let code ← match ← copyAll 0 (1 :: ds.map (·.2)) with
        | .ok () => pure code
        | .error e => complain 1 (name ++ octets ": read error: " ++ octets e.message)
      let codes ← ds.mapM fun (path, d) => do
        match ← fault? d with
        | some e => complainOf name (plain path) e
        | none => return code
      return codes.foldl max code

/-! ### Beginnings and ends -/

/-- Bytes up to and with the given number of line feeds, and how many of these there are. -/
def takeLines (n : Nat) (content : Bytes) : Bytes × Nat :=
  let rec go : Nat → Bytes → Bytes → Bytes × Nat
    | 0, _, done => (done.reverse, 0)
    | _, [], done => (done.reverse, 0)
    | n + 1, b :: rest, done =>
      if b = 10 then
        let (taken, count) := go n rest (b :: done)
        (taken, count + 1)
      else go (n + 1) rest (b :: done)
  go n content []

/-- What is left after the given number of lines. -/
def dropLines : Nat → Bytes → Bytes
  | 0, content => content
  | n + 1, content => dropLines n ((content.dropWhile (· != 10)).drop 1)

/-- The number of lines; what stands after the last line feed is a line unless it is empty. -/
def lineCount (content : Bytes) : Nat :=
  content.count 10 + if content.getLast?.all (· = 10) then 0 else 1

/-- A part of a content: a number of lines or of bytes, which may have a sign. -/
structure Part where
  byBytes : Bool
  sign : Option Char
  number : Nat

/-- The part that a number means. -/
def partOf? (byBytes : Bool) (text : Octets) : Option Part :=
  match text with
  | '+' :: rest => (sizeOf? rest).map (⟨byBytes, some '+', ·⟩)
  | '-' :: rest => (sizeOf? rest).map (⟨byBytes, some '-', ·⟩)
  | _ => (sizeOf? text).map (⟨byBytes, none, ·⟩)

/-- A number written like an option, as an option. -/
def withOldNumber (plus : Bool) (args : List Octets) : List Octets :=
  match args with
  | ('-' :: c :: cs) :: rest =>
    if c.isDigit then
      let digits := (c :: cs).takeWhile Char.isDigit
      match (c :: cs).drop digits.length with
      | [] => ['-', 'n'] :: digits :: rest
      | ['c'] => ['-', 'c'] :: digits :: rest
      | ['q'] => ['-', 'q'] :: ['-', 'n'] :: digits :: rest
      | 'f' :: _ => ['-', 'f'] :: ['-', 'n'] :: digits :: rest
      | _ => args
    else args
  | ('+' :: c :: cs) :: rest =>
    if plus && (c :: cs).all Char.isDigit then ['-', 'n'] :: ('+' :: c :: cs) :: rest else args
  | _ => args

/-- The options of programs that pass on parts. -/
def partForms : List OptionForm :=
  [valued 'n' "lines", valued 'c' "bytes", flag 'q' "quiet", longFlag 'q' "silent",
    flag 'v' "verbose", flag 'f' "follow", flag 'F', valued 's' "sleep-interval",
    longValued 'p' "pid", flag 'z' "zero-terminated"]

/-- Does something with the part that options ask for, ten lines if they do not. -/
def withPart (name : Octets) (o : Options) (act : Part → Act Nat) : Act Nat :=
  let found : Except Octets Part := match o.latest? ['n', 'c'] with
    | some key =>
      let text := (o.last? key).getD []
      match partOf? (key = 'c') text with
      | some part => .ok part
      | none =>
        .error (octets "invalid number of " ++ octets (if key = 'c' then "bytes" else "lines")
          ++ octets ": " ++ quoted (if text.head? = some '-' then text.drop 1 else text))
    | none => .ok ⟨false, none, 10⟩
  match found with
  | .ok part => act part
  | .error message => complain 1 (name ++ octets ": " ++ message)

/-- Writes a part of each file; with several files there is a head line before each part. -/
def eachPart (name : Octets) (o : Options) (part : Part) (act : Nat → Act (Except FileError Unit))
    (paths : List Octets) : Act Nat := do
  let headed := o.has 'v' || (1 < paths.length && !o.has 'q')
  let rec go : Bool → List Octets → Act Nat
    | _, [] => return 0
    | first, path :: rest => do
      let shown := if path = ['-'] then octets "standard input" else path
      let code ← match ← withInput path fun d => do
          if headed then
            say ((if first then [] else ['\n']) ++ octets "==> " ++ shown ++ octets " <==\n")
          act d with
        | .ok (.ok ()) => pure 0
        | .ok (.error e) =>
          let what := if e = .badDescriptor && (name = octets "tail" || part.sign = some '-') then
            ": cannot fstat " else ": error reading "
          complain 1 (name ++ octets what ++ named shown ++ octets ": " ++ octets e.message)
        | .error e =>
          complain 1 (name ++ octets ": cannot open " ++ named path
            ++ octets " for reading: " ++ octets e.message)
      let later ← go (first && code != 0) rest
      return max code later
  go true paths

/-- Passes on so many bytes or lines; a file is left where they end. -/
def passFirst (descriptor : Nat) (part : Part) : Act (Except FileError Unit) :=
  iterate (fun (left : Nat) => do
    if left = 0 then return .inr (.ok ())
    match ← read descriptor (if part.byBytes then min left copyBlock else copyBlock) with
    | .error e => return .inr (.error e)
    | .ok [] => return .inr (.ok ())
    | .ok block =>
      if part.byBytes then
        let _ ← write 1 block
        return .inl (left - block.length)
      else
        let (taken, count) := takeLines left block
        let _ ← write 1 taken
        if count = left then
          match fileOf? (← look) descriptor with
          | some (_, position) => seek descriptor (position - (block.length - taken.length))
          | none => pure ()
        return .inl (left - count)) part.number

/-- Writes the beginnings of files. -/
def head : Program := fun name args =>
  withOptions name partForms 1 (withOldNumber false args) fun o paths =>
    withPart name o fun part =>
      eachPart name o part (fun d => do
        if part.sign = some '-' then
          match ← readAll d with
          | .error e => return .error e
          | .ok content =>
            let _ ← write 1 (if part.byBytes then content.take (content.length - part.number)
              else (takeLines (lineCount content - part.number) content).1)
            return .ok ()
        else passFirst d part) (pathsOrInput paths)

/-- Passes on what comes after so many bytes or lines. -/
def passLast (descriptor : Nat) (part : Part) : Act (Except FileError Unit) :=
  iterate (fun (left : Nat) => do
    if left = 0 then return .inr (← copyAll descriptor [1])
    match ← read descriptor (if part.byBytes then min left copyBlock else copyBlock) with
    | .error e => return .inr (.error e)
    | .ok [] => return .inr (.ok ())
    | .ok block =>
      if part.byBytes then return .inl (left - block.length)
      else
        let (taken, count) := takeLines left block
        let _ ← write 1 (block.drop taken.length)
        return .inl (left - count)) (part.number - 1)

/-- The end of a content. -/
def Part.ofEnd (part : Part) (content : Bytes) : Bytes :=
  match part.byBytes with
  | true => content.drop (content.length - part.number)
  | false => dropLines (lineCount content - part.number) content

/-- Writes the ends of files. -/
def tail : Program := fun name args =>
  withOptions name partForms 1 (withOldNumber true args) fun o paths =>
    withPart name o fun part => do
      let code ← eachPart name o part (fun d => do
        if part.sign = some '+' then return (← passLast d part)
        match ← readAll d with
        | .error e => return .error e
        | .ok content =>
          let _ ← write 1 (part.ofEnd content)
          return .ok ()) (pathsOrInput paths)
      if (o.has 'f' || o.has 'F') && code = 0 then stall else return code

/-- The pieces of a text from the last one to the first: it is cut before each place where a mark
begins, or after each place where it ends. Marks are looked for from the end. -/
def recordsFromEnd (before : Bool) (mark text : Octets) : List Octets :=
  let rec go (piece : Octets) : Nat → Octets → List Octets
    | 0, rest => [rest.reverse ++ piece]
    | _, [] => [piece]
    | n + 1, c :: rest =>
      if !mark.reverse.isPrefixOf (c :: rest) then go (c :: piece) n rest
      else
        let earlier := rest.drop (mark.length - 1)
        if before then (mark ++ piece) :: go [] n earlier else piece :: go mark n earlier
  (go [] text.length text.reverse).filter (!·.isEmpty)

/-- Lines in the opposite order, or what else a mark separates. What is wrong with a file is said
before what is kept back. -/
def tac : Program := fun name args =>
  withOptions name [flag 'b' "before", flag 'r' "regex", valued 's' "separator"] 1 args
    fun o paths => do
      let mark := (o.last? 's').getD ['\n']
      let mark := if mark.isEmpty then ['\x00'] else mark
      let blame (path : Octets) (e : FileError) : Octets :=
        if isReadFault e then
          let shown := if path = ['-'] then quoted (octets "standard input") else plain path
          let why := if e = .isDirectory then "Invalid argument" else e.message
          shown ++ octets (": read error: " ++ why)
        else
          octets "failed to open " ++ named path ++ octets (" for reading: " ++ e.message)
      iterate (fun (paths, (kept : Backlog), code) => do
        match paths with
        | [] =>
          kept.flush
          return .inr code
        | path :: paths =>
          match ← inputContent path with
          | .error e =>
            let code ← complain 1 (name ++ octets ": " ++ blame path e)
            return .inl (paths, kept, code)
          | .ok content =>
            let records := recordsFromEnd (o.has 'b') mark (Octets.ofBytes content)
            return .inl (paths, ← kept.push records.flatten, code))
        (pathsOrInput paths, {}, 0)

/-- Each line backwards. -/
def rev : Program := fun name args =>
  filterLines name ()
    (fun () line ended => ((), line.reverse ++ if ended then ['\n'] else [])) (pathsOrInput args)
    '\n' (fun path _ => octets "cannot open " ++ path) false

/-! ### Measures -/

/-- How many words a content has. -/
def wordCount (content : Bytes) : Nat :=
  (content.foldl (fun (n, inWord) b =>
    let blank := b = 32 || (9 ≤ b && b ≤ 13)
    (if !blank && !inWord then n + 1 else n, !blank)) (0, false)).1

/-- The length of the longest line, counting tabs as they move to the next column of eight. -/
def longestLine (content : Bytes) : Nat :=
  let (longest, last) := content.foldl (fun (longest, current) b =>
    if b = 10 || b = 13 || b = 12 then (max longest current, 0)
    else if b = 9 then (longest, (current / 8 + 1) * 8)
    else if 32 ≤ b && b < 127 then (longest, current + 1)
    else (longest, current)) (0, 0)
  max longest last

/-- The measures of a content that options ask for. -/
def measures (o : Options) (content : Bytes) : List Nat :=
  let all := !(['l', 'w', 'c', 'm', 'L'].any o.has)
  (if all || o.has 'l' then [content.count 10] else [])
    ++ (if all || o.has 'w' then [wordCount content] else [])
    ++ (if o.has 'm' then [content.length] else [])
    ++ (if all || o.has 'c' then [content.length] else [])
    ++ (if o.has 'L' then [longestLine content] else [])

/-- Numbers in columns of the given width. -/
def columns (width : Nat) (numbers : List Nat) : Octets :=
  List.intercalate [' '] (numbers.map fun n =>
    let text := Decimal.natText n
    List.replicate (width - text.length) ' ' ++ text)

/-- The size of what a path leads to, if that is a file; a hyphen is the input. -/
def fileSize? (k : Kernel) (path : Octets) : Option Nat :=
  let n? := if path = ['-'] then (fileOf? k 0).map (·.1)
    else (k.files.find .follow k.here path).toOption
  n?.bind fun n =>
    match k.files.form? n with
    | some (.file content) => some content.length
    | _ => none

/-- The width of the columns for some files. -/
def columnWidth (k : Kernel) (count : Nat) (paths : List Octets) : Nat :=
  if paths.length = 1 && (count = 1 || (paths = [['-']] && (k.streamOf? 0).isNone)) then 1
  else
    let exists? (path : Octets) := path = ['-'] || (k.files.nodeAt? .follow k.here path).isSome
    let found := paths.filter exists?
    let width := (Decimal.natText ((found.filterMap (fileSize? k)).foldl (· + ·) 0)).length
    if found.any fun path => (fileSize? k path).isNone then max 7 width else width

/-- Writes the measures of files. -/
def wc : Program := fun name args =>
  let forms := [flag 'l' "lines", flag 'w' "words", flag 'c' "bytes", flag 'm' "chars",
    flag 'L' "max-line-length", longValued 'T' "total"]
  let whens := [["auto"], ["always"], ["only"], ["never"]]
  withOptions name forms 1 args fun o operands => do
    let totals ← match chosen "--total" whens ((o.last? 'T').getD (octets "auto")) with
      | .ok n => pure n
      | .error message => return (← misuse name 1 message)
    let paths := pathsOrInput operands
    let k ← look
    let count := (measures o []).length
    let width := if totals = 2 then 1 else columnWidth k count paths
    let line (numbers : List Nat) (label : Octets) : Act Unit :=
      sayLine (columns width numbers ++ if label.isEmpty then [] else ' ' :: label)
    let rec go : List Octets → List Nat → Act (Nat × List Nat)
      | [], total => return (0, total)
      | path :: rest, total => do
        let label := if operands.isEmpty then [] else path
        let (code, numbers) : Nat × Option (List Nat) ← match ← inputContent path with
          | .ok content => pure (0, some (measures o content))
          | .error e => do
            let shown := if operands.isEmpty then quoted (octets "standard input") else plain path
            let code ← complainOf name shown e
            let isEmpty := e = .isDirectory || e = .badDescriptor
            pure (code, if isEmpty then some (measures o []) else none)
        match numbers with
        | some ns => if totals != 2 then line ns label
        | none => pure ()
        let ns := numbers.getD []
        let total := if ns.isEmpty then total
          else (ns.zip total).zipIdx.map fun ((a, b), i) =>
            if o.has 'L' && i + 1 = count then max a b else a + b
        let (later, total) ← go rest total
        return (max code later, total)
    let (code, total) ← go paths (List.replicate count 0)
    if totals = 2 then line total []
    else if totals = 1 || (totals = 0 && 1 < paths.length) then line total (octets "total")
    return code

/-! ### Sources -/

/-- A decimal number as a whole number and the places after its point. -/
def decimal? (text : Octets) : Option (Int × Nat) :=
  let (negative, body) := match text with
    | '-' :: rest => (true, rest)
    | '+' :: rest => (false, rest)
    | _ => (false, text)
  let whole := body.takeWhile Char.isDigit
  let rest := body.drop whole.length
  let places := match rest with
    | '.' :: rest => rest.takeWhile Char.isDigit
    | _ => []
  let rest := match rest with
    | '.' :: rest => rest.drop places.length
    | _ => rest
  let power? : Option Int := match rest with
    | [] => some 0
    | e :: digits => if e = 'e' || e = 'E' then intOf? digits else none
  match power?, natOf? (whole ++ places) with
  | some power, some n =>
    let n : Int := if negative then -(n : Int) else n
    match power - places.length with
    | .ofNat k => some (n * (Nat.pow 10 (min k 400) : Nat), 0)
    | .negSucc k => some (n, k + 1)
  | _, _ => none

/-- A whole number with a point before its last digits. -/
def withPlaces (places : Nat) (n : Int) : Octets :=
  let digits := Decimal.natText n.natAbs
  let digits := List.replicate (places + 1 - digits.length) '0' ++ digits
  let k := digits.length - places
  (if n < 0 then ['-'] else []) ++
    if places = 0 then digits else digits.take k ++ '.' :: digits.drop k

/-- Fills a number up with zeros behind its sign. -/
def zeroFill (width : Nat) (text : Octets) : Octets :=
  match text with
  | '-' :: digits => '-' :: List.replicate (width - text.length) '0' ++ digits
  | _ => List.replicate (width - text.length) '0' ++ text

/-- How many numbers there are from one to another by steps. -/
def countBetween (first step last : Int) : Nat :=
  if step = 0 || (0 < step && last < first) || (step < 0 && first < last) then 0
  else ((last - first) / step + 1).toNat

/-- Writes the numbers from a first one to a last one. -/
def seq : Program := fun name args => do
  let isNumber (a : Octets) : Bool := (decimal? a).isSome
  let options := args.takeWhile (!isNumber ·)
  let forms := [valued 's' "separator", flag 'w' "equal-width", valued 'f' "format"]
  match readOptions forms true args with
  | .error message =>
    if options.isEmpty then numbers name [] args else misuse name 1 message
  | .ok (o, operands) =>
    if options.isEmpty then numbers name [] args else numbers name o operands
where
  /-- Writes the numbers that operands say. -/
  numbers (name : Octets) (o : Options) (operands : List Octets) : Act Nat := do
    match operands.find? fun a => (decimal? a).isNone with
    | some a => misuse name 1 (octets "invalid floating point argument: " ++ quoted a)
    | none =>
      let values := operands.filterMap decimal?
      let triple? := match values with
        | [last] => some ((1, 0), (1, 0), last)
        | [first, last] => some (first, (1, 0), last)
        | [first, step, last] => some (first, step, last)
        | _ => none
      match triple?, operands with
      | none, [] => misuse name 1 (octets "missing operand")
      | none, _ => misuse name 1 (octets "extra operand " ++ quoted (operands[3]?.getD []))
      | some (first, step, last), _ =>
        if step.1 = 0 then
          misuse name 1 (octets "invalid Zero increment value: "
            ++ quoted (operands[1]?.getD []))
        else
          let places := max first.2 step.2
          let inner := max places last.2
          let scaled (v : Int × Nat) : Int := v.1 * (Nat.pow 10 (inner - v.2) : Nat)
          let first := scaled first
          let step := scaled step
          let count := countBetween first step (scaled last)
          let text (i : Nat) : Octets :=
            withPlaces places ((first + step * (i : Int)) / (Nat.pow 10 (inner - places) : Nat))
          -- The widest of them is at one of the ends.
          let width := max (text 0).length (text (count - 1)).length
          let shown (i : Nat) : Octets :=
            let t := if o.has 'w' then zeroFill width (text i) else text i
            match o.last? 'f' with
            | some format => (printf true format [t]).1
            | none => t
          let separator := (o.last? 's').getD ['\n']
          iterate (fun (i, (kept : Backlog)) => do
            if count ≤ i then
              kept.flush
              return .inr 0
            else
              let ending := if i + 1 = count then ['\n'] else separator
              return .inl (i + 1, ← kept.push (shown i ++ ending))) (0, {})

/-- Writes a line again and again. -/
def yes : Program := fun name args => do
  if let .error message := readOptions [] true args then return (← misuse name 1 message)
  let line := if args.isEmpty then ['y'] else List.intercalate [' '] args
  let block := (List.replicate (max 1 (1024 / (line.length + 1))) (line ++ ['\n'])).flatten
  let bytes := Octets.bytes block
  iterate (fun () => do
    match ← write 1 bytes with
    | .ok () => return .inl ()
    | .error _ => return .inr 1) ()

end MutationTesting.Tool
