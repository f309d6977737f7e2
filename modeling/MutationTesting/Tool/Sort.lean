import MutationTesting.Tool.Field
/-!
# Sorting

The program `sort`: the lines of files in order, by keys if so said. A key is a part of a line, and
the order of keys may be that of numbers; lines with equal keys are ordered as a whole.

## Main definitions

* `SortKey`, `SortForm`, `sort`
* `compareVersions` — the order of names with numbers in them
-/

namespace MutationTesting.Tool

open Act

/-! ### Orders -/

/-- The order of two texts. -/
def compareTexts (a b : Octets) : Ordering :=
  if a = b then .eq else if a < b then .lt else .gt

/-- A text without the blanks at its beginning. -/
def withoutBlanks (text : Octets) : Octets :=
  text.dropWhile fun c => c = ' ' || c = '\t' || c = '\n'

/-- A number written in digits, possibly with a sign and a point: its sign, and its digits before
and after the point. What is no number is zero. -/
def decimalParts (text : Octets) : Bool × Octets × Octets :=
  let text := withoutBlanks text
  let (negative, body) := match text with
    | '-' :: rest => (true, rest)
    | _ => (false, text)
  let whole := body.takeWhile Char.isDigit
  let places := match body.drop whole.length with
    | '.' :: rest => rest.takeWhile Char.isDigit
    | _ => []
  (negative, whole, places)

/-- The order of the numbers at the beginnings of two texts. -/
def compareNumbers (a b : Octets) : Ordering :=
  let (m, whole, places) := decimalParts a
  let (n, whole', places') := decimalParts b
  let count := max places.length places'.length
  let value (negative : Bool) (whole places : Octets) : Int :=
    let digits := whole ++ places ++ List.replicate (count - places.length) '0'
    let n := Decimal.ofDigits (digits.filterMap Decimal.digitValue?)
    if negative then -(n : Int) else n
  compare (value m whole places) (value n whole' places')

/-- The letters of units, each a thousand times the one before. -/
def unitLetters : List Char := ['K', 'M', 'G', 'T', 'P', 'E', 'Z', 'Y', 'R', 'Q']

/-- The rank of the unit behind the number at the beginning of a text, unless this is zero. -/
def unitRank (text : Octets) : Int :=
  let (negative, whole, places) := decimalParts text
  let body := (withoutBlanks text).drop (if negative then 1 else 0)
  let rest := (body.drop whole.length).drop (if places.isEmpty then 0 else places.length + 1)
  if (whole ++ places).all (· = '0') then 0
  else
    let rank : Nat := match rest.head? with
      | some 'k' => 1
      | some c => ((unitLetters.findIdx? (· = c)).map (fun i => i + 1)).getD 0
      | none => 0
    if negative then -(rank : Int) else rank

/-- A number as it is written in any way: what is no number comes first, then what is said not to be
one, then numbers in their order. -/
inductive AnyNumber where
  | nothing
  | notANumber
  | infinite (negative : Bool)
  /-- A fraction. -/
  | finite (numerator : Int) (denominator : Nat)

/-- Powers of ten beyond this are not told apart. -/
def powerLimit : Nat := 5000

/-- The number with which a text begins, in decimal or hexadecimal digits. -/
def AnyNumber.ofText (text : Octets) : AnyNumber :=
  let text := text.dropWhile fun c => c = ' ' || ('\t' ≤ c && c ≤ '\r')
  let (negative, body) := match text with
    | '-' :: rest => (true, rest)
    | '+' :: rest => (false, rest)
    | _ => (false, text)
  let lower := body.map Char.toLower
  let hexDigit (c : Char) : Option Nat :=
    (Decimal.digitValue? c).orElse fun _ =>
      if 'a' ≤ c && c ≤ 'f' then some (c.toNat - 87) else none
  let read (base : Nat) (digit : Char → Option Nat) (mark : Char) (step : Nat)
      (digits : Octets) : AnyNumber :=
    let isDigit (c : Char) := (digit c).isSome
    let whole := digits.takeWhile isDigit
    let rest := digits.drop whole.length
    let places := match rest with
      | '.' :: more => more.takeWhile isDigit
      | _ => []
    let rest := match rest with
      | '.' :: more => more.drop places.length
      | _ => rest
    if (whole ++ places).isEmpty then .nothing
    else
      let n := ((whole ++ places).filterMap digit).foldl (fun n d => n * base + d) 0
      let power : Int := match rest with
        | c :: '-' :: more =>
          if c = mark then -((natOf? (more.takeWhile Char.isDigit)).getD 0 : Int) else 0
        | c :: '+' :: more =>
          if c = mark then ((natOf? (more.takeWhile Char.isDigit)).getD 0 : Int) else 0
        | c :: more =>
          if c = mark then ((natOf? (more.takeWhile Char.isDigit)).getD 0 : Int) else 0
        | [] => 0
      let scale := Nat.pow step (min powerLimit power.natAbs)
      let n := if power < 0 then n else n * scale
      .finite (if negative then -(n : Int) else n)
        (Nat.pow base places.length * if power < 0 then scale else 1)
  if (octets "inf").isPrefixOf lower then .infinite negative
  else if (octets "nan").isPrefixOf lower then .notANumber
  else
    match lower with
    | '0' :: 'x' :: digits =>
      match read 16 hexDigit 'p' 2 digits with
      | .nothing => .finite 0 1
      | n => n
    | _ => read 10 Decimal.digitValue? 'e' 10 lower

/-- The order of numbers. -/
def AnyNumber.compare (a b : AnyNumber) : Ordering :=
  let rank : AnyNumber → Nat
    | .nothing => 0
    | .notANumber => 1
    | .infinite true => 2
    | .finite .. => 3
    | .infinite false => 4
  match a, b with
  | .finite m d, .finite n e => Ord.compare (m * e) (n * d)
  | _, _ => Ord.compare (rank a) (rank b)

/-- The number of the month that a text begins with, zero if there is none. -/
def monthRank (text : Octets) : Nat :=
  let text := (withoutBlanks text).take 3 |>.map Char.toUpper
  let months := ["JAN", "FEB", "MAR", "APR", "MAY", "JUN", "JUL", "AUG", "SEP", "OCT", "NOV", "DEC"]
  match months.findIdx? (·.toList = text) with
  | some i => i + 1
  | none => 0

/-! ### Versions -/

/-- The rank of the next character of a version, or of its end. -/
def versionRank : Octets → Int
  | [] => -1
  | c :: _ =>
    if c.isDigit then 0
    else if c.isAlpha then c.toNat
    else if c = '~' then -2
    else c.toNat + 256

/-- The order of two texts in which runs of digits count as numbers. The first argument is at least
the length of both together. -/
def compareRuns : Nat → Octets → Octets → Ordering
  | 0, _, _ | _, [], [] => .eq
  | n + 1, a, b =>
    let isDigit (text : Octets) : Bool := text.head?.any Char.isDigit
    if (a.isEmpty || isDigit a) && (b.isEmpty || isDigit b) then
      let a := a.dropWhile (· = '0')
      let b := b.dropWhile (· = '0')
      let x := a.takeWhile Char.isDigit
      let y := b.takeWhile Char.isDigit
      match (compare x.length y.length).then (compareTexts x y) with
      | .eq => compareRuns n (a.drop x.length) (b.drop y.length)
      | o => o
    else
      match compare (versionRank a) (versionRank b) with
      | .eq => compareRuns n (a.drop 1) (b.drop 1)
      | o => o

/-- The beginning of a name before its endings, each of which is a point and a word. -/
def versionStem (name : Octets) : Octets :=
  let isWord (piece : Octets) : Bool :=
    piece.head?.any (fun c => c.isAlpha || c = '~') && piece.all fun c => c.isAlphanum || c = '~'
  match splitAt '.' name with
  | [] => []
  | first :: pieces =>
    let endings := (pieces.reverse.takeWhile isWord).length
    if first.isEmpty && endings = pieces.length then
      -- A point at the beginning begins no ending.
      List.intercalate ['.'] (first :: pieces.take 1)
    else List.intercalate ['.'] (first :: pieces.take (pieces.length - endings))

/-- The order of two names as versions. Hidden names come first; endings count only between names
that are the same without them. -/
def compareVersions (a b : Octets) : Ordering :=
  let rank : Octets → Nat
    | [] => 0
    | ['.'] => 1
    | ['.', '.'] => 2
    | '.' :: _ => 3
    | _ => 4
  let runs (a b : Octets) : Ordering := compareRuns (a.length + b.length + 1) a b
  if rank a != rank b || rank a < 3 then compare (rank a) (rank b)
  else (runs (versionStem a) (versionStem b)).then (runs a b)

/-! ### Keys -/

/-- What is compared of keys. -/
inductive KeyOrder where
  | text
  | numeric
  | general
  | human
  | month
  | version
  deriving DecidableEq

/-- How keys are compared, by the letters of options. -/
structure SortManner where
  letters : Octets

namespace SortManner

/-- A letter was said. -/
def has (m : SortManner) (letter : Char) : Bool := m.letters.contains letter

/-- What is compared. -/
def order (m : SortManner) : KeyOrder :=
  if m.has 'n' then .numeric
  else if m.has 'g' then .general
  else if m.has 'h' then .human
  else if m.has 'M' then .month
  else if m.has 'V' then .version
  else .text

/-- Nothing but the direction was said. -/
def isPlain (m : SortManner) : Bool := m.letters.all (· = 'r')

/-- The letters that do not go together, in the order in which they are shown. -/
def clash? (m : SortManner) : Option Octets :=
  let kinds := (['n', 'g', 'h', 'M'].filter m.has).length
    + if ['V', 'R', 'd', 'i'].any m.has then 1 else 0
  let shown := if m.has 'd' then m.letters.filter (· != 'i') else m.letters
  if 1 < kinds then some ("dfghiMnRV".toList.filter shown.contains) else none

/-- The order of two keys. -/
def compare (m : SortManner) (a b : Octets) : Ordering :=
  let order := match m.order with
    | .numeric => compareNumbers a b
    | .general => (AnyNumber.ofText a).compare (.ofText b)
    | .human => (Ord.compare (unitRank a) (unitRank b)).then (compareNumbers a b)
    | .month => Ord.compare (monthRank a) (monthRank b)
    | .version => compareVersions a b
    | .text =>
      let view (text : Octets) : Octets :=
        let text :=
          if m.has 'd' then text.filter fun c => c.isAlphanum || c = ' ' || c = '\t' || c = '\n'
          else if m.has 'i' then text.filter fun c => ' ' ≤ c && c ≤ '~'
          else text
        if m.has 'f' then text.map Char.toUpper else text
      compareTexts (view a) (view b)
  if m.has 'r' then order.swap else order

end SortManner

/-- A part of lines by which they are sorted: from a character of a field up to one of a field, all
counted from nothing on. -/
structure SortKey where
  start : Nat × Nat
  /-- A field, and as many of its characters; nothing stands for all of them. -/
  stop : Option (Nat × Nat)
  /-- Blanks at the beginning of the first and of the last field do not count. -/
  skips : Bool × Bool
  manner : SortManner

/-- A number at the beginning of a text, and what follows. -/
def countAt (what : String) (text : Octets) : Except Octets (Nat × Octets) :=
  let digits := text.takeWhile Char.isDigit
  match natOf? digits with
  | some n => .ok (n, text.drop digits.length)
  | none =>
    .error (octets (what ++ ": invalid count at start of ") ++ quoted text)

/-- The letters of a manner at the beginning of a text, and what follows. -/
def mannerAt (text : Octets) : Octets × Octets :=
  let letters := text.takeWhile "bdfghiMnRrV".toList.contains
  (letters, text.drop letters.length)

/-- The key that a text means; without letters of its own it has the manner of the whole. -/
def sortKey (whole : Octets) (text : Octets) : Except Octets SortKey := do
  let fault {α : Type} (what : String) : Except Octets α :=
    .error (octets (what ++ ": invalid field specification ") ++ quoted text)
  let (field, rest) ← countAt "invalid number at field start" text
  if field = 0 then fault "field number is zero"
  let (character, rest) ← match rest with
    | '.' :: more => do
      let (n, rest) ← countAt "invalid number after '.'" more
      if n = 0 then fault "character offset is zero"
      pure (n - 1, rest)
    | _ => pure (0, rest)
  let (letters, rest) := mannerAt rest
  let (stop, moreLetters, rest) ← match rest with
    | ',' :: more => do
      let (field, rest) ← countAt "invalid number after ','" more
      if field = 0 then fault "field number is zero"
      let (character, rest) ← match rest with
        | '.' :: more => countAt "invalid number after '.'" more
        | _ => pure (0, rest)
      let (letters, rest) := mannerAt rest
      pure (some (field - 1, character), letters, rest)
    | _ => pure (none, [], rest)
  if !rest.isEmpty then fault "stray character in field spec"
  let own := letters ++ moreLetters
  let skips := if own.isEmpty then (whole.contains 'b', whole.contains 'b')
    else (letters.contains 'b', moreLetters.contains 'b')
  return ⟨(field - 1, character), stop, skips, ⟨if own.isEmpty then whole else own⟩⟩

/-- What follows in a line after some fields: each has the blanks before it, unless a separator is
given. -/
def afterFields (separator : Option Char) : Nat → Octets → Octets
  | 0, line => line
  | n + 1, line =>
    afterFields separator n (match separator with
      | some c => (line.dropWhile (· != c)).drop 1
      | none =>
        let isBlank (c : Char) := c = ' ' || c = '\t' || c = '\n'
        (line.dropWhile isBlank).dropWhile (!isBlank ·))

/-- The part of a line that a key means. -/
def SortKey.part (key : SortKey) (separator : Option Char) (line : Octets) : Octets :=
  let size := line.length
  let skip (skips : Bool) (rest : Octets) : Octets := if skips then withoutBlanks rest else rest
  let start := (skip key.skips.1 (afterFields separator key.start.1 line)).drop key.start.2
  let stop := match key.stop with
    | none => size
    | some (field, 0) =>
      let rest := afterFields separator field line
      size - (match separator with
        | some c => rest.dropWhile (· != c)
        | none => afterFields none 1 rest).length
    | some (field, count) =>
      size - ((skip key.skips.2 (afterFields separator field line)).drop count).length
  start.take (stop - (size - start.length))

/-! ### Sorting -/

/-- How lines are sorted. -/
structure SortForm where
  separator : Option Char
  keys : List SortKey
  /-- Lines with equal keys stay as they are. -/
  stable : Bool
  /-- Of lines with equal keys only the first one stays. -/
  unique : Bool
  reversed : Bool
  ending : Char

/-- A line with its keys. -/
structure KeyedLine where
  text : Octets
  parts : List Octets

namespace SortForm

/-- A line with its keys. -/
def keyed (f : SortForm) (text : Octets) : KeyedLine :=
  ⟨text, f.keys.map (·.part f.separator text)⟩

/-- The order of two lines by keys, the first one that differs counting. -/
def compareKeys (f : SortForm) (a b : KeyedLine) : Ordering :=
  ((f.keys.zip (a.parts.zip b.parts))).foldl (fun order (key, x, y) =>
    match order with
    | .eq => key.manner.compare x y
    | o => o) .eq

/-- The order of two lines. -/
def compare (f : SortForm) (a b : KeyedLine) : Ordering :=
  match f.compareKeys a b with
  | .eq =>
    if !f.keys.isEmpty && (f.stable || f.unique) then .eq
    else if f.reversed then (compareTexts a.text b.text).swap else compareTexts a.text b.text
  | order => order

/-- The first of lines that follow each other and are equal. -/
def firsts (f : SortForm) : List KeyedLine → List KeyedLine
  | a :: b :: rest =>
    if f.compare a b = .eq then firsts f (a :: rest) else a :: firsts f (b :: rest)
  | lines => lines
termination_by lines => lines.length

/-- The first line that stands before one that it should follow, with its number. -/
def disorder? (f : SortForm) : Nat → List KeyedLine → Option (Nat × Octets)
  | n, a :: b :: rest =>
    let order := f.compare a b
    if order = .gt || (f.unique && order = .eq) then some (n + 1, b.text)
    else disorder? f (n + 1) (b :: rest)
  | _, _ => none

/-- Lines of several files, of whose next lines the first one in order is taken again and again. The
first argument is at least the number of lines. -/
def merge (f : SortForm) : Nat → List (List KeyedLine) → List KeyedLine
  | 0, _ => []
  | n + 1, files =>
    let next? := (files.zipIdx).foldl (fun (best : Option (KeyedLine × Nat)) (file, i) =>
      match file, best with
      | [], _ => best
      | line :: _, none => some (line, i)
      | line :: _, some (other, _) => if f.compare line other = .lt then some (line, i) else best)
      none
    match next? with
    | none => []
    | some (line, i) => line :: merge f n (files.modify i (·.drop 1))

/-- The lines of several files in order. -/
def sorted (f : SortForm) (merges : Bool) (files : List (List KeyedLine)) : List KeyedLine :=
  let lines := if merges then f.merge ((files.map (·.length)).foldl (· + ·) 1) files
    else files.flatten.mergeSort fun a b => f.compare a b != .gt
  if f.unique then f.firsts lines else lines

/-- The names of orders, and their letters. -/
def orderNames : List (String × Char) :=
  [("general-numeric", 'g'), ("human-numeric", 'h'), ("month", 'M'), ("numeric", 'n'),
    ("random", 'R'), ("version", 'V')]

/-- Options in which words are letters, or what is wrong with a word. -/
def inLetters : Options → Except Octets Options
  | [] => .ok []
  | ('J', word) :: rest => do
    let i ← chosen "--sort" (orderNames.map fun (name, _) => [name]) word
    return ((orderNames[i]?.map (·.2)).getD 'n', []) :: (← inLetters rest)
  | ('K', word) :: rest => do
    if word.isEmpty then return ('c', []) :: (← inLetters rest)
    else
      let i ← chosen "--check" [["quiet", "silent"], ["diagnose-first"]] word
      return (if i = 0 then 'C' else 'c', []) :: (← inLetters rest)
  | option :: rest => do return option :: (← inLetters rest)

/-- What options say, or what is wrong with them. -/
def ofOptions (o : Options) : Except Octets SortForm := do
  let whole := (o.map (·.1)).filter "bdfghiMnRrV".toList.contains
  let tabs ← (o.every 't').mapM fun text => do
    match text with
    | [] => .error (octets "empty tab")
    | [c] => pure c
    | _ =>
      if text = ['\\', '0'] then pure '\x00'
      else .error (octets "multi-character tab " ++ quoted text)
  if 1 < tabs.eraseDups.length then throw (octets "incompatible tabs")
  if 1 < (o.every 'o').eraseDups.length then throw (octets "multiple output files specified")
  let given ← (o.every 'k').mapM (sortKey whole)
  let manner : SortManner := ⟨whole⟩
  let keys := if given.isEmpty && !manner.isPlain then
      [⟨(0, 0), none, (whole.contains 'b', whole.contains 'b'), manner⟩]
    else given
  if let some letters := keys.findSome? (·.manner.clash?) then
    throw (octets "options '-" ++ letters ++ octets "' are incompatible")
  if o.has 'c' && o.has 'C' then throw (octets "options '-cC' are incompatible")
  return ⟨tabs.head?, keys, o.has 's', o.has 'u', whole.contains 'r',
    if o.has 'z' then '\x00' else '\n'⟩

end SortForm

/-- The options of sorting. -/
def sortForms : List OptionForm :=
  [flag 'r' "reverse", flag 'n' "numeric-sort", flag 'u' "unique", valued 'k' "key",
    valued 't' "field-separator", flag 'f' "ignore-case", flag 'b' "ignore-leading-blanks",
    valued 'o' "output", flag 'c', longExtended 'K' "check", flag 'C', flag 's' "stable",
    flag 'z' "zero-terminated", flag 'h' "human-numeric-sort", flag 'V' "version-sort",
    flag 'g' "general-numeric-sort", flag 'd' "dictionary-order", flag 'i' "ignore-nonprinting",
    flag 'm' "merge", flag 'M' "month-sort", flag 'R' "random-sort", longValued 'J' "sort",
    valued 'S' "buffer-size", valued 'T' "temporary-directory", longValued 'P' "parallel",
    longValued 'B' "batch-size", longValued 'X' "random-source", flag 'y']

/-- A position in old writing: how many fields and characters come before it, and letters. -/
def oldPosition? (text : Octets) : Option (Nat × Nat × Octets) := do
  let fields := text.takeWhile Char.isDigit
  let (characters, letters) := match text.drop fields.length with
    | '.' :: rest => (rest.takeWhile Char.isDigit, rest.dropWhile Char.isDigit)
    | rest => (['0'], rest)
  if letters.all "bdfghiMnrVR".toList.contains then
    return (← natOf? fields, ← natOf? characters, letters)
  else none

/-- The beginning of a key in old writing. -/
def oldStart? : Octets → Option Octets
  | '+' :: text => do
    let (fields, characters, letters) ← oldPosition? text
    return Decimal.natText (fields + 1) ++ '.' :: Decimal.natText (characters + 1) ++ letters
  | _ => none

/-- The end of a key in old writing. -/
def oldStop? : Octets → Option Octets
  | '-' :: text => do
    let (fields, characters, letters) ← oldPosition? text
    if characters = 0 then return Decimal.natText fields ++ letters
    else return Decimal.natText (fields + 1) ++ '.' :: Decimal.natText characters ++ letters
  | _ => none

/-- Arguments with keys in old writing as options. -/
def withOldKeys : List Octets → List Octets
  | [] => []
  | [word] =>
    match oldStart? word with
    | some start => [octets "-k", start]
    | none => [word]
  | ['-', '-'] :: next :: rest => ['-', '-'] :: next :: rest
  | word :: next :: rest =>
    match oldStart? word, oldStop? next with
    | some start, some stop => octets "-k" :: (start ++ ',' :: stop) :: withOldKeys rest
    | some start, none => octets "-k" :: start :: withOldKeys (next :: rest)
    | none, _ => word :: withOldKeys (next :: rest)

/-- Sorts the lines of files, or checks whether they are in order. -/
def sortFiles (name : Octets) (o : Options) (f : SortForm) (paths : List Octets) : Act Nat := do
  let checks := o.has 'c' || o.has 'C'
  let fail (what : String) (path : Octets) (e : FileError) : Act Nat :=
    complain 2 (name ++ octets (": " ++ what ++ ": ") ++ plain path ++ octets (": " ++ e.message))
  let rec contents : List Octets → List (List KeyedLine) →
      Act (Except Nat (List (List KeyedLine)))
    | [], done => return .ok done.reverse
    | path :: rest, done => do
      match ← inputContent path with
      | .ok content =>
        contents rest ((piecesOf f.ending (Octets.ofBytes content)).map f.keyed :: done)
      | .error .isDirectory => return .error (← fail "read failed" path .isDirectory)
      | .error .badDescriptor =>
        return .error (← fail (if checks then "read failed" else "stat failed") path
          .badDescriptor)
      | .error e => return .error (← fail (if checks then "open failed" else "cannot read") path e)
  let k ← look
  -- All files are looked at before any is read.
  let missing? := if checks then none
    else paths.findSome? fun path =>
      match k.files.find .follow k.here path with
      | .error e => if path = ['-'] then none else some (path, e)
      | .ok _ => none
  match missing?, o.last? 'o' with
  | some (path, e), _ => fail "cannot read" path e
  | none, output =>
    -- The output is opened before anything is read, but its content stays as long as that.
    let opened ← match output with
      | none => pure (.ok 1)
      | some path =>
        if checks then pure (.ok 1)
        else do
          pure ((← openFile path { OpenWay.toWrite with empties := false }).mapError
            fun e => (path, e))
    match opened with
    | .error (path, e) => fail "open failed" path e
    | .ok target =>
      match ← contents paths [] with
      | .error code => return code
      | .ok files =>
        if checks then
          match f.disorder? 1 files.flatten with
          | none => return 0
          | some (n, line) =>
            if o.has 'C' then return 1
            else
              complain 1 (name ++ octets ": " ++ (paths.headD ['-']) ++ octets ":"
                ++ Decimal.natText n ++ octets ": disorder: " ++ line)
        else
          let text := (f.sorted (o.has 'm') files).flatMap fun line => line.text ++ [f.ending]
          if let some (n, _) := fileOf? (← look) target then
            if output.isSome then change fun k => { k with files := k.files.setContent n [] }
          put target text
          return 0

/-- Writes the lines of files in order. -/
def sort : Program := fun name args =>
  withOptions name sortForms 2 (withOldKeys args) fun o paths => do
    match SortForm.inLetters o with
    | .error message => misuse name 1 message
    | .ok o =>
      let refuse (message : Octets) : Act Nat := complain 2 (name ++ octets ": " ++ message)
      match SortForm.ofOptions o with
      | .error message => refuse message
      | .ok f =>
        let check := if o.has 'c' then ['c'] else if o.has 'C' then ['C'] else []
        match check, paths with
        | [letter], _ :: extra :: _ =>
          refuse (octets "extra operand " ++ quoted extra ++ octets " not allowed with -"
            ++ [letter])
        | [letter], _ =>
          if Options.has o 'o' then
            refuse (octets "options '-" ++ [letter] ++ octets "o' are incompatible")
          else sortFiles name o f (pathsOrInput paths)
        | _, _ => sortFiles name o f (pathsOrInput paths)

end MutationTesting.Tool
