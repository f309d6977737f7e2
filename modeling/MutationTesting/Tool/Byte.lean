import MutationTesting.Shell.Formula
import MutationTesting.Text.CharSet
import MutationTesting.Tool.Print
import MutationTesting.Tool.Stream
/-!
# Bytes

The programs that work on bytes, whatever lines they are in: `tr` replaces them, `od` shows their
numbers, `base64` writes six bits at a time.
-/

namespace MutationTesting.Tool

open Act

/-! ### Replacing -/

/-- A part of a set of bytes as it is written. -/
inductive SetPart where
  | bytes (bs : Bytes)
  /-- A named class. -/
  | named (name : Octets) (bs : Bytes)
  /-- A byte as often as said, or as often as is needed. -/
  | repeated (b : UInt8) (count : Option Nat)

/-- The character at the beginning of the writing of a set, and what follows. -/
def setCharacter (text : Octets) : Option (Char × Octets) :=
  match text with
  | [] => none
  | '\\' :: rest =>
    match escape? {} rest with
    | some ([c], rest) => some (c, rest)
    | some (_, rest') => some (rest.headD '\\', if rest.isEmpty then [] else rest')
    | none => some ('\\', rest)
  | c :: rest => some (c, rest)

/-- All bytes of a kind. -/
def bytesWhere (p : Char → Bool) : Bytes :=
  ((List.range 256).filter fun n => p (Char.ofNat n)).map UInt8.ofNat

/-- The bytes from one to another. -/
def bytesBetween (a b : Char) : Except Octets SetPart :=
  if b < a then
    .error (octets "range-endpoints of '" ++ [a, '-', b]
      ++ octets "' are in reverse collating sequence order")
  else .ok (.bytes ((List.range (b.toNat + 1 - a.toNat)).map fun i => UInt8.ofNat (a.toNat + i)))

/-- What stands between brackets with a mark inside them, such as `[:alpha:]`, and what follows. -/
def bracketed? (mark : Char) (text : Octets) : Option (Octets × Octets) :=
  (List.range text.length).findSome? fun n =>
    if (text.drop n).take 2 = [mark, ']'] then some (text.take n, text.drop (n + 2)) else none

/-- A byte and how often it is repeated, as it is written after an opening bracket, and what
follows. -/
def repetition? (text : Octets) : Option (SetPart × Octets) := do
  let (c, rest) ← setCharacter text
  let more ← match rest with
    | '*' :: more => some more
    | _ => none
  let digits := more.takeWhile Char.isDigit
  match more.drop digits.length with
  | ']' :: rest =>
    let count := if digits.head? = some '0' then Shell.digitsIn? 8 digits else natOf? digits
    some (.repeated (Octets.byte c) (count.filter (· != 0)), rest)
  | _ => none

/-- The class that is written after an opening bracket, and what follows. -/
def setClass? (text : Octets) : Option (Except Octets SetPart × Octets) :=
  match text with
  | ':' :: rest => do
    let (name, rest) ← bracketed? ':' rest
    match CharSet.named? name with
    | some p => some (.ok (.named name (bytesWhere p)), rest)
    | none => some (.error (octets "invalid character class " ++ quoted name), rest)
  | '=' :: rest => do
    let (cs, rest) ← bracketed? '=' rest
    match cs with
    | [c] => some (.ok (.bytes [Octets.byte c]), rest)
    | _ =>
      some (.error (cs ++ octets ": equivalence class operand must be a single character"), rest)
  | _ => none

/-- The parts of a set of bytes as it is written. A first argument above its length is enough. -/
def setParts : Nat → Octets → Except Octets (List SetPart)
  | 0, _ => .ok []
  | n + 1, text =>
    let special : Option (Except Octets SetPart × Octets) := match text with
      | '[' :: rest =>
        (setClass? rest).orElse fun _ => (repetition? rest).map fun (part, rest) => (.ok part, rest)
      | _ => none
    match special with
    | some (part, rest) => do return (← part) :: (← setParts n rest)
    | none =>
      match setCharacter text with
      | none => .ok []
      | some (a, '-' :: more) =>
        match setCharacter more with
        | some (b, after) => do return (← bytesBetween a b) :: (← setParts n after)
        | none => .ok [.bytes [Octets.byte a, 45]]
      | some (a, rest) => do return .bytes [Octets.byte a] :: (← setParts n rest)

/-- How many bytes a part has for certain. -/
def SetPart.size : SetPart → Nat
  | .bytes bs | .named _ bs => bs.length
  | .repeated _ count => count.getD 0

/-- The bytes of a set that is to have a size. -/
def setBytes (size : Nat) (parts : List SetPart) : Bytes :=
  let fixed := (parts.map SetPart.size).foldl (· + ·) 0
  parts.flatMap fun
    | .bytes bs | .named _ bs => bs
    | .repeated b count => List.replicate (count.getD (size - fixed)) b

/-- The part is a class of letters in one case. -/
def SetPart.isCase : SetPart → Bool
  | .named name _ => name = octets "upper" || name = octets "lower"
  | _ => false

/-- The places at which classes of letters in one case begin. -/
def casePlaces (parts : List SetPart) : List Nat :=
  (parts.foldl (fun (places, n) part =>
    (if part.isCase then n :: places else places, n + part.size)) (([] : List Nat), 0)).1

/-- The members of a list of bytes. -/
def memberOf (bs : Bytes) : UInt8 → Bool :=
  let table : Array Bool := bs.foldl (fun t b => t.set! b.toNat true) (Array.replicate 256 false)
  fun b => table.getD b.toNat false

/-- The bytes of the first set. -/
def sourceBytes (others : Bool) (text : Octets) : Except Octets Bytes := do
  let parts ← setParts (text.length + 1) text
  if parts.any fun
      | .repeated .. => true
      | _ => false then
    throw (octets "the [c*] repeat construct may not appear in string1")
  let bs := setBytes 0 parts
  if others then
    let isMember := memberOf bs
    return bytesWhere fun c => !isMember (Octets.byte c)
  else return bs
/-- The bytes that take the place of others. -/
def targetBytes (others : Bool) (source : Octets) (size : Nat) (text : Octets) :
    Except Octets Bytes := do
  let parts ← setParts (text.length + 1) text
  let isNamed : SetPart → Bool
    | .named .. => true
    | _ => false
  if parts.any fun part => isNamed part && !part.isCase then
    throw (octets "when translating, the only character classes that may appear in\n"
      ++ octets "string2 are 'upper' and 'lower'")
  let places := casePlaces (← setParts (source.length + 1) source)
  if !others && (casePlaces parts).any (!places.contains ·) then
    throw (octets "misaligned [:upper:] and/or [:lower:] construct")
  return setBytes size parts

/-- What is done with bytes: those that go, what takes the place of others, and those of which only
one stays where several follow each other. -/
structure Replacement where
  gone : UInt8 → Bool
  image : Array UInt8
  squeezed : UInt8 → Bool

/-- The table that replaces bytes by others, the last of which stands for all that are missing. -/
def imageOf (source target : Bytes) : Array UInt8 :=
  let last := target.getLast?.getD 0
  let pairs := source.zip (target ++ List.replicate (source.length - target.length) last)
  pairs.foldl (fun (t : Array UInt8) (a, b) => t.set! a.toNat b)
    ((List.range 256).map UInt8.ofNat).toArray

/-- Replaces bytes after one that was written last. -/
def Replacement.apply (r : Replacement) (last : Option UInt8) (content : Bytes) :
    Bytes × Option UInt8 :=
  let (done, last) := content.foldl (fun (done, last) b =>
    if r.gone b then (done, last)
    else
      let b := r.image.getD b.toNat b
      if last = some b && r.squeezed b then (done, last) else (b :: done, some b))
    (([] : Bytes), last)
  (done.reverse, last)

/-- Why bytes cannot be replaced. -/
inductive TrFault where
  | misuse (message : Octets)
  /-- A set is not written as it should be. -/
  | set (message : Octets)

/-- A text ends in a backslash that nothing follows. -/
def endsOpenly (text : Octets) : Bool :=
  (text.reverse.takeWhile (· = '\\')).length % 2 = 1

/-- Replaces, squeezes or takes away bytes. -/
def tr : Program := fun name args =>
  let forms := [flag 'c' "complement", flag 'C', flag 'd' "delete", flag 's' "squeeze-repeats",
    flag 't' "truncate-set1"]
  match readOptions forms true args with
  | .error message => misuse name 1 message
  | .ok (o, operands) => do
    let others := o.has 'c' || o.has 'C'
    let none' : UInt8 → Bool := fun _ => false
    let extra (word : Octets) (hint : String) : Except TrFault Replacement :=
      .error (.misuse (octets "extra operand " ++ quoted word ++ octets hint))
    let lacking (hint : Octets) : Except TrFault Replacement :=
      .error (.misuse (octets "missing operand" ++ hint))
    let sets (r : Except Octets Replacement) : Except TrFault Replacement := r.mapError .set
    let found : Except TrFault Replacement := match operands, o.has 'd', o.has 's' with
      | [], _, _ => lacking []
      | [a], true, false => sets do return ⟨memberOf (← sourceBytes others a), #[], none'⟩
      | [a], false, true => sets do return ⟨none', #[], memberOf (← sourceBytes others a)⟩
      | [a, b], true, true => sets do
        return ⟨memberOf (← sourceBytes others a), #[],
          memberOf (setBytes 0 (← setParts (b.length + 1) b))⟩
      | [_, b], true, false =>
        extra b "\nOnly one string may be given when deleting without squeezing repeats."
      | [a, b], false, squeezes => sets do
        let source ← sourceBytes others a
        let target ← targetBytes others a source.length b
        if target.isEmpty && !o.has 't' then
          throw (octets "when not truncating set1, string2 must be non-empty")
        let source := if o.has 't' then source.take target.length else source
        return ⟨none', imageOf source target, if squeezes then memberOf target else none'⟩
      | [a], true, true | [a], false, false =>
        lacking (octets " after " ++ quoted a ++ octets (if o.has 'd' then
          "\nTwo strings must be given when both deleting and squeezing repeats."
          else "\nTwo strings must be given when translating."))
      | _ :: _ :: c :: _, _, _ => extra c ""
    for word in operands.take 2 do
      if endsOpenly word then
        put 2 (name ++ octets
          ": warning: an unescaped backslash at end of string is not portable\n")
    match found with
    | .error (.misuse message) => misuse name 1 message
    | .error (.set message) => complain 1 (name ++ octets ": " ++ message)
    | .ok r =>
      iterate (fun (last : Option UInt8) => do
        match ← read 0 blockSize with
        | .error e =>
          return .inr (← complain 1 (name ++ octets ": read error: " ++ octets e.message))
        | .ok [] => return .inr 0
        | .ok block =>
          let (content, last) := r.apply last block
          let _ ← write 1 content
          return .inl last) none

/-! ### Showing -/

/-- How `od` shows numbers. -/
structure ByteView where
  kind : Char
  size : Nat
  /-- The characters are shown at the end of the line too. -/
  withText : Bool := false

/-- The views that a text means, or what is wrong with it. -/
def byteViews (text : Octets) : Except Octets (List ByteView) :=
  let rec go : Nat → Octets → Except Octets (List ByteView)
    | 0, _ | _, [] => .ok []
    | n + 1, c :: rest => do
      if !"acdouxf".toList.contains c then
        throw (octets "invalid character " ++ quoted [c] ++ octets " in type string "
          ++ quoted text)
      let digits := rest.takeWhile Char.isDigit
      let rest := rest.drop digits.length
      let (letter, rest) : Option Char × Octets := match rest with
        | l :: more => if "CSIL".toList.contains l then (some l, more) else (none, rest)
        | [] => (none, [])
      let size := match letter with
        | some 'C' => 1
        | some 'S' => 2
        | some 'I' => 4
        | some 'L' => 8
        | _ => (natOf? digits).getD (if c = 'c' || c = 'a' then 1 else 4)
      if !(c = 'a' || c = 'c') && !([1, 2, 4, 8].contains size) then
        throw (octets "invalid type string " ++ quoted text
          ++ octets ";\nthis system doesn't provide a " ++ Decimal.natText size
          ++ octets "-byte integral type")
      return ⟨c, size, rest.head? = some 'z'⟩ :: (← go n (rest.dropWhile (· = 'z')))
  go (text.length + 1) text

/-- The width of a shown number, without the blank before it. -/
def ByteView.width (v : ByteView) : Nat :=
  match v.kind with
  | 'c' | 'a' => 3
  | 'x' => 2 * v.size
  | 'o' => (8 * v.size + 2) / 3
  | 'u' => (Decimal.natText (Nat.pow 256 v.size - 1)).length
  | _ => (Decimal.natText (Nat.pow 256 v.size / 2)).length + 1

/-- The names of characters that do not print. -/
def controlNames : List String :=
  ["nul", "soh", "stx", "etx", "eot", "enq", "ack", "bel", "bs", "ht", "nl", "vt", "ff", "cr", "so",
    "si", "dle", "dc1", "dc2", "dc3", "dc4", "nak", "syn", "etb", "can", "em", "sub", "esc", "fs",
    "gs", "rs", "us", "sp"]

/-- The name of a character, whose highest bit does not count. -/
def characterName (b : UInt8) : Octets :=
  let n := b.toNat % 128
  if n = 127 then octets "del"
  else match controlNames[n]? with
    | some name => octets name
    | none => [Char.ofNat n]

/-- A character as `od` shows it. -/
def shownCharacter (b : UInt8) : Octets :=
  match (Octets.ofByte b) with
  | '\x00' => octets "\\0"
  | '\x07' => octets "\\a"
  | '\x08' => octets "\\b"
  | '\t' => octets "\\t"
  | '\n' => octets "\\n"
  | '\x0b' => octets "\\v"
  | '\x0c' => octets "\\f"
  | '\r' => octets "\\r"
  | c =>
    if ' ' ≤ c && c ≤ '~' then [c]
    else
      let digits := Nat.toDigits 8 b.toNat
      List.replicate (3 - digits.length) '0' ++ digits

/-- The number of some bytes, the lowest first, as it is shown. -/
def ByteView.show (v : ByteView) (bs : Bytes) : Octets :=
  let n := bs.reverse.foldl (fun n b => n * 256 + b.toNat) 0
  let text := match v.kind with
    | 'c' => shownCharacter (bs.headD 0)
    | 'a' => characterName (bs.headD 0)
    | 'x' => Decimal.paddedHex v.width n
    | 'o' =>
      let digits := Nat.toDigits 8 n
      List.replicate (v.width - digits.length) '0' ++ digits
    | 'u' => Decimal.natText n
    | _ =>
      let half := Nat.pow 256 v.size / 2
      if n < half then Decimal.natText n else Decimal.intText ((n : Int) - 2 * half)
  List.replicate (v.width + 1 - text.length) ' ' ++ text

/-- Pieces of so many elements, the last of which may be shorter. -/
def chunks {α : Type} (size : Nat) : Nat → List α → List (List α)
  | 0, _ | _, [] => []
  | n + 1, xs => xs.take size :: chunks size n (xs.drop size)

/-- How wide a line of a view is for so many bytes. -/
def ByteView.lineWidth (v : ByteView) (count : Nat) : Nat := (v.width + 1) * (count / v.size)

/-- A line of bytes in a view, spread over the width of a line with so many bytes. -/
def ByteView.line (v : ByteView) (count width : Nat) (bs : Bytes) : Octets :=
  let fields := max 1 (count / v.size)
  let fill := width - v.lineWidth count
  let shown := (chunks v.size (bs.length + 1) bs).zipIdx.flatMap fun (piece, i) =>
    let column := v.width + 1 + fill * (fields - i) / fields - fill * (fields - i - 1) / fields
    let text := v.show piece
    List.replicate (column - text.length) ' ' ++ text
  if v.withText then
    shown ++ List.replicate (width - shown.length) ' ' ++ octets "  >"
      ++ (Octets.ofBytes bs).map (fun c => if ' ' ≤ c && c ≤ '~' then c else '.') ++ ['<']
  else shown

/-- How far bytes have been shown. -/
structure Dump where
  /-- The next row begins here. -/
  place : Nat
  /-- The bytes of the next row that have come. -/
  front : Bytes := []
  /-- The row that was shown last. -/
  before : Option Bytes := none
  /-- Rows like it followed, which are not shown. -/
  isStarred : Bool := false

/-- How rows of bytes are shown. -/
structure DumpForm where
  views : List ByteView
  address : Nat → Octets
  /-- So many bytes are in a row. -/
  count : Nat
  /-- Rows that are repeated are shown as well. -/
  all : Bool

/-- Shows a row in all views, behind its address; a star stands for rows that are repeated. -/
def Dump.row (d : Dump) (f : DumpForm) (row : Bytes) : Dump × Octets :=
  let next := { d with place := d.place + row.length }
  if !f.all && d.before = some row && row.length = f.count then
    ({ next with isStarred := true }, if d.isStarred then [] else ['*', '\n'])
  else
    let width := (f.views.map fun v => v.lineWidth f.count).foldl max 1
    let lines := f.views.zipIdx.map fun (v, i) =>
      let front := f.address d.place
      (if i = 0 then front else List.replicate front.length ' ') ++ v.line f.count width row
    ({ next with before := some row, isStarred := false }, ofLines lines)

/-- Shows the rows that are full after more bytes have come. -/
def Dump.add (d : Dump) (f : DumpForm) (block : Bytes) : Dump × Octets :=
  let bytes := d.front ++ block
  let (done, said) := (chunks f.count (bytes.length + 1) bytes).foldl
    (fun ((d : Dump), said) row =>
      if row.length = f.count then
        let (d, text) := d.row f row
        (d, text :: said)
      else ({ d with front := row }, said))
    ({ d with front := [] }, ([] : List Octets))
  (done, said.reverse.flatten)

/-- What is left to be shown at the end. -/
def Dump.rest (d : Dump) (f : DumpForm) : Octets :=
  let (d, said) := if d.front.isEmpty then (d, []) else d.row f d.front
  let final := f.address d.place
  said ++ if final.isEmpty then [] else final ++ ['\n']

/-- Shows the bytes of files that are left after some were skipped, at most so many if so said. -/
def dump (name : Octets) (f : DumpForm) (skip : Nat) (most : Option Nat) (paths : List Octets) :
    Act Nat := do
  let blame (path : Octets) := if path = ['-'] then quoted (octets "standard input") else plain path
  let start : Dump := { place := skip }
  let result ← iterate (fun (paths, opened, skip, left, (d : Dump), (kept : Backlog), seen, code) =>
    do
      if seen && left = some 0 && skip = 0 then return .inr (skip, d, kept, seen, code)
      match opened, paths with
      | none, [] => return .inr (skip, d, kept, seen, code)
      | none, path :: paths =>
        match ← if path = ['-'] then pure (.ok 0) else openFile path .toRead with
        | .ok n => return .inl (paths, some (path, n), skip, left, d, kept, true, code)
        | .error e =>
          let kept ← kept.emptied
          let _ ← complainOf name (blame path) e
          return .inl (paths, none, skip, left, d, kept, seen, 1)
      | some (path, n), _ =>
        let shut : Act Unit := if n = 0 then pure () else close n
        let size := match left with
          | some left => min (skip + left) blockSize
          | none => blockSize
        match ← read n size with
        | .error e =>
          let kept ← kept.emptied
          let _ ← complainOf name (blame path) e
          shut
          return .inl (paths, none, skip, left, d, kept, seen, 1)
        | .ok [] =>
          shut
          return .inl (paths, none, skip, left, d, kept, seen, code)
        | .ok block =>
          labour (block.length / bytesPerStep)
          let taken := block.drop skip
          let (d, said) := d.add f taken
          let left := left.map (· - taken.length)
          return .inl (paths, opened, skip - block.length, left, d, ← kept.push said, seen, code))
    (paths, none, skip, most, start, {}, false, 0)
  let (missing, d, kept, seen, code) := result
  if !seen then
    kept.flush
    return code
  else if missing != 0 then
    complain 1 (name ++ octets ": cannot skip past end of combined input")
  else
    (kept.add (d.rest f)).flush
    return code

/-- What is wrong with an option and its argument. -/
def dumpFault? : Char × Octets → Option Octets
  | ('A', text) =>
    if (text.head?).any "doxn".toList.contains then none
    else
      some (octets "invalid output address radix " ++ quoted (text.take 1)
        ++ octets "; it must be one character from [doxn]")
  | ('t', text) =>
    match byteViews text with
    | .error message => some message
    | .ok _ => none
  | (key, text) =>
    if key = 'w' && text.isEmpty then none
    else if ['j', 'N', 'w'].contains key && (sizeOf? text).isNone then
      some (octets "invalid -" ++ key :: octets " argument " ++ quoted text)
    else none

/-- The address of a byte as an option says. -/
def dumpAddress (radix : Option Char) (n : Nat) : Octets :=
  let filled (width : Nat) (digits : Octets) := List.replicate (width - digits.length) '0' ++ digits
  match radix with
  | some 'n' => []
  | some 'd' => filled 7 (Decimal.natText n)
  | some 'x' => filled 6 (Decimal.hexText n)
  | _ => filled 7 (Nat.toDigits 8 n)

/-- Shows the bytes of files as numbers. -/
def od : Program := fun name args =>
  let forms := [valued 'A' "address-radix", valued 't' "format", flag 'v' "output-duplicates",
    valued 'j' "skip-bytes", valued 'N' "read-bytes", extended 'w' "width", flag 'c', flag 'b',
    flag 'x', flag 'o', flag 'd', flag 'a', flag 'i']
  withOptions name forms 1 args fun o paths => do
    if let some message := o.findSome? dumpFault? then
      return (← complain 1 (name ++ octets ": " ++ message))
    let own : List (Char × ByteView) := [('c', { kind := 'c', size := 1 }),
      ('a', { kind := 'a', size := 1 }), ('b', { kind := 'o', size := 1 }),
      ('x', { kind := 'x', size := 2 }), ('o', { kind := 'o', size := 2 }),
      ('d', { kind := 'u', size := 2 }), ('i', { kind := 'd', size := 4 })]
    let views := o.flatMap fun (key, value) =>
      if key = 't' then (byteViews value).toOption.getD [] else (own.lookup key).toList
    let views := if views.isEmpty then [{ kind := 'o', size := 2 }] else views
    let size? (key : Char) : Option Nat := (o.last? key).bind sizeOf?
    let unit := (views.map (·.size)).foldl Nat.lcm 1
    let asked := if o.last? 'w' = some [] then 32 else (size? 'w').getD (max 16 unit)
    let isUneven := asked = 0 || asked % unit != 0
    if isUneven then
      put 2 (name ++ octets ": warning: invalid width " ++ Decimal.natText asked
        ++ octets "; using " ++ Decimal.natText unit ++ octets " instead\n")
    let count := if isUneven then unit else asked
    dump name ⟨views, dumpAddress ((o.last? 'A').bind (·.head?)), count, o.has 'v'⟩
      ((size? 'j').getD 0) (size? 'N') (pathsOrInput paths)

/-! ### Six bits at a time -/

/-- The characters of sixty-four numbers. -/
def sixBitCharacters : Array Char :=
  "ABCDEFGHIJKLMNOPQRSTUVWXYZabcdefghijklmnopqrstuvwxyz0123456789+/".toList.toArray

/-- Three bytes as four characters. -/
def toSixBits (bs : Bytes) : Octets :=
  (chunks 3 (bs.length + 1) bs).flatMap fun piece =>
    let n := (piece ++ List.replicate (3 - piece.length) 0).foldl (fun n b => n * 256 + b.toNat) 0
    let digits := [n / 262144, n / 4096 % 64, n / 64 % 64, n % 64].map fun d =>
      sixBitCharacters.getD d '='
    digits.take (piece.length + 1) ++ List.replicate (3 - piece.length) '='

/-- The bytes that characters stand for, up to the first ones that stand for nothing, and whether
there are no such ones. After an equals sign another text can follow. -/
def ofSixBits (ignoring : Bool) (text : Octets) : Bytes × Bool :=
  let isKnown (c : Char) : Bool := c = '=' || sixBitCharacters.contains c
  let text := text.filter fun c => c != '\n' && (!ignoring || isKnown c)
  let pieces := (chunks 4 (text.length + 1) text).map fun piece =>
    let body := piece.takeWhile fun c => c != '=' && isKnown c
    let numbers := body.filterMap fun c => sixBitCharacters.findIdx? (· = c)
    let n := (numbers ++ List.replicate (4 - numbers.length) 0).foldl (fun n d => n * 64 + d) 0
    let bytes := ([n / 65536, n / 256 % 256, n % 256].map UInt8.ofNat).take (numbers.length - 1)
    (bytes, piece.length = 4 && 2 ≤ body.length && (piece.drop body.length).all (· = '='))
  let whole := pieces.takeWhile (·.2)
  let broken := ((pieces.drop whole.length).map (·.1)).head?.getD []
  (whole.flatMap (·.1) ++ broken, whole.length = pieces.length)

/-- Writes what comes from a descriptor with six bits in a character, in lines of a width unless
that is nothing. -/
def writeSixBits (width descriptor : Nat) : Act (Except FileError Unit) :=
  iterate (fun ((front : Bytes), (line : Octets), (kept : Backlog)) => do
    match ← read descriptor blockSize with
    | .error e =>
      kept.flush
      return .inr (.error e)
    | .ok [] =>
      let text := line ++ toSixBits front
      let lines := if width = 0 then text else ofLines (chunks width (text.length + 1) text)
      (kept.add lines).flush
      return .inr (.ok ())
    | .ok block =>
      let bytes := front ++ block
      let size := bytes.length / 3 * 3
      let text := line ++ toSixBits (bytes.take size)
      if width = 0 then return .inl (bytes.drop size, [], ← kept.push text)
      else
        let full := text.length / width * width
        let lines := chunks width (full + 1) (text.take full)
        return .inl (bytes.drop size, text.drop full, ← kept.push (ofLines lines)))
    ([], [], {})

/-- Writes a file with six bits in a character, or reads such a writing. -/
def base64 : Program := fun name args =>
  withOptions name [flag 'd' "decode", valued 'w' "wrap", flag 'i' "ignore-garbage"] 1 args
    fun o paths => do
      if let some extra := paths[1]? then
        return (← misuse name 1 (octets "extra operand " ++ quoted extra))
      let blame (path : Octets) (e : FileError) : Octets :=
        if isReadFault e then octets "read error" else plain path
      if o.has 'd' then
        eachInput name (fun _ content => do
          let (bs, isValid) := ofSixBits (o.has 'i') (Octets.ofBytes content)
          let _ ← write 1 bs
          if isValid then return 0 else complain 1 (name ++ octets ": invalid input"))
          (pathsOrInput paths) blame
      else
        let wrap := (o.last? 'w').getD (octets "76")
        let some width := natOf? wrap
          | return (← complain 1 (name ++ octets ": invalid wrap size: " ++ quoted wrap))
        let path := paths.headD ['-']
        match ← withInput path (writeSixBits width) with
        | .ok (.ok ()) => return 0
        | .ok (.error e) | .error e => complainOf name (blame path e) e

end MutationTesting.Tool
