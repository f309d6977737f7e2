import MutationTesting.Tool.Describe
import MutationTesting.Tool.Stream
/-!
# Comparing bytes

The program `cmp`, which says where two files differ first, or what all their bytes that differ are.
-/

namespace MutationTesting.Tool

open Act

/-! ### Bytes -/

/-- The end of a program that compares and was called in a wrong way. -/
def comparisonMisuse (name message : Octets) : Act Nat :=
  complain 2 (name ++ octets ": " ++ message ++ '\n' :: name ++ octets ": Try '" ++ name
    ++ octets " --help' for more information.")

/-- A byte in octal digits. -/
def octalByte (b : UInt8) : Octets :=
  let digits := Nat.toDigits 8 b.toNat
  List.replicate (3 - digits.length) ' ' ++ digits

/-- A byte as a character that can be seen. -/
def visibleByte (b : UInt8) : Octets := shownByte true (Octets.ofByte b)

/-- How far two files have been compared. -/
structure Comparison where
  /-- So many bytes of either have been compared. -/
  place : Nat := 0
  line : Nat := 1
  /-- The last byte ended a line. -/
  isLineStart : Bool := false
  /-- Some bytes were not the same. -/
  differs : Bool := false

/-- The comparison after bytes that are the same. -/
def Comparison.pass (c : Comparison) (common : Bytes) : Comparison :=
  { c with
    place := c.place + common.length
    line := c.line + common.count 10
    isLineStart := match common.getLast? with
      | some b => b = 10
      | none => c.isLineStart }

/-- What is said of the first bytes that differ. -/
def Comparison.text (c : Comparison) (p q : Octets) (withBytes : Bool) (a b : UInt8) : Octets :=
  let byte (b : UInt8) : Octets := octalByte b ++ ' ' :: visibleByte b
  p ++ ' ' :: q ++ octets (if withBytes then " differ: byte " else " differ: char ")
    ++ Decimal.natText (c.place + 1) ++ octets ", line " ++ Decimal.natText c.line
    ++ if withBytes then octets " is " ++ byte a ++ ' ' :: byte b else []

/-- What is said when one file ends before the other one. -/
def Comparison.endText (c : Comparison) (path : Octets) (inLines : Bool) : Octets :=
  octets "EOF on " ++ path ++
    if c.place = 0 then octets " which is empty"
    else
      octets " after byte " ++ Decimal.natText c.place
        ++ if inLines then
            octets (if c.isLineStart then ", line " else ", in line ")
              ++ Decimal.natText (if c.isLineStart then c.line - 1 else c.line)
          else []

/-- How many bytes at the beginning of two contents are the same. -/
def commonLength : Bytes → Bytes → Nat
  | a :: as, b :: bs => if a = b then commonLength as bs + 1 else 0
  | _, _ => 0

/-- The lines for all bytes from a place on that differ, with places of some width. -/
def allDifferences (withBytes : Bool) (width place : Nat) (as bs : Bytes) : Octets :=
  ofLines (((as.zip bs).zipIdx (place + 1)).filterMap fun ((a, b), i) =>
    if a = b then none
    else
      let digits := Decimal.natText i
      let place := List.replicate (width - digits.length) ' ' ++ digits
      let left := if withBytes then
          let text := visibleByte a
          ' ' :: text ++ List.replicate (4 - text.length) ' '
        else []
      some (place ++ ' ' :: octalByte a ++ left ++ ' ' :: octalByte b
        ++ if withBytes then ' ' :: visibleByte b else []))

/-- Reads so many bytes, or all that are left. -/
def readFully (descriptor size : Nat) : Act (Except FileError Bytes) :=
  iterate (fun (left, blocks) => do
    if left = 0 then return .inr (.ok (blocks.reverse.flatten))
    match ← read descriptor left with
    | .error e => return .inr (.error e)
    | .ok [] => return .inr (.ok (blocks.reverse.flatten))
    | .ok block => return .inl (left - block.length, block :: blocks)) (size, ([] : List Bytes))

/-- Leaves out bytes; of a file they need not be read. -/
def skipBytes (descriptor count : Nat) : Act (Except FileError Unit) := do
  match fileOf? (← look) descriptor with
  | some (_, position) =>
    seek descriptor (position + count)
    return .ok ()
  | none => return (← readFully descriptor count).map fun _ => ()

/-- So many bytes are compared at a time. -/
def comparedBlock : Nat := 4096

/-- Compares what comes from two descriptors. -/
def compareBytes (name : Octets) (o : Options) (p q : Octets) (d e width : Nat)
    (most : Option Nat) : Act Nat :=
  let fail (path : Octets) (e : FileError) : Act Nat :=
    complain 2 (name ++ octets ": " ++ path ++ octets ": " ++ octets e.message)
  iterate (fun ((c : Comparison), (left : Option Nat), (kept : Backlog)) => do
    let size := match left with
      | some n => min n comparedBlock
      | none => comparedBlock
    match ← readFully d size with
    | .error fault => return .inr (← fail p fault)
    | .ok as =>
      match ← readFully e size with
      | .error fault => return .inr (← fail q fault)
      | .ok bs =>
        let n := commonLength as bs
        let shorter := min as.length bs.length
        let c := c.pass (as.take n)
        if n < shorter && !o.has 'l' then
          if !o.has 's' then
            sayLine (c.text p q (o.has 'b') (as.getD n 0) (bs.getD n 0))
          return .inr 1
        let text := if n < shorter then
          allDifferences (o.has 'b') width c.place (as.drop n) (bs.drop n) else []
        let c := { c with
          place := c.place + (shorter - n), differs := c.differs || n < shorter }
        let kept ← kept.push text
        if as.length != bs.length then
          if !o.has 's' then
            let path := if as.length < bs.length then p else q
            put 2 (name ++ octets ": " ++ c.endText path (!o.has 'l') ++ ['\n'])
          kept.flush
          return .inr 1
        else if as.length < comparedBlock then
          kept.flush
          return .inr (if c.differs then 1 else 0)
        else return .inl (c, left.map (· - size), kept)) ({}, most, {})

/-- The two counts of bytes that are left out, as an option says. -/
def skipsOf? (text : Octets) : Except Octets (Nat × Nat) :=
  let one (text : Octets) : Except Octets Nat :=
    match sizeOf? text with
    | some n => .ok n
    | none => .error (octets "invalid --ignore-initial value " ++ quoted text)
  let head := text.takeWhile (· != ':')
  if head.length = text.length then (one text).map fun n => (n, n)
  else
    match sizeOf? head with
    | some n => (one (text.drop (head.length + 1))).map fun m => (n, m)
    | none => (one text).map fun n => (n, n)

/-- What is wrong with the options of a comparison. -/
def comparisonFault? (o : Options) : Option Octets :=
  (o.zipIdx).findSome? fun ((key, text), i) =>
    let others := (o.take i).map (·.1)
    if (key = 'l' && others.contains 's') || (key = 's' && others.contains 'l') then
      some (octets "options -l and -s are incompatible")
    else if key = 'n' && (sizeOf? text).isNone then
      some (octets "invalid --bytes value " ++ quoted text)
    else if key = 'i' then
      match skipsOf? text with
      | .error message => some message
      | .ok _ => none
    else none

/-- Compares two files that are open, from so many bytes on. -/
def compareOpen (name : Octets) (o : Options) (p q : Octets) (d e : Nat) (skips : Nat × Nat) :
    Act Nat := do
  let k ← look
  let isSame : Bool := match k.streamOf? d, k.streamOf? e with
    | some (_, s), some (_, t) =>
      s.channel = t.channel && s.position + skips.1 = t.position + skips.2
    | _, _ => false
  let size? (descriptor skip : Nat) : Option Nat := do
    let (n, position) ← fileOf? k descriptor
    return ((k.files.content n).toOption.getD []).length - (position + skip)
  let most := (o.last? 'n').bind sizeOf?
  if isSame then return 0
  match size? d skips.1, size? e skips.2, o.has 's' with
  | some n, some m, true => if n != m && most.all (min n m < ·) then return 1
  | _, _, _ => pure ()
  let least := ([size? d skips.1, size? e skips.2, most].filterMap (fun n? => n?)).min?
  let width := (Decimal.natText (least.getD (Nat.pow 10 18))).length
  for (path, descriptor, skip) in [(p, d, skips.1), (q, e, skips.2)] do
    if skip != 0 then
      if let .error fault ← skipBytes descriptor skip then
        return (← complain 2 (name ++ octets ": " ++ path ++ octets ": "
          ++ octets fault.message))
  compareBytes name o p q d e width most

/-- Says where two files differ. -/
def cmp : Program := fun name args => do
  let forms := [flag 's' "quiet", longFlag 's' "silent", flag 'l' "verbose",
    flag 'b' "print-bytes", valued 'n' "bytes", valued 'i' "ignore-initial"]
  match readOptions forms false args with
  | .error message => comparisonMisuse name message
  | .ok (o, operands) =>
    if let some message := comparisonFault? o then return (← comparisonMisuse name message)
    let skip := (((o.last? 'i').map skipsOf?).bind Except.toOption).getD (0, 0)
    match operands with
    | [] => comparisonMisuse name (octets "missing operand after " ++ quoted name)
    | p :: rest =>
      let q := rest.headD ['-']
      match ((rest.drop 1).take 2).find? fun text => (sizeOf? text).isNone, rest[3]? with
      | some text, _ =>
        comparisonMisuse name (octets "invalid --ignore-initial value " ++ quoted text)
      | none, some extra => comparisonMisuse name (octets "extra operand " ++ quoted extra)
      | none, none =>
        let skips := ((rest[1]?.bind sizeOf?).getD skip.1, (rest[2]?.bind sizeOf?).getD skip.2)
        let opened (path : Octets) : Act (Except Nat Nat) := do
          if path = ['-'] && ((← look).streamOf? 0).isSome then return .ok 0
          let result ← if path = ['-'] then pure (.error .badDescriptor) else openFile path .toRead
          match result with
          | .ok d => return .ok d
          | .error e =>
            if o.has 's' then return .error 2
            else
              return .error (← complain 2 (name ++ octets ": " ++ path ++ octets ": "
                ++ octets e.message))
        -- The input is looked at first, so that no file takes its place.
        let (a, b) := if q = ['-'] then (q, p) else (p, q)
        match ← opened a with
        | .error code => return code
        | .ok d =>
          if p = q && skips.1 = skips.2 then return 0
          match ← opened b with
          | .error code => return code
          | .ok e =>
            if q = ['-'] then compareOpen name o p q e d skips
            else compareOpen name o p q d e skips

end MutationTesting.Tool
