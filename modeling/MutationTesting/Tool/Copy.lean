import MutationTesting.Tool.Stream
/-!
# Copying blocks

The program `dd`: copies a file block by block, beginning at a block of the input and at a block of
the output.

## Main definitions

* `BlockCopy`, `BlockCopy.read`
* `dd`
-/

namespace MutationTesting.Tool

open Act

/-- What is copied, and how. -/
structure BlockCopy where
  input : Option Octets := none
  output : Option Octets := none
  inputSize : Nat := 512
  outputSize : Nat := 512
  /-- Blocks are written as they are read. -/
  direct : Bool := false
  count : Option Nat := none
  countsBytes : Bool := false
  skip : Nat := 0
  skipsBytes : Bool := false
  seek : Nat := 0
  seeksBytes : Bool := false
  fullBlocks : Bool := false
  appends : Bool := false
  conversions : List Octets := []
  quiet : Bool := false

namespace BlockCopy

/-- A number of bytes, or a product of such numbers. -/
def number? (text : Octets) : Option Nat :=
  ((splitAt 'x' text).mapM sizeOf?).map (·.foldl (· * ·) 1)

/-- Reads what is to be done from arguments. -/
def read (c : BlockCopy) : List Octets → Except Octets BlockCopy
  | [] => .ok c
  | word :: rest => do
    let key := word.takeWhile (· != '=')
    let value := word.drop (key.length + 1)
    let number : Except Octets Nat := match number? value with
      | some n => .ok n
      | none => .error (octets "invalid number: " ++ named value)
    let flags := splitAt ',' value
    match String.ofList key with
    | "if" => read { c with input := some value } rest
    | "of" => read { c with output := some value } rest
    | "bs" =>
      let n ← number
      if n = 0 then throw (octets "invalid number: " ++ named value)
      read { c with inputSize := n, outputSize := n, direct := true } rest
    | "ibs" => read { c with inputSize := max 1 (← number) } rest
    | "obs" => read { c with outputSize := max 1 (← number) } rest
    | "cbs" => read c rest
    | "count" =>
      let bytes := value.getLast? = some 'B'
      let n ← if bytes then
          match number? value.dropLast with
          | some n => pure n
          | none => throw (octets "invalid number: " ++ named value)
        else number
      read { c with count := some n, countsBytes := bytes || c.countsBytes } rest
    | "skip" | "iseek" => read { c with skip := ← number } rest
    | "seek" | "oseek" => read { c with seek := ← number } rest
    | "iflag" => read { c with
        fullBlocks := c.fullBlocks || flags.contains (octets "fullblock")
        countsBytes := c.countsBytes || flags.contains (octets "count_bytes")
        skipsBytes := c.skipsBytes || flags.contains (octets "skip_bytes") } rest
    | "oflag" => read { c with
        appends := c.appends || flags.contains (octets "append")
        seeksBytes := c.seeksBytes || flags.contains (octets "seek_bytes") } rest
    | "conv" => read { c with conversions := c.conversions ++ flags } rest
    | "status" => read { c with quiet := value = octets "none" } rest
    | _ => throw (octets "unrecognized operand " ++ named word)

/-- A conversion is to be made. -/
def has (c : BlockCopy) (name : String) : Bool := c.conversions.contains name.toList

/-- A block as it is to be written. -/
def convert (c : BlockCopy) (block : Bytes) : Bytes :=
  let block :=
    if c.has "sync" then block ++ List.replicate (c.inputSize - block.length) 0
    else block
  let text (f : Char → Char) (block : Bytes) := block.map fun b => Octets.byte (f (Octets.ofByte b))
  let block := if c.has "ucase" then text Char.toUpper block else block
  let block := if c.has "lcase" then text Char.toLower block else block
  if c.has "swab" then swapped block else block
where
  /-- Every two bytes change places. -/
  swapped : Bytes → Bytes
    | a :: b :: rest => b :: a :: swapped rest
    | rest => rest

/-- How far a copy has come. -/
structure State where
  blocks : Nat
  taken : Nat
  full : Nat
  part : Nat
  written : Nat
  fullOut : Nat
  partOut : Nat
  pending : Bytes
  /-- Why no more can be written. -/
  failed : Option FileError

/-- Reads a block, which may be filled up by several reads. The first argument bounds them. -/
def readBlock (filled : Bool) (d : Nat) : Nat → Nat → Bytes → Act (Except FileError Bytes)
  | 0, _, done => return .ok done
  | n + 1, size, done => do
    match ← Act.read d size with
    | .error e => return .error e
    | .ok [] => return .ok done
    | .ok block =>
      if filled && block.length < size then
        readBlock filled d n (size - block.length) (done ++ block)
      else return .ok (done ++ block)

/-- Writes a block. -/
def writeBlock (c : BlockCopy) (d : Nat) (s : State) (block : Bytes) : Act State := do
  if block.isEmpty then return s
  match ← write d block with
  | .error e => return { s with failed := some e }
  | .ok () =>
    let isFull := block.length = c.outputSize
    return { s with
      written := s.written + block.length
      fullOut := if isFull then s.fullOut + 1 else s.fullOut
      partOut := if isFull then s.partOut else s.partOut + 1 }

/-- Writes as many blocks as there are. The first argument bounds their number. -/
def writeFull (c : BlockCopy) (d : Nat) : Nat → State → Act State
  | 0, s => return s
  | n + 1, s => do
    if s.pending.length < c.outputSize || s.failed.isSome then return s
    else
      let s' ← c.writeBlock d { s with pending := s.pending.drop c.outputSize }
        (s.pending.take c.outputSize)
      writeFull c d n s'

/-- Copies from one descriptor to another. -/
def copy (c : BlockCopy) (source target : Nat) : Act (Except FileError State) :=
  iterate (fun (s : State) => do
    let left := match c.count with
      | none => c.inputSize
      | some n =>
        if c.countsBytes then min c.inputSize (n - s.taken)
        else if s.blocks < n then c.inputSize else 0
    if left = 0 || s.failed.isSome then return .inr (.ok s)
    match ← readBlock c.fullBlocks source (left + 1) left [] with
    | .error e => return .inr (.error e)
    | .ok [] => return .inr (.ok s)
    | .ok block =>
      let isFull := block.length = c.inputSize
      let s := { s with
        blocks := s.blocks + 1
        taken := s.taken + block.length
        full := if isFull then s.full + 1 else s.full
        part := if isFull then s.part else s.part + 1 }
      let block := c.convert block
      if c.direct then return .inl (← c.writeBlock target s block)
      else
        let pending := s.pending ++ block
        return .inl (← c.writeFull target (pending.length + 1) { s with pending }))
    ⟨0, 0, 0, 0, 0, 0, 0, [], none⟩

/-- Passes over the beginning of the input. -/
def passOver (c : BlockCopy) (source : Nat) : Act Unit := do
  let bytes := if c.skipsBytes then c.skip else c.skip * c.inputSize
  match fileOf? (← look) source with
  | some (_, position) => Tool.seek source (position + bytes)
  | none =>
    let _ ← iterate (fun (left : Nat) => do
      if left = 0 then return .inr ()
      match ← Act.read source (min left blockSize) with
      | .error _ | .ok [] => return .inr ()
      | .ok block => return .inl (left - block.length)) bytes

/-- What was copied, as it is reported. -/
def report (s : State) : Octets :=
  let n := Decimal.natText
  n s.full ++ '+' :: n s.part ++ octets " records in\n" ++ n s.fullOut ++ '+' :: n s.partOut
    ++ octets " records out\n" ++ n s.written
    ++ octets (if s.written = 1 then " byte copied, 0.0001 s, " else " bytes copied, 0.0001 s, ")
    ++ n (s.written / 100) ++ octets ".0 kB/s\n"

end BlockCopy

/-- Copies a file block by block. -/
def dd : Program := fun name args => do
  match BlockCopy.read {} (args.filter (· != ['-', '-'])) with
  | .error message =>
    if message.head? = some 'u' then misuse name 1 message
    else complain 1 (name ++ octets ": " ++ message)
  | .ok c =>
    let fail (path : Octets) (e : FileError) : Act Nat :=
      complain 1 (name ++ octets ": failed to open " ++ named path ++ octets ": "
        ++ octets e.message)
    let source? : Except (Octets × FileError) Nat ← match c.input with
      | none => pure (.ok 0)
      | some path => do pure ((← openFile path .toRead).mapError (path, ·))
    match source? with
    | .error (path, e) => fail path e
    | .ok source =>
      c.passOver source
      let start := if c.seeksBytes then c.seek else c.seek * c.outputSize
      let way : OpenWay :=
        { writes := true
          creates := !c.has "nocreat"
          appends := c.appends
          exclusive := c.has "excl" }
      let target? : Except (Octets × FileError) Nat ← match c.output with
        | none => pure (.ok 1)
        | some path => do pure ((← openFile path way).mapError (path, ·))
      match target? with
      | .error (path, e) => fail path e
      | .ok target =>
        match fileOf? (← look) target with
        | some (n, position) =>
          if c.output.isSome then
            if !c.has "notrunc" && !c.appends then
              change fun k =>
                let before := (k.files.content n).toOption.getD []
                let kept := before.take start ++ List.replicate (start - before.length) 0
                { k with files := k.files.setContent n kept }
            Tool.seek target start
          else if start != 0 then Tool.seek target (position + start)
        | none => pure ()
        match ← c.copy source target with
        | .error e =>
          complain 1 (name ++ octets ": error reading "
            ++ named (c.input.getD (octets "standard input")) ++ octets ": " ++ octets e.message)
        | .ok s =>
          let s ← if s.pending.isEmpty || s.failed.isSome then pure s
            else c.writeBlock target { s with pending := [] } s.pending
          let shown := named (c.output.getD (octets "standard output"))
          let refuse (tried : String) (e : FileError) : Act Nat :=
            complain 1 (name ++ octets (": " ++ tried ++ " ") ++ shown ++ octets ": "
              ++ octets e.message)
          let code ← match s.failed with
            | none => pure 0
            | some e => refuse "error writing" e
          forgetFaults
          if ← isOpen target then
            if !c.quiet then put 2 (BlockCopy.report s)
            return code
          else refuse "closing output file" .badDescriptor

end MutationTesting.Tool
