import MutationTesting.Coverage.ExecutionData
import MutationTesting.Text.Utf8
/-!
# Coverage files

A coverage file is a sequence of blocks, each beginning with a byte for its kind: headers, sessions
and records. It begins with a header and may have more of them, so that files can be appended to
one another.

In a string each 16-bit unit of the text is written for itself, in one byte from 1 to 0x7F, in two
bytes up to 0x7FF and else in three; zero takes two bytes, so no byte of a string is zero. The
reader looks at the leading byte of a group and takes the low bits of the bytes that follow,
whatever their high bits are.

Readers move a cursor over the bytes. A failing reader names an offset: that of the first byte of
the field that is cut off, of the string that denotes no text, or of the block of unknown kind.

## Main definitions

* `ModifiedUtf8.encode`, `ModifiedUtf8.decode?` — strings
* `Cursor` and the readers of fields
* `validateHeader` — the first three bytes
* `decode` — a whole file
* `encode` — writing
-/

namespace MutationTesting.ModifiedUtf8

/-- The bytes of a unit. -/
def encodeUnit (unit : Nat) : Bytes :=
  if 1 ≤ unit ∧ unit ≤ 0x7F then [UInt8.ofNat unit]
  else if unit ≤ 0x7FF then [UInt8.ofNat (0xC0 + unit / 64), UInt8.ofNat (0x80 + unit % 64)]
  else
    [UInt8.ofNat (0xE0 + unit / 4096), UInt8.ofNat (0x80 + unit / 64 % 64),
      UInt8.ofNat (0x80 + unit % 64)]

/-- The bytes of a text. -/
def encode (text : String) : Bytes := (Utf16.units text.toList).flatMap encodeUnit

/-- The units that the bytes denote. A byte of the form `10xxxxxx` or `1111xxxx` leads no group,
and the last group must be complete. -/
def units? : Bytes → Option (List Nat)
  | [] => some []
  | a :: rest =>
    if a.toNat < 0x80 then (units? rest).map (a.toNat :: ·)
    else if 0xC0 ≤ a.toNat ∧ a.toNat < 0xE0 then
      match rest with
      | b :: rest => (units? rest).map ((a.toNat % 32 * 64 + b.toNat % 64) :: ·)
      | _ => none
    else if 0xE0 ≤ a.toNat ∧ a.toNat < 0xF0 then
      match rest with
      | b :: c :: rest =>
        (units? rest).map ((a.toNat % 16 * 4096 + b.toNat % 64 * 64 + c.toNat % 64) :: ·)
      | _ => none
    else none

/-- The text that the bytes denote. -/
def decode? (bytes : Bytes) : Option String :=
  ((units? bytes).bind Utf16.text?).map String.ofList

end MutationTesting.ModifiedUtf8

namespace MutationTesting.Coverage

/-- A place in a file. -/
structure Cursor where
  offset : Nat
  rest : Bytes
  deriving DecidableEq

/-- Reads something and moves on. -/
abbrev Reader (α : Type) := Cursor → Except CoverageError (α × Cursor)

/-- The next `n` bytes. -/
def take (n : Nat) : Reader Bytes := fun c =>
  if n ≤ c.rest.length then .ok (c.rest.take n, ⟨c.offset + n, c.rest.drop n⟩)
  else .error (.truncated c.offset)

/-- The number of a byte string, most significant byte first. -/
def bigEndian (bytes : Bytes) : Nat := bytes.foldl (fun n b => n * 256 + b.toNat) 0

/-- A byte. -/
def byte : Reader UInt8 := fun c => do
  let (bytes, c) ← take 1 c
  .ok (bytes.headD 0, c)

/-- A 16-bit word. -/
def word16 : Reader Nat := fun c => do
  let (bytes, c) ← take 2 c
  .ok (bigEndian bytes, c)

/-- A signed 64-bit word. -/
def word64 : Reader Int64 := fun c => do
  let (bytes, c) ← take 8 c
  .ok (Int64.ofInt (bigEndian bytes), c)

/-- A string: its length in bytes and the bytes. -/
def text : Reader String := fun c => do
  let (length, d) ← word16 c
  let (bytes, d) ← take length d
  match ModifiedUtf8.decode? bytes with
  | some s => .ok (s, d)
  | none => .error (.badString c.offset)

/-- The rest of a number in groups of seven bits, least significant group first, of which `left`
more may come. `value` is the number so far and `shift` the weight of the next group. Bits above
the 32nd are dropped. -/
def groups (shift value : Nat) : Nat → Reader Nat
  | 0 => fun c => do
    let _ ← byte c
    .error (.truncated c.offset)
  | left + 1 => fun c => do
    let (b, d) ← byte c
    let value := (value + b.toNat % 128 * Nat.pow 2 shift) % Nat.pow 2 32
    if b.toNat < 128 then .ok (value, d) else groups (shift + 7) value left d

/-- A number in up to five groups of seven bits. -/
def number : Reader Nat := groups 0 0 5

/-- The lowest `n` bits of the bytes, the least significant bit of each byte first. -/
def bits (n : Nat) (bytes : Bytes) : List Bool :=
  (bytes.flatMap fun b => (List.range 8).map b.toNat.testBit).take n

/-- Truth values: their number, and eight to a byte. -/
def truthValues : Reader (List Bool) := fun c => do
  let (n, c) ← number c
  let (bytes, c) ← take ((n + 7) / 8) c
  .ok (bits n bytes, c)

/-- The bytes with which a file begins; the first of them is the kind of a header block. -/
def magic : Bytes := [0x01, 0xC0, 0xC0]

/-- The version of the format. -/
def version : Nat := 0x1007

/-- The file begins as coverage files do. -/
def validateHeader (bytes : Bytes) : Except CoverageError Unit :=
  if bytes.take 3 = magic then .ok () else .error (.badMagic (bytes.take 3))

/-- What follows the kind of a header block. -/
def header : Reader Unit := fun c => do
  let (found, c) ← take 2 c
  if found ≠ magic.drop 1 then .error (.badMagic found)
  else
    let (v, c) ← word16 c
    if v ≠ version then .error (.unsupportedVersion v) else .ok ((), c)

/-- A block: what it adds to the data. -/
inductive Block where
  | header
  | session (s : SessionInfo)
  | record (r : ExecutionRecord)

/-- Adds a block to the data, whose lists hold the latest first. -/
def Block.addTo (data : ExecutionData) : Block → ExecutionData
  | .header => data
  | .session s => { data with sessions := s :: data.sessions }
  | .record r => { data with records := r :: data.records }

/-- A block with its kind. -/
def block : Reader Block := fun start => do
  let (kind, c) ← byte start
  if kind = 0x01 then
    let ((), c) ← header c
    .ok (.header, c)
  else if kind = 0x10 then
    let (id, c) ← text c
    let (begun, c) ← word64 c
    let (dump, c) ← word64 c
    .ok (.session ⟨id, begun, dump⟩, c)
  else if kind = 0x11 then
    let (id, c) ← word64 c
    let (name, c) ← text c
    let (probes, c) ← truthValues c
    .ok (.record ⟨id, name, probes⟩, c)
  else .error (.unknownBlock kind start.offset)

/-- Reads blocks to the end of the file. A block has at least one byte, so `fuel` need not exceed
the number of bytes. -/
def blocks (data : ExecutionData) : Nat → Cursor → Except CoverageError ExecutionData
  | 0, _ => .ok data
  | fuel + 1, c =>
    if c.rest.isEmpty then .ok data
    else do
      let (b, c) ← block c
      blocks (b.addTo data) fuel c

/-- The data of a coverage file. -/
def decode (bytes : Bytes) : Except CoverageError ExecutionData := do
  validateHeader bytes
  let ((), c) ← header ⟨1, bytes.drop 1⟩
  let data ← blocks ⟨[], []⟩ bytes.length c
  .ok ⟨data.sessions.reverse, data.records.reverse⟩

/-! ### Writing -/

/-- The `n` lowest bytes of a number, most significant first. -/
def bigEndianBytes (n value : Nat) : Bytes :=
  (List.range n).reverse.map fun i => UInt8.ofNat (value / Nat.pow 256 i)

/-- A string. The bytes follow their number, of which 16 bits are written. -/
def textBytes (s : String) : Bytes :=
  let bytes := ModifiedUtf8.encode s
  bigEndianBytes 2 bytes.length ++ bytes

/-- A number in groups of seven bits, least significant first; all but the last have the top bit
set. -/
def numberBytes (n : Nat) : Bytes :=
  if n < 128 then [UInt8.ofNat n] else UInt8.ofNat (128 + n % 128) :: numberBytes (n / 128)
termination_by n
decreasing_by omega

/-- The byte of up to eight truth values, the first in the least significant bit. -/
def packByte (bs : List Bool) : UInt8 :=
  UInt8.ofNat (bs.foldr (fun b n => b.toNat + 2 * n) 0)

/-- Truth values, eight to a byte. -/
def packBits (bs : List Bool) : Bytes :=
  if bs.isEmpty then [] else packByte (bs.take 8) :: packBits (bs.drop 8)
termination_by bs.length
decreasing_by
  have : bs ≠ [] := by simpa using ‹¬ bs.isEmpty = true›
  have := List.length_pos_iff.2 this
  simp only [List.length_drop]
  omega

/-- A session block. -/
def sessionBytes (s : SessionInfo) : Bytes :=
  0x10 :: textBytes s.id ++ bigEndianBytes 8 s.start.toBitVec.toNat
    ++ bigEndianBytes 8 s.dump.toBitVec.toNat

/-- A record block. -/
def recordBytes (r : ExecutionRecord) : Bytes :=
  0x11 :: bigEndianBytes 8 r.id.toBitVec.toNat ++ textBytes r.name
    ++ numberBytes (r.probes.length % Nat.pow 2 32) ++ packBits r.probes

/-- The coverage file of the data: a header, the sessions and the records. -/
def encode (data : ExecutionData) : Bytes :=
  magic ++ bigEndianBytes 2 version ++ data.sessions.flatMap sessionBytes
    ++ data.records.flatMap recordBytes

end MutationTesting.Coverage
