/-!
# UTF-8 and UTF-16

Reading bytes as characters, also where they are not well formed. `Utf8.decode` keeps one place for
each ill-formed stretch, so that one reading serves the three uses of the library: strict
(`Utf8.text?`, every place must hold a character), lossy (`Utf8.lossy`, an ill-formed stretch
becomes U+FFFD) and JSON, where ill-formed bytes are tolerated in text that nobody looks at.

The stretches are the maximal subparts of the Unicode standard: the longest run of bytes that
starts a well-formed sequence but does not finish it, or else a single byte.

Two formats of the library speak in 16-bit units: escapes in JSON text and the strings of
coverage files. A character above U+FFFF is a pair of surrogate units, and units that pair up in
no such way denote no text.

## Main definitions

* `Utf8.decode` — bytes to characters, `none` for an ill-formed stretch
* `Utf8.encode` — the bytes of a text
* `Utf8.symbols`, `Utf8.text?`, `Utf8.lossy` — the readings of a whole file
* `Utf16.units` — the units of a text
* `Utf16.text?` — the text of well-formed units
-/

namespace MutationTesting

/-- The content of a file or stream. -/
abbrev Bytes := List UInt8

namespace Utf8

/-- A byte that can only continue a sequence. -/
def isContinuation (b : UInt8) : Bool := 0x80 ≤ b && b < 0xC0

/-- The six low bits of a continuation byte. -/
def payload (b : UInt8) : Nat := b.toNat % 64

/-- How a byte may begin a sequence. -/
inductive Lead where
  /-- A character of its own. -/
  | ascii
  /-- One continuation byte follows. -/
  | two
  /-- Two continuation bytes follow, the first of them within the given bounds. -/
  | three (low high : UInt8)
  /-- Three continuation bytes follow, the first of them within the given bounds. -/
  | four (low high : UInt8)
  /-- No sequence begins with the byte. -/
  | invalid

/-- The role of a byte at the beginning of a sequence. The bounds on the second byte keep out
overlong forms, surrogates and code points above U+10FFFF. -/
def lead (b : UInt8) : Lead :=
  if b < 0x80 then .ascii
  else if b < 0xC2 then .invalid
  else if b < 0xE0 then .two
  else if b = 0xE0 then .three 0xA0 0xBF
  else if b = 0xED then .three 0x80 0x9F
  else if b < 0xF0 then .three 0x80 0xBF
  else if b = 0xF0 then .four 0x90 0xBF
  else if b < 0xF4 then .four 0x80 0xBF
  else if b = 0xF4 then .four 0x80 0x8F
  else .invalid

/-- The characters that the bytes spell, with `none` for each ill-formed stretch. -/
def decode : List UInt8 → List (Option Char)
  | [] => []
  | a :: rest =>
    match lead a with
    | .ascii => some (Char.ofNat a.toNat) :: decode rest
    | .invalid => none :: decode rest
    | .two =>
      match rest with
      | b :: rest' =>
        if isContinuation b then
          some (Char.ofNat (a.toNat % 32 * 64 + payload b)) :: decode rest'
        else none :: decode (b :: rest')
      | [] => [none]
    | .three low high =>
      match rest with
      | b :: c :: rest' =>
        if low ≤ b && b ≤ high then
          if isContinuation c then
            some (Char.ofNat (a.toNat % 16 * 4096 + payload b * 64 + payload c)) :: decode rest'
          else none :: decode (c :: rest')
        else none :: decode (b :: c :: rest')
      | [b] => if low ≤ b && b ≤ high then [none] else none :: decode [b]
      | [] => [none]
    | .four low high =>
      match rest with
      | b :: c :: d :: rest' =>
        if low ≤ b && b ≤ high then
          if isContinuation c then
            if isContinuation d then
              some (Char.ofNat (a.toNat % 8 * 262144 + payload b * 4096 + payload c * 64
                + payload d)) :: decode rest'
            else none :: decode (d :: rest')
          else none :: decode (c :: d :: rest')
        else none :: decode (b :: c :: d :: rest')
      | [b, c] =>
        if low ≤ b && b ≤ high then
          if isContinuation c then [none] else none :: decode [c]
        else none :: decode [b, c]
      | [b] => if low ≤ b && b ≤ high then [none] else none :: decode [b]
      | [] => [none]
termination_by bytes => bytes.length

/-- The text that well-formed bytes spell. -/
def text? (bytes : Bytes) : Option String := String.fromUTF8? ⟨bytes.toArray⟩

/-- The bytes of a text. -/
def encode (text : String) : Bytes := text.toByteArray.data.toList

/-- The characters of a file; well-formed text is taken as it is. -/
def symbols (bytes : Bytes) : List (Option Char) :=
  match text? bytes with
  | some text => text.toList.map some
  | none => decode bytes

/-- The text of the bytes, with U+FFFD for each ill-formed stretch. -/
def lossy (bytes : Bytes) : String :=
  match text? bytes with
  | some text => text
  | none => String.ofList ((decode bytes).map (·.getD (Char.ofNat 0xFFFD)))

@[simp] theorem text?_encode (text : String) : text? (encode text) = some text := by
  have h : text.toByteArray.IsValidUTF8 := text.isValidUTF8
  simp [text?, encode, String.fromUTF8?, h, String.fromUTF8]

@[simp] theorem symbols_encode (text : String) :
    symbols (encode text) = text.toList.map some := by
  simp [symbols]

@[simp] theorem lossy_encode (text : String) : lossy (encode text) = text := by
  simp [lossy]

end Utf8

namespace Utf16

/-- A unit that opens a surrogate pair. -/
def isHigh (unit : Nat) : Bool := 0xD800 ≤ unit && unit < 0xDC00

/-- A unit that closes a surrogate pair. -/
def isLow (unit : Nat) : Bool := 0xDC00 ≤ unit && unit < 0xE000

/-- The code point of a surrogate pair. -/
def pair (high low : Nat) : Nat := 0x10000 + (high - 0xD800) * 0x400 + (low - 0xDC00)

/-- The one or two units of a character. -/
def ofChar (c : Char) : List Nat :=
  if c.toNat < 0x10000 then [c.toNat]
  else [0xD800 + (c.toNat - 0x10000) / 0x400, 0xDC00 + (c.toNat - 0x10000) % 0x400]

/-- The units of a text. -/
def units (text : List Char) : List Nat := text.flatMap ofChar

/-- The characters of well-formed units. A value that is no unit but a code point above U+FFFF
stands for its character. -/
def text? : List Nat → Option (List Char)
  | [] => some []
  | unit :: rest =>
    if isHigh unit then
      match rest with
      | low :: rest' =>
        if isLow low then (text? rest').map (Char.ofNat (pair unit low) :: ·) else none
      | [] => none
    else if isLow unit then none
    else (text? rest).map (Char.ofNat unit :: ·)

end Utf16

end MutationTesting
