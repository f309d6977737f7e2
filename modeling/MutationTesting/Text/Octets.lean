import MutationTesting.Text.Utf8
/-!
# Octets

Texts of programs that look at bytes and not at characters: each character of such a text stands
for the byte with its number. Names of files, arguments of programs and scripts are of this kind.

Such texts are shown between quotes. In messages a text stands between quotes as it is, with
backslashes before what could be misread. The name of a file is shown as a shell reads it: what does
not print is written in a form of its own, and a name without anything special needs no quotes.

## Main definitions

* `Octets`, `Octets.ofBytes`, `Octets.bytes`
* `Octets.ofString`, `Octets.text?`, `Octets.text` — through UTF-8
* `Octets.precedes` — their order
* `Quote.inMessage` — a text in a message
* `Quote.inShell` — a name as a shell reads it, between quotes in any case
* `Quote.inShellIfNeeded`, `Quote.beforeColon` — between quotes only if it has to be

## Main statements

* `bytes_ofBytes`, `text?_ofString`, `text_ofString` — nothing is lost
-/

namespace MutationTesting

/-- A text whose characters stand for bytes. -/
abbrev Octets := List Char

namespace Octets

/-- The character that stands for a byte. -/
def ofByte (b : UInt8) : Char := Char.ofNat b.toNat

/-- The byte that a character stands for. -/
def byte (c : Char) : UInt8 := UInt8.ofNat c.toNat

/-- Bytes as a text. -/
def ofBytes (content : Bytes) : Octets := content.map ofByte

/-- The bytes of a text. -/
def bytes (text : Octets) : Bytes := text.map byte

/-- The octets of a text in UTF-8. -/
def ofString (text : String) : Octets := ofBytes (Utf8.encode text)

/-- The text that octets are in UTF-8, if they are one. -/
def text? (octets : Octets) : Option String := Utf8.text? octets.bytes

/-- The text that octets are in UTF-8, with a mark in the place of what is ill-formed. -/
def text (octets : Octets) : String := Utf8.lossy octets.bytes

/-- A text comes before another one, or is the same; their octets are compared one after the other.
-/
def precedes (a b : Octets) : Bool := !decide (b < a)

/-- The number of the character with a number is that number. -/
theorem toNat_charOfNat {n : Nat} (h : n.isValidChar) : (Char.ofNat n).toNat = n := by
  unfold Char.ofNat
  rw [dif_pos h]
  rfl

/-- A byte is found again behind its character. -/
@[simp] theorem byte_ofByte (b : UInt8) : byte (ofByte b) = b := by
  have h : b.toNat < 256 := b.toNat_lt
  have valid : b.toNat.isValidChar := Or.inl (by omega)
  rw [byte, ofByte, toNat_charOfNat valid, UInt8.ofNat_toNat]

@[simp] theorem bytes_ofBytes (content : Bytes) : bytes (ofBytes content) = content := by
  simp [bytes, ofBytes, Function.comp_def]

@[simp] theorem text?_ofString (text : String) : (ofString text).text? = some text := by
  simp [Octets.text?, ofString]

@[simp] theorem text_ofString (text : String) : (ofString text).text = text := by
  simp [Octets.text, ofString]

end Octets

/-! ### Quotes -/

namespace Quote

/-- The character prints. -/
def isPrinted (c : Char) : Bool := ' ' ≤ c && c ≤ '~'

/-- A character in the writing for those that do not print. -/
def escape (c : Char) : Octets :=
  match c with
  | '\x07' => ['\\', 'a']
  | '\x08' => ['\\', 'b']
  | '\t' => ['\\', 't']
  | '\n' => ['\\', 'n']
  | '\x0b' => ['\\', 'v']
  | '\x0c' => ['\\', 'f']
  | '\r' => ['\\', 'r']
  | _ =>
    let digits := Nat.toDigits 8 c.toNat
    '\\' :: List.replicate (3 - digits.length) '0' ++ digits

/-- The characters of a text, with a backslash before those that are in a list. -/
def escaped (special : List Char) (text : Octets) : Octets :=
  text.flatMap fun c =>
    if special.contains c then ['\\', c] else if isPrinted c then [c] else escape c

/-- A text in a message. -/
def inMessage (text : Octets) : Octets := '\'' :: escaped ['\'', '\\'] text ++ ['\'']

/-- A character means the same to a shell between either kind of quotes. -/
def isHarmless (c : Char) : Bool := c.isAlphanum || " '%+,-./:]_".toList.contains c

/-- What stands between quotes; the first argument says that the last character did not print. -/
def shellBody : Bool → Octets → Octets
  | _, [] => []
  | afterEscape, c :: rest =>
    if c = '\'' then ['\'', '\\', '\'', '\''] ++ shellBody false rest
    else if isPrinted c then (if afterEscape then ['\'', '\''] else []) ++ c :: shellBody false rest
    else (if afterEscape then [] else ['\'', '$', '\'']) ++ escape c ++ shellBody true rest

/-- A name as a shell reads it, between quotes. -/
def inShell (text : Octets) : Octets :=
  if text.contains '\'' && text.all isHarmless then '"' :: text ++ ['"']
  else '\'' :: shellBody false text ++ ['\'']

/-- A shell would take a text for something else. -/
def isSpecial (text : Octets) : Bool :=
  let isMark (c : Char) : Bool := !isPrinted c || " !\"$&()*;<=>?[\\^`|'".toList.contains c
  text.isEmpty || text.any isMark || text.head?.any ['#', '~'].contains
    || text = ['\x7b'] || text = ['\x7d']

/-- A name as a shell reads it. -/
def inShellIfNeeded (text : Octets) : Octets := if isSpecial text then inShell text else text

/-- A name as a shell reads it, such that a colon can follow. -/
def beforeColon (text : Octets) : Octets :=
  if isSpecial text || text.contains ':' then inShell text else text

end Quote

end MutationTesting
