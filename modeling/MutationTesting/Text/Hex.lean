import MutationTesting.Text.Utf8
import MutationTesting.Decimal.Digits
/-!
# Hexadecimal text of bytes

Two digits a byte, in lower case when written and in either case when read.
-/

namespace MutationTesting.Hex

open Decimal

/-- The digits of the bytes. -/
def encode (bytes : Bytes) : String := String.ofList (bytes.flatMap fun b => paddedHex 2 b.toNat)

/-- The bytes that pairs of digits denote. -/
def decodeChars? : List Char → Option Bytes
  | [] => some []
  | [_] => none
  | a :: b :: rest => do
    let high ← hexValue? a
    let low ← hexValue? b
    let bytes ← decodeChars? rest
    some (UInt8.ofNat (high * 16 + low) :: bytes)

/-- The bytes that a text of pairs of digits denotes. -/
def decode? (text : String) : Option Bytes := decodeChars? text.toList

end MutationTesting.Hex
