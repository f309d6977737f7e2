import MutationTesting.Text.Utf8
import MutationTesting.Decimal.Digits
/-!
# Execution data

What a coverage file holds: the sessions in which it was collected, and for each class the probes
that were hit.

## Main definitions

* `SessionInfo`, `ExecutionRecord`, `ExecutionData`
* `CoverageError` — why bytes are no coverage file
-/

namespace MutationTesting

open Decimal

/-- A time in which data was collected. -/
structure SessionInfo where
  id : String
  start : Int64
  dump : Int64
  deriving DecidableEq

/-- The probes of a class. -/
structure ExecutionRecord where
  id : Int64
  /-- The name with slashes between its parts. -/
  name : String
  probes : List Bool
  deriving DecidableEq

/-- Some probe was hit. -/
def ExecutionRecord.anyHit (r : ExecutionRecord) : Bool := r.probes.any (· == true)

/-- The content of a coverage file. -/
structure ExecutionData where
  sessions : List SessionInfo
  records : List ExecutionRecord
  deriving DecidableEq

/-- Why bytes are no coverage file. Offsets count bytes from the beginning. -/
inductive CoverageError where
  /-- The file, or a header in it, begins with other bytes. -/
  | badMagic (found : Bytes)
  | unsupportedVersion (version : Nat)
  /-- The data ends, or a number is too long, at the offset. -/
  | truncated (offset : Nat)
  | unknownBlock (kind : UInt8) (offset : Nat)
  /-- The bytes of a string denote no text. -/
  | badString (offset : Nat)
  deriving DecidableEq

/-- What is wrong, in words. -/
def CoverageError.message : CoverageError → String
  | .badMagic found =>
    "output is not a valid coverage file (magic ["
      ++ ", ".intercalate (found.map fun b => String.ofList (paddedHex 2 b.toNat)) ++ "])"
  | .unsupportedVersion v =>
    "unsupported execution data version 0x" ++ String.ofList (paddedHex 4 v)
  | .truncated n => "truncated execution data at offset " ++ toString n
  | .unknownBlock kind n =>
    "unknown block type 0x" ++ String.ofList (paddedHex 2 kind.toNat) ++ " at offset " ++ toString n
  | .badString n => "malformed string at offset " ++ toString n

end MutationTesting
