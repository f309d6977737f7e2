import MutationTesting.Class.Opcode
import MutationTesting.Decimal.Binary
/-!
# Instructions

The code of a method as a stream: instructions with their operands, and between them labels and
line markers, which are no instructions but mark places. Jumps, switches, line markers and ranges
refer to labels of the same stream.

## Main definitions

* `Constant`, `Member`, `Instruction`
* `Instruction.opcode?` — the operation of an instruction, none for a mark
-/

namespace MutationTesting

open Decimal

/-- The number of a place in a stream. -/
abbrev Label := UInt32

/-- A constant that code can load. -/
inductive Constant where
  | int (value : Int32)
  | long (value : Int64)
  | float (value : Binary32)
  | double (value : Binary64)
  | string (value : String)
  | type (value : String)
  deriving DecidableEq

/-- The text of a string constant. -/
def Constant.text? : Constant → Option String
  | .string s => some s
  | _ => none

/-- A reference to a field or method. -/
structure Member where
  owner : String
  name : String
  descriptor : String
  deriving DecidableEq

/-- An item of a stream. -/
inductive Instruction where
  /-- An operation without operands. -/
  | simple (op : Opcode)
  /-- An operation with a number. -/
  | immediate (op : Opcode) (operand : Int32)
  /-- An operation on a local variable. -/
  | slot (op : Opcode) (slot : UInt16)
  /-- Adds a number to a local variable. -/
  | increment (slot : UInt16) (delta : Int16)
  /-- An operation with a type. -/
  | typed (op : Opcode) (descriptor : String)
  /-- Access to a field. -/
  | field (op : Opcode) (member : Member)
  /-- A call of a method. -/
  | call (op : Opcode) (member : Member) (interface : Bool)
  /-- A call whose target a bootstrap method finds. -/
  | callDynamic (name descriptor : String) (bootstrapArguments : List Constant)
  | jump (op : Opcode) (target : Label)
  /-- Loads a constant. -/
  | load (value : Constant)
  | tableSwitch (min max : Int32) (default : Label) (targets : List Label)
  | lookupSwitch (default : Label) (keys : List Int32) (targets : List Label)
  /-- Makes an array of several dimensions. -/
  | newArrays (descriptor : String) (dims : UInt8)
  /-- Marks a place. -/
  | label (label : Label)
  /-- The code from a label on belongs to a source line. -/
  | line (line : UInt32) (start : Label)
  deriving DecidableEq

namespace Instruction

/-- Loads a text. -/
def loadText (s : String) : Instruction := .load (.string s)

/-- The operation of an instruction; labels and line markers have none. -/
def opcode? : Instruction → Option Opcode
  | .simple op => some op
  | .immediate op _ => some op
  | .slot op _ => some op
  | .increment _ _ => some .iinc
  | .typed op _ => some op
  | .field op _ => some op
  | .call op _ _ => some op
  | .callDynamic _ _ _ => some .invokedynamic
  | .jump op _ => some op
  | .load _ => some .ldc
  | .tableSwitch _ _ _ _ => some .tableswitch
  | .lookupSwitch _ _ _ => some .lookupswitch
  | .newArrays _ _ => some .multianewarray
  | .label _ => none
  | .line _ _ => none

/-- The item only marks a place. -/
def isMark (i : Instruction) : Bool := i.opcode?.isNone

/-- The label that the item defines. -/
def definedLabel? : Instruction → Option Label
  | .label l => some l
  | _ => none

/-- The source line that the item names. -/
def sourceLine? : Instruction → Option UInt32
  | .line n _ => some n
  | _ => none

end Instruction

end MutationTesting
