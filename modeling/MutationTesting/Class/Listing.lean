import MutationTesting.Class.Basic
import MutationTesting.Decimal.Shortest
import MutationTesting.Text.Hidden
/-!
# Listings

The code of a method as lines of text, one for each item of the stream. Text constants stand in
quotes with what cannot be seen written as escapes, so that a listing has one line per item.

## Main definitions

* `Quoted.text` — a text constant
* `Instruction.listing`, `Method.listing`
-/

namespace MutationTesting

open Decimal

namespace Quoted

/-- A character of a quoted text. -/
def char (c : Char) : List Char :=
  match c with
  | '\x00' => ['\\', '0']
  | '\t' => ['\\', 't']
  | '\n' => ['\\', 'n']
  | '\r' => ['\\', 'r']
  | '"' => ['\\', '"']
  | '\\' => ['\\', '\\']
  | c => if isHidden c then ['\\', 'u', '{'] ++ hexText c.toNat ++ ['}'] else [c]

/-- A text in quotes, hidden characters as escapes. -/
def text (s : String) : List Char := '"' :: s.toList.flatMap char ++ ['"']

end Quoted

/-- A label as listings name it. -/
def labelText (l : Label) : List Char := 'L' :: natText l.toNat

/-- The items of a list with commas between them, in brackets. -/
def bracketed (items : List (List Char)) : List Char :=
  '[' :: List.intercalate [',', ' '] items ++ [']']

/-- A constant; a letter tells numbers of different width apart. -/
def Constant.listing : Constant → List Char
  | .int v => intText v.toInt
  | .long v => intText v.toInt ++ ['L']
  | .float v => v.positional ++ ['F']
  | .double v => v.positional ++ ['D']
  | .string s => Quoted.text s
  | .type t => t.toList ++ ".class".toList

/-- Words with a space between them. -/
def spaced (parts : List (List Char)) : List Char := List.intercalate [' '] parts

/-- A member as listings name it. -/
def Member.listing (m : Member) : List Char :=
  m.owner.toList ++ '.' :: m.name.toList ++ ' ' :: m.descriptor.toList

namespace Instruction

/-- Operation and operands of an instruction. -/
def words : Instruction → List (List Char)
  | .simple op => [op.name.toList]
  | .immediate op n => [op.name.toList, intText n.toInt]
  | .slot op n => [op.name.toList, natText n.toNat]
  | .increment n d => ["iinc".toList, natText n.toNat, intText d.toInt]
  | .typed op d => [op.name.toList, d.toList]
  | .field op m => [op.name.toList, m.listing]
  | .call op m _ => [op.name.toList, m.listing]
  | .callDynamic name d _ => ["invokedynamic".toList, name.toList, d.toList]
  | .jump op l => [op.name.toList, labelText l]
  | .load v => ["ldc".toList, v.listing]
  | .tableSwitch min max l _ =>
    ["tableswitch".toList, intText min.toInt ++ '.' :: '.' :: intText max.toInt,
      "default".toList, labelText l]
  | .lookupSwitch l keys _ =>
    ["lookupswitch".toList, bracketed (keys.map fun k => intText k.toInt), "default".toList,
      labelText l]
  | .newArrays d dims => ["multianewarray".toList, d.toList, natText dims.toNat]
  | .label l => [labelText l]
  | .line n l => ["line".toList, natText n.toNat, labelText l]

/-- The line of an item: instructions are indented by four spaces, line markers by two and labels
not at all. -/
def listing (i : Instruction) : List Char :=
  match i with
  | .label _ => spaced i.words ++ [':']
  | .line _ _ => ' ' :: ' ' :: spaced i.words
  | _ => ' ' :: ' ' :: ' ' :: ' ' :: spaced i.words

end Instruction

/-- Signature and code of a method, a line for each. -/
def Method.listing (m : Method) : List Char :=
  m.signature.toList ++ '\n' :: m.instructions.flatMap fun i => i.listing ++ ['\n']

end MutationTesting
