/-!
# Opcodes

The operations of the stack machine that class artifacts hold code for. Each has one name, used in
artifacts and in listings alike.

## Main definitions

* `Opcode`, `Opcode.name`, `Opcode.ofName?`
* `Opcode.isReturn`

## Main statements

* `ofName?_name` — names are unambiguous
-/

namespace MutationTesting

/-- An operation of the stack machine. -/
inductive Opcode where
  | nop
  | aconstNull
  | iconstM1
  | iconst0
  | iconst1
  | iconst2
  | iconst3
  | iconst4
  | iconst5
  | lconst0
  | lconst1
  | dconst0
  | dconst1
  | bipush
  | sipush
  | ldc
  | iload
  | lload
  | fload
  | dload
  | aload
  | iaload
  | aaload
  | baload
  | istore
  | lstore
  | fstore
  | dstore
  | astore
  | iastore
  | aastore
  | bastore
  | pop
  | pop2
  | dup
  | dupX1
  | dup2
  | swap
  | iadd
  | ladd
  | dadd
  | isub
  | lsub
  | dsub
  | imul
  | lmul
  | idiv
  | ldiv
  | irem
  | ineg
  | iand
  | ior
  | ixor
  | iinc
  | i2l
  | l2i
  | lcmp
  | dcmpl
  | dcmpg
  | ifeq
  | ifne
  | iflt
  | ifge
  | ifgt
  | ifle
  | ifIcmpeq
  | ifIcmpne
  | ifIcmplt
  | ifIcmpge
  | ifIcmpgt
  | ifIcmple
  | ifAcmpeq
  | ifAcmpne
  | goto
  | tableswitch
  | lookupswitch
  | ireturn
  | lreturn
  | freturn
  | dreturn
  | areturn
  | returnVoid
  | getstatic
  | putstatic
  | getfield
  | putfield
  | invokevirtual
  | invokespecial
  | invokestatic
  | invokeinterface
  | invokedynamic
  | newObject
  | newarray
  | anewarray
  | arraylength
  | athrow
  | checkcast
  | instanceOf
  | monitorenter
  | monitorexit
  | multianewarray
  | ifnull
  | ifnonnull
  deriving DecidableEq, Repr

namespace Opcode

/-- The name of an operation. -/
def name : Opcode → String
  | .nop => "nop"
  | .aconstNull => "aconst_null"
  | .iconstM1 => "iconst_m1"
  | .iconst0 => "iconst0"
  | .iconst1 => "iconst1"
  | .iconst2 => "iconst2"
  | .iconst3 => "iconst3"
  | .iconst4 => "iconst4"
  | .iconst5 => "iconst5"
  | .lconst0 => "lconst0"
  | .lconst1 => "lconst1"
  | .dconst0 => "dconst0"
  | .dconst1 => "dconst1"
  | .bipush => "bipush"
  | .sipush => "sipush"
  | .ldc => "ldc"
  | .iload => "iload"
  | .lload => "lload"
  | .fload => "fload"
  | .dload => "dload"
  | .aload => "aload"
  | .iaload => "iaload"
  | .aaload => "aaload"
  | .baload => "baload"
  | .istore => "istore"
  | .lstore => "lstore"
  | .fstore => "fstore"
  | .dstore => "dstore"
  | .astore => "astore"
  | .iastore => "iastore"
  | .aastore => "aastore"
  | .bastore => "bastore"
  | .pop => "pop"
  | .pop2 => "pop2"
  | .dup => "dup"
  | .dupX1 => "dup_x1"
  | .dup2 => "dup2"
  | .swap => "swap"
  | .iadd => "iadd"
  | .ladd => "ladd"
  | .dadd => "dadd"
  | .isub => "isub"
  | .lsub => "lsub"
  | .dsub => "dsub"
  | .imul => "imul"
  | .lmul => "lmul"
  | .idiv => "idiv"
  | .ldiv => "ldiv"
  | .irem => "irem"
  | .ineg => "ineg"
  | .iand => "iand"
  | .ior => "ior"
  | .ixor => "ixor"
  | .iinc => "iinc"
  | .i2l => "i2l"
  | .l2i => "l2i"
  | .lcmp => "lcmp"
  | .dcmpl => "dcmpl"
  | .dcmpg => "dcmpg"
  | .ifeq => "ifeq"
  | .ifne => "ifne"
  | .iflt => "iflt"
  | .ifge => "ifge"
  | .ifgt => "ifgt"
  | .ifle => "ifle"
  | .ifIcmpeq => "if_icmpeq"
  | .ifIcmpne => "if_icmpne"
  | .ifIcmplt => "if_icmplt"
  | .ifIcmpge => "if_icmpge"
  | .ifIcmpgt => "if_icmpgt"
  | .ifIcmple => "if_icmple"
  | .ifAcmpeq => "if_acmpeq"
  | .ifAcmpne => "if_acmpne"
  | .goto => "goto"
  | .tableswitch => "tableswitch"
  | .lookupswitch => "lookupswitch"
  | .ireturn => "ireturn"
  | .lreturn => "lreturn"
  | .freturn => "freturn"
  | .dreturn => "dreturn"
  | .areturn => "areturn"
  | .returnVoid => "return"
  | .getstatic => "getstatic"
  | .putstatic => "putstatic"
  | .getfield => "getfield"
  | .putfield => "putfield"
  | .invokevirtual => "invokevirtual"
  | .invokespecial => "invokespecial"
  | .invokestatic => "invokestatic"
  | .invokeinterface => "invokeinterface"
  | .invokedynamic => "invokedynamic"
  | .newObject => "new"
  | .newarray => "newarray"
  | .anewarray => "anewarray"
  | .arraylength => "arraylength"
  | .athrow => "athrow"
  | .checkcast => "checkcast"
  | .instanceOf => "instanceof"
  | .monitorenter => "monitorenter"
  | .monitorexit => "monitorexit"
  | .multianewarray => "multianewarray"
  | .ifnull => "ifnull"
  | .ifnonnull => "ifnonnull"

/-- Every operation. -/
def all : List Opcode := [
  .nop, .aconstNull, .iconstM1, .iconst0, .iconst1, .iconst2, .iconst3, .iconst4, .iconst5,
  .lconst0, .lconst1, .dconst0, .dconst1, .bipush, .sipush, .ldc, .iload, .lload, .fload, .dload,
  .aload, .iaload, .aaload, .baload, .istore, .lstore, .fstore, .dstore, .astore, .iastore,
  .aastore, .bastore, .pop, .pop2, .dup, .dupX1, .dup2, .swap, .iadd, .ladd, .dadd, .isub, .lsub,
  .dsub, .imul, .lmul, .idiv, .ldiv, .irem, .ineg, .iand, .ior, .ixor, .iinc, .i2l, .l2i, .lcmp,
  .dcmpl, .dcmpg, .ifeq, .ifne, .iflt, .ifge, .ifgt, .ifle, .ifIcmpeq, .ifIcmpne, .ifIcmplt,
  .ifIcmpge, .ifIcmpgt, .ifIcmple, .ifAcmpeq, .ifAcmpne, .goto, .tableswitch, .lookupswitch,
  .ireturn, .lreturn, .freturn, .dreturn, .areturn, .returnVoid, .getstatic, .putstatic,
  .getfield, .putfield, .invokevirtual, .invokespecial, .invokestatic, .invokeinterface,
  .invokedynamic, .newObject, .newarray, .anewarray, .arraylength, .athrow, .checkcast,
  .instanceOf, .monitorenter, .monitorexit, .multianewarray, .ifnull, .ifnonnull]

/-- The operation of the given name. -/
def ofName? (s : String) : Option Opcode := all.find? (·.name == s)

/-- The operation ends its method by returning. -/
def isReturn : Opcode → Bool
  | .ireturn | .lreturn | .freturn | .dreturn | .areturn | .returnVoid => true
  | _ => false

theorem mem_all (op : Opcode) : op ∈ all := by
  cases op <;> decide

@[simp] theorem ofName?_name (op : Opcode) : ofName? op.name = some op := by
  have h : ∀ op ∈ all, ofName? op.name = some op := by decide +kernel
  exact h op (mem_all op)

end Opcode

end MutationTesting
