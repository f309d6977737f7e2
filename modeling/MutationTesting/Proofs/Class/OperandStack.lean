import MutationTesting.Proofs.Class.Descriptor
/-!
# The operand stack

What an instruction takes from the operand stack and what it puts there, as far as the sizes of the
values go: a value takes one slot or two. An instruction can be executed on a stack if the values
that it takes are on top, each in its size; so nothing is taken from an empty stack, and nothing
takes one half of a value. Some operations count slots and not values, and have an effect for each
way to fill them.

## Main definitions

* `Width`, `OperandStack`, `StackEffect`
* `Opcode.effects`, `Instruction.effects` — the effects of the machine's operations
* `Instruction.execute?`, `executeAll?` — the stack after an instruction and after several

## Main results

* `StackEffect.after?_eq_some_iff`
* `executeAll?_append`
-/

namespace MutationTesting

open Decimal

/-! ### Sizes -/

/-- How many slots a value takes. -/
inductive Width where
  | single
  | double
  deriving DecidableEq

/-- Sizes of the values on a stack, topmost first. -/
abbrev OperandStack := List Width

/-- The size of the values of a type. -/
def FieldType.width : FieldType → Width
  | .primitive .long => .double
  | .primitive .double => .double
  | _ => .single

/-- The size of a constant. -/
def Constant.width : Constant → Width
  | .long _ => .double
  | .double _ => .double
  | _ => .single

/-! ### Effects -/

/-- What is taken from the stack and then put there, topmost first. -/
structure StackEffect where
  takes : OperandStack
  puts : OperandStack
  deriving DecidableEq

namespace StackEffect

/-- The stack after an effect, if what is to be taken is on top. -/
def after? (e : StackEffect) (stack : OperandStack) : Option OperandStack :=
  if e.takes <+: stack then some (e.puts ++ stack.drop e.takes.length) else none

@[simp] theorem after?_append (e : StackEffect) (rest : OperandStack) :
    e.after? (e.takes ++ rest) = some (e.puts ++ rest) := by
  rw [after?, if_pos (List.prefix_append _ _), List.drop_left]

/-- **An effect** replaces what it takes on top of a stack, and leaves the rest. -/
theorem after?_eq_some_iff {e : StackEffect} {stack after : OperandStack} :
    e.after? stack = some after ↔ ∃ rest, stack = e.takes ++ rest ∧ after = e.puts ++ rest := by
  constructor
  · intro h
    rw [after?] at h
    split at h
    · next htakes =>
      obtain ⟨rest, rfl⟩ := htakes
      rw [List.drop_left] at h
      exact ⟨rest, rfl, (Option.some.inj h).symm⟩
    · cases h
  · rintro ⟨rest, rfl, rfl⟩
    exact e.after?_append rest

end StackEffect

/-- The effects of an operation that do not depend on a member or a constant; where there are
several, one at most applies to a stack. What a return leaves goes with the frame. -/
def Opcode.effects : Opcode → List StackEffect
  | .nop | .iinc | .goto | .returnVoid => [⟨[], []⟩]
  | .aconstNull | .iconstM1 | .iconst0 | .iconst1 | .iconst2 | .iconst3 | .iconst4 | .iconst5
  | .bipush | .sipush | .iload | .fload | .aload | .newObject => [⟨[], [.single]⟩]
  | .lconst0 | .lconst1 | .dconst0 | .dconst1 | .lload | .dload => [⟨[], [.double]⟩]
  | .iaload | .aaload | .baload => [⟨[.single, .single], [.single]⟩]
  | .istore | .fstore | .astore | .pop => [⟨[.single], []⟩]
  | .lstore | .dstore => [⟨[.double], []⟩]
  | .iastore | .aastore | .bastore => [⟨[.single, .single, .single], []⟩]
  | .pop2 => [⟨[.single, .single], []⟩, ⟨[.double], []⟩]
  | .dup => [⟨[.single], [.single, .single]⟩]
  | .dupX1 => [⟨[.single, .single], [.single, .single, .single]⟩]
  | .dup2 =>
    [⟨[.single, .single], [.single, .single, .single, .single]⟩, ⟨[.double], [.double, .double]⟩]
  | .swap => [⟨[.single, .single], [.single, .single]⟩]
  | .iadd | .isub | .imul | .idiv | .irem | .iand | .ior | .ixor =>
    [⟨[.single, .single], [.single]⟩]
  | .ladd | .dadd | .lsub | .dsub | .lmul | .ldiv => [⟨[.double, .double], [.double]⟩]
  | .ineg | .newarray | .anewarray | .arraylength | .checkcast | .instanceOf =>
    [⟨[.single], [.single]⟩]
  | .i2l => [⟨[.single], [.double]⟩]
  | .l2i => [⟨[.double], [.single]⟩]
  | .lcmp | .dcmpl | .dcmpg => [⟨[.double, .double], [.single]⟩]
  | .ifeq | .ifne | .iflt | .ifge | .ifgt | .ifle | .ifnull | .ifnonnull | .tableswitch
  | .lookupswitch | .ireturn | .freturn | .areturn | .athrow | .monitorenter | .monitorexit =>
    [⟨[.single], []⟩]
  | .ifIcmpeq | .ifIcmpne | .ifIcmplt | .ifIcmpge | .ifIcmpgt | .ifIcmple | .ifAcmpeq
  | .ifAcmpne => [⟨[.single, .single], []⟩]
  | .lreturn | .dreturn => [⟨[.double], []⟩]
  | .ldc | .getstatic | .putstatic | .getfield | .putfield | .invokevirtual | .invokespecial
  | .invokestatic | .invokeinterface | .invokedynamic | .multianewarray => []

/-- The receiver that a call takes; none for operations that do not call a method. -/
def Opcode.receiver? : Opcode → Option OperandStack
  | .invokestatic => some []
  | .invokevirtual | .invokespecial | .invokeinterface => some [.single]
  | _ => none

/-- The effect of a call: the last parameter is on top and the receiver below the first. -/
def MethodType.effect (t : MethodType) (receiver : OperandStack) : StackEffect where
  takes := (t.parameters.map FieldType.width).reverse ++ receiver
  puts := t.result.toList.map FieldType.width

/-- The effect of an access to a field; none for other operations. -/
def FieldType.effects (t : FieldType) : Opcode → List StackEffect
  | .getstatic => [⟨[], [t.width]⟩]
  | .putstatic => [⟨[t.width], []⟩]
  | .getfield => [⟨[.single], [t.width]⟩]
  | .putfield => [⟨[t.width, .single], []⟩]
  | _ => []

namespace Instruction

/-- The effects of an item; where there are several, one at most applies to a stack. An instruction
with a malformed descriptor has none. -/
def effects : Instruction → List StackEffect
  | .simple op => op.effects
  | .immediate op _ => op.effects
  | .slot op _ => op.effects
  | .increment _ _ => Opcode.iinc.effects
  | .typed op _ => op.effects
  | .field op m => ((FieldType.ofText? m.descriptor.toList).map (·.effects op)).getD []
  | .call op m _ =>
    match op.receiver?, MethodType.ofDescriptor? m.descriptor with
    | some receiver, some t => [t.effect receiver]
    | _, _ => []
  | .callDynamic _ d _ => (MethodType.ofDescriptor? d).toList.map (·.effect [])
  | .jump op _ => op.effects
  | .load value => [⟨[], [value.width]⟩]
  | .tableSwitch _ _ _ _ => Opcode.tableswitch.effects
  | .lookupSwitch _ _ _ => Opcode.lookupswitch.effects
  | .newArrays _ dims => [⟨List.replicate dims.toNat .single, [.single]⟩]
  | .label _ => [⟨[], []⟩]
  | .line _ _ => [⟨[], []⟩]

/-- The stack after an item, if the item can be executed on the stack. -/
def execute? (i : Instruction) (stack : OperandStack) : Option OperandStack :=
  i.effects.findSome? (·.after? stack)

section

variable {i : Instruction} {e : StackEffect} {stack after : OperandStack}

theorem execute?_append {more : List StackEffect} (h : i.effects = e :: more)
    (rest : OperandStack) : i.execute? (e.takes ++ rest) = some (e.puts ++ rest) := by
  rw [execute?, h, List.findSome?_cons, e.after?_append]

/-- An item with one effect replaces what it takes by what it puts. -/
theorem execute?_eq_some_iff (h : i.effects = [e]) :
    i.execute? stack = some after ↔ ∃ rest, stack = e.takes ++ rest ∧ after = e.puts ++ rest := by
  rw [execute?, h, List.findSome?_cons, List.findSome?_nil, ← StackEffect.after?_eq_some_iff]
  cases e.after? stack <;> rfl

@[simp] theorem execute?_pop (rest : OperandStack) :
    (simple .pop).execute? (.single :: rest) = some rest :=
  execute?_append (e := ⟨[.single], []⟩) rfl rest

@[simp] theorem execute?_pop2 (rest : OperandStack) :
    (simple .pop2).execute? (.double :: rest) = some rest :=
  (StackEffect.after?_append ⟨[.double], []⟩ rest :)

@[simp] theorem execute?_dup (rest : OperandStack) :
    (simple .dup).execute? (.single :: rest) = some (.single :: .single :: rest) :=
  execute?_append (e := ⟨[.single], [.single, .single]⟩) rfl rest

@[simp] theorem execute?_swap (rest : OperandStack) :
    (simple .swap).execute? (.single :: .single :: rest) = some (.single :: .single :: rest) :=
  execute?_append (e := ⟨[.single, .single], [.single, .single]⟩) rfl rest

@[simp] theorem execute?_iconst0 (rest : OperandStack) :
    (simple .iconst0).execute? rest = some (.single :: rest) :=
  execute?_append (e := ⟨[], [.single]⟩) rfl rest

@[simp] theorem execute?_iconst1 (rest : OperandStack) :
    (simple .iconst1).execute? rest = some (.single :: rest) :=
  execute?_append (e := ⟨[], [.single]⟩) rfl rest

@[simp] theorem execute?_load (value : Constant) (rest : OperandStack) :
    (load value).execute? rest = some (value.width :: rest) :=
  execute?_append (e := ⟨[], [value.width]⟩) rfl rest

@[simp] theorem execute?_loadText (s : String) (rest : OperandStack) :
    (loadText s).execute? rest = some (.single :: rest) :=
  execute?_load (.string s) rest

@[simp] theorem execute?_aload (n : UInt16) (rest : OperandStack) :
    (slot .aload n).execute? rest = some (.single :: rest) :=
  execute?_append (e := ⟨[], [.single]⟩) rfl rest

/-- A call that can be executed calls a method, and its descriptor is that of a type. -/
theorem exists_of_execute?_call {op : Opcode} {m : Member} {interface : Bool}
    (h : (call op m interface).execute? stack = some after) :
    ∃ receiver t,
      op.receiver? = some receiver ∧ MethodType.ofDescriptor? m.descriptor = some t := by
  cases hop : op.receiver? with
  | none => simp [execute?, effects, hop] at h
  | some receiver =>
    cases ht : MethodType.ofDescriptor? m.descriptor with
    | none => simp [execute?, effects, hop, ht] at h
    | some t => exact ⟨receiver, t, rfl, rfl⟩

theorem effects_call {op : Opcode} {m : Member} {interface : Bool} {receiver : OperandStack}
    {t : MethodType} (hop : op.receiver? = some receiver)
    (ht : MethodType.ofDescriptor? m.descriptor = some t) :
    (call op m interface).effects = [t.effect receiver] := by
  simp only [effects, hop, ht]

end

end Instruction

/-! ### Several items -/

/-- The stack after some items, one after the other. -/
def executeAll? : List Instruction → OperandStack → Option OperandStack
  | [], stack => some stack
  | i :: code, stack => (i.execute? stack).bind (executeAll? code)

@[simp] theorem executeAll?_nil : executeAll? [] = some := rfl

@[simp] theorem executeAll?_cons (i : Instruction) (code : List Instruction)
    (stack : OperandStack) :
    executeAll? (i :: code) stack = (i.execute? stack).bind (executeAll? code) := rfl

@[simp] theorem executeAll?_append (first rest : List Instruction) (stack : OperandStack) :
    executeAll? (first ++ rest) stack = (executeAll? first stack).bind (executeAll? rest) := by
  induction first generalizing stack with
  | nil => rfl
  | cons i first ih =>
    rw [List.cons_append, executeAll?_cons, executeAll?_cons, Option.bind_assoc]
    exact Option.bind_congr fun next _ => ih next

end MutationTesting
