import MutationTesting.Mutation.Policy
import MutationTesting.Proofs.Class.ArgumentSize
/-!
# Calls are removed with their operands

Where a call is removed its operands are still on the stack: the arguments, the last one on top, and
below the first one the receiver, if the method has one. They are removed one after the other, each
by an instruction of its own, and nothing else is.

Here a stack holds values of any kind, so that it can be said which of them are removed; the sizes
of the values are those of the operand stack.

## Main definitions

* `Instruction.remove?`, `removeAll?` — the values left by instructions that only remove some
* `Width.removal` — the operation that removes one value

## Main results

* `Instruction.execute?_map_width` — removals as seen by the sizes
* `removed_call_takes_its_operands`
-/

namespace MutationTesting

variable {α : Type} (width : α → Width)

/-! ### Removals -/

/-- The values after an effect that puts nothing on the stack, if what is to be taken is on top. -/
def StackEffect.remove? (e : StackEffect) (stack : List α) : Option (List α) :=
  if e.puts = [] ∧ e.takes <+: stack.map width then some (stack.drop e.takes.length) else none

/-- The values after an instruction that only removes some. -/
def Instruction.remove? (i : Instruction) (stack : List α) : Option (List α) :=
  i.effects.findSome? (·.remove? width stack)

/-- The values after some instructions that only remove values, one after the other. -/
def removeAll? : List Instruction → List α → Option (List α)
  | [], stack => some stack
  | i :: code, stack => (i.remove? width stack).bind (removeAll? code)

/-- The operation that removes a value of a size, and no other value. -/
def Width.removal : Width → Opcode
  | .single => .pop
  | .double => .pop2

/-- **Removals as seen by the sizes** of the values: an instruction that puts nothing on the stack
leaves the sizes of the values that it leaves. -/
theorem Instruction.execute?_map_width {i : Instruction} (h : ∀ e ∈ i.effects, e.puts = [])
    (stack : List α) :
    i.execute? (stack.map width) = (i.remove? width stack).map (List.map width) := by
  rw [execute?, remove?]
  generalize i.effects = effects at h
  induction effects with
  | nil => rfl
  | cons e effects ih =>
    obtain ⟨hputs, heffects⟩ := List.forall_mem_cons.mp h
    rw [List.findSome?_cons, List.findSome?_cons, StackEffect.after?, StackEffect.remove?, hputs]
    by_cases htakes : e.takes <+: stack.map width
    · simp [htakes]
    · simp [htakes, ih heffects]

theorem executeAll?_map_width {code : List Instruction}
    (h : ∀ i ∈ code, ∀ e ∈ i.effects, e.puts = []) (stack : List α) :
    executeAll? code (stack.map width) = (removeAll? width code stack).map (List.map width) := by
  induction code generalizing stack with
  | nil => rfl
  | cons i code ih =>
    obtain ⟨hi, hcode⟩ := List.forall_mem_cons.mp h
    rw [executeAll?_cons, removeAll?, Instruction.execute?_map_width width hi]
    cases i.remove? width stack with
    | none => rfl
    | some next => exact ih hcode next

theorem Width.puts_of_removal {w : Width} {e : StackEffect}
    (h : e ∈ (Instruction.simple w.removal).effects) : e.puts = [] := by
  cases w with
  | single => rw [List.mem_singleton.mp h]
  | double =>
    obtain rfl | h := List.mem_cons.mp h
    · rfl
    · rw [List.mem_singleton.mp h]

/-! ### Operands -/

/-- A removal removes the value on top. -/
theorem Instruction.remove?_removal (v : α) (rest : List α) :
    (simple (width v).removal).remove? width (v :: rest) = some rest := by
  cases hv : width v <;>
    simp [remove?, effects, Opcode.effects, Width.removal, StackEffect.remove?, hv]

variable {width} {op : Opcode} {receiver arguments : List α}

/-- The removals of some values on top of a stack leave the values below them. -/
theorem removeAll?_removals (values rest : List α) :
    removeAll? width (values.map fun v => .simple (width v).removal) (values ++ rest) =
      some rest := by
  induction values with
  | nil => rfl
  | cons v values ih =>
    rw [List.map_cons, List.cons_append, removeAll?, Instruction.remove?_removal, Option.bind_some,
      ih]

/-- The operation for a size that is given in slots. -/
theorem Width.ite_slots_eq_two (w : Width) :
    (if w.slots = 2 then Opcode.pop2 else .pop) = w.removal := by
  cases w <;> rfl

/-- The removal of the receiver of a call, if it has one. -/
theorem removal_of_receiver (h : op.receiver? = some (receiver.map width)) :
    (if op = .invokestatic then [] else [Instruction.simple .pop]) =
      receiver.map fun v => .simple (width v).removal := by
  cases op with
  | invokestatic =>
    rw [List.map_eq_nil_iff.mp (Option.some.inj h).symm]
    rfl
  | invokevirtual | invokespecial | invokeinterface =>
    obtain ⟨v, rfl, hv⟩ := List.map_eq_singleton_iff.mp (Option.some.inj h).symm
    rw [List.map_singleton, hv]
    rfl
  | _ => cases h

/-- The removals of what a call takes are those of its operands. -/
theorem popOperands?_text {t : MethodType} (hnames : ∀ p ∈ t.parameters, ')' ∉ p.text)
    (hreceiver : op.receiver? = some (receiver.map width))
    (harguments : arguments.map width = t.parameters.map FieldType.width) :
    Policy.popOperands? op (String.ofList t.text) =
      some ((arguments.reverse ++ receiver).map fun v => .simple (width v).removal) := by
  have hsizes : t.parameters.map (·.width.slots) = arguments.map fun v => (width v).slots := by
    have hslots := congrArg (List.map Width.slots) harguments
    rwa [List.map_map, List.map_map, eq_comm] at hslots
  rw [Policy.popOperands?, t.argumentSizes?_text hnames, Option.map_some, hsizes,
    removal_of_receiver hreceiver, List.map_append, ← List.map_reverse, List.map_map]
  simp only [Function.comp_def, Width.ite_slots_eq_two]

/-- **A removed call takes its operands.** There are instructions that take what a call of a method
would take from any stack: the arguments, of which the last one is on top, and the receiver below
the first one, if there is one. From the top on there is an instruction for each of them, which
removes this value and no other: two slots if the value takes two, and one slot else. So the rest of
the stack is left, and its sizes are what the machine finds. -/
theorem removed_call_takes_its_operands (width : α → Width) {op : Opcode} {t : MethodType}
    (hnames : ∀ p ∈ t.parameters, ')' ∉ p.text) {receiver arguments : List α}
    (hreceiver : op.receiver? = some (receiver.map width))
    (harguments : arguments.map width = t.parameters.map FieldType.width) (rest : List α) :
    let operands := arguments.reverse ++ receiver
    ∃ code, Policy.popOperands? op (String.ofList t.text) = some code ∧
      code = (operands.map fun v => .simple (width v).removal) ∧
      (∀ n, removeAll? width (code.take n) (operands ++ rest) = some (operands.drop n ++ rest)) ∧
      removeAll? width code (operands ++ rest) = some rest ∧
      executeAll? code ((operands ++ rest).map width) = some (rest.map width) := by
  intro operands
  have hwhole : removeAll? width (operands.map fun v => .simple (width v).removal)
      (operands ++ rest) = some rest := removeAll?_removals operands rest
  refine ⟨_, popOperands?_text hnames hreceiver harguments, rfl, fun n => ?_, hwhole, ?_⟩
  · have hsplit : operands ++ rest = operands.take n ++ (operands.drop n ++ rest) := by
      rw [← List.append_assoc, List.take_append_drop]
    rw [← List.map_take, hsplit]
    exact removeAll?_removals _ _
  · rw [executeAll?_map_width, hwhole, Option.map_some]
    intro i hi e he
    obtain ⟨v, -, rfl⟩ := List.mem_map.mp hi
    exact Width.puts_of_removal he

/-- An interface is called with a long number, an array of arrays of doubles and a double, above two
values that are left. -/
theorem removed_call_takes_wide_operands :
    let t : MethodType := ⟨[.primitive .long, .array (.array (.primitive .double)),
      .object ⟨"a/B".toList, by decide, by decide⟩, .primitive .double], none⟩
    let receiver : List (Width × Nat) := [(.single, 0)]
    let arguments : List (Width × Nat) := [(.double, 1), (.single, 2), (.single, 3), (.double, 4)]
    let rest : List (Width × Nat) := [(.double, 5), (.single, 6)]
    (∀ p ∈ t.parameters, ')' ∉ p.text) ∧
      Opcode.invokeinterface.receiver? = some (receiver.map Prod.fst) ∧
      arguments.map Prod.fst = t.parameters.map FieldType.width ∧
      Policy.popOperands? .invokeinterface "(J[[DLa/B;D)V" =
        some [.simple .pop2, .simple .pop, .simple .pop, .simple .pop2, .simple .pop] ∧
      removeAll? Prod.fst [.simple .pop2, .simple .pop, .simple .pop, .simple .pop2, .simple .pop]
        (arguments.reverse ++ receiver ++ rest) = some rest := by
  intro t receiver arguments rest
  have hnames : ∀ p ∈ t.parameters, ')' ∉ p.text := by decide
  have hreceiver : Opcode.invokeinterface.receiver? = some (receiver.map Prod.fst) := rfl
  have harguments : arguments.map Prod.fst = t.parameters.map FieldType.width := rfl
  obtain ⟨code, hcode, rfl, -, hwhole, -⟩ :=
    removed_call_takes_its_operands Prod.fst hnames hreceiver harguments rest
  exact ⟨hnames, hreceiver, harguments, hcode, hwhole⟩

end MutationTesting
