import Mathlib.Algebra.GroupWithZero.Nat
import MutationTesting.Proofs.Class.ArgumentSize
/-!
# The height of the operand stack

How many slots of the stack are in use can be counted without a stack: each item raises the height
by what it puts minus what it takes, and an operation with several effects raises it by as much in
each of them. So the height is counted from zero along the code, item by item, and it is that of
the stack wherever the code can be executed.

A method declares how high its stack may become. Code stays within such a number if each of its
beginnings does; an item whose effect is not known, since its descriptor is malformed, stays within
none.

## Main definitions

* `StackEffect.rise`, `Instruction.rise?`
* `heightAfter?` — the height after some code
* `StaysWithin` — the height is never greater than a number

## Main results

* `heightAfter?_of_executeAll?` — the height is that of the stack
* `staysWithin_append_iff`
* `staysWithin_filter_iff` — items that do not change the height may be left out
-/

namespace MutationTesting

/-! ### Slots -/

/-- How many slots the values on a stack take. -/
def OperandStack.slots (stack : OperandStack) : Nat := (stack.map Width.slots).sum

@[simp] theorem OperandStack.slots_append (stack rest : OperandStack) :
    OperandStack.slots (stack ++ rest) = stack.slots + rest.slots := by
  rw [slots, List.map_append, List.sum_append]
  rfl

/-- By how many slots an effect raises the height; negative if it takes more than it puts. -/
def StackEffect.rise (e : StackEffect) : Int := (e.puts.slots : Int) - e.takes.slots

/-- The effects of an operation raise the height by as much as each other. -/
theorem Opcode.rise_eq (op : Opcode) : ∀ e ∈ op.effects, ∀ e' ∈ op.effects, e.rise = e'.rise := by
  cases op <;> decide

/-- An access to a field has one effect at most. -/
theorem FieldType.length_effects_le (t : FieldType) (op : Opcode) : (t.effects op).length ≤ 1 := by
  cases op <;> simp [effects]

namespace Instruction

/-- By how many slots an item raises the height; nothing is known if it has no effect. -/
def rise? (i : Instruction) : Option Int := i.effects.head?.map StackEffect.rise

/-- **The effects of an item** raise the height by as much as each other. -/
theorem rise_eq (i : Instruction) : ∀ e ∈ i.effects, ∀ e' ∈ i.effects, e.rise = e'.rise := by
  have hone {effects : List StackEffect} (h : effects.length ≤ 1) :
      ∀ e ∈ effects, ∀ e' ∈ effects, e.rise = e'.rise := by
    intro e he e' he'
    cases effects with
    | nil => cases he
    | cons e₀ more =>
      obtain rfl := List.length_eq_zero_iff.mp (Nat.le_zero.mp (Nat.le_of_succ_le_succ h))
      rw [List.mem_singleton.mp he, List.mem_singleton.mp he']
  cases i with
  | simple op => exact op.rise_eq
  | immediate op value => exact op.rise_eq
  | slot op n => exact op.rise_eq
  | increment n value => exact Opcode.rise_eq .iinc
  | typed op name => exact op.rise_eq
  | jump op target => exact op.rise_eq
  | tableSwitch => exact Opcode.rise_eq .tableswitch
  | lookupSwitch => exact Opcode.rise_eq .lookupswitch
  | field op m =>
    refine hone ?_
    rw [effects]
    cases FieldType.ofText? m.descriptor.toList with
    | none => simp
    | some t => exact t.length_effects_le op
  | call op m interface =>
    refine hone ?_
    rw [effects]
    split <;> simp
  | callDynamic name d handle =>
    refine hone ?_
    rw [effects]
    cases MethodType.ofDescriptor? d <;> simp
  | load => exact hone (Nat.le_refl 1)
  | newArrays => exact hone (Nat.le_refl 1)
  | label => exact hone (Nat.le_refl 1)
  | line => exact hone (Nat.le_refl 1)

/-- The height is raised where an item is executed, whichever of its effects applies. -/
theorem rise?_of_execute? {i : Instruction} {stack after : OperandStack}
    (h : i.execute? stack = some after) :
    i.rise? = some ((after.slots : Int) - stack.slots) := by
  obtain ⟨e, he, hafter⟩ := List.exists_of_findSome?_eq_some h
  obtain ⟨rest, rfl, rfl⟩ := StackEffect.after?_eq_some_iff.mp hafter
  obtain ⟨e', more, heffects⟩ := List.exists_cons_of_ne_nil (List.ne_nil_of_mem he)
  have hrise : e'.rise = e.rise :=
    i.rise_eq e' (heffects ▸ List.mem_cons_self) e he
  rw [rise?, heffects, List.head?_cons, Option.map_some, hrise, StackEffect.rise,
    OperandStack.slots_append, OperandStack.slots_append]
  congr 1
  omega

/-- An item that raises the height by a known number can be executed on some stack. -/
theorem exists_execute?_of_rise? {i : Instruction} {d : Int} (h : i.rise? = some d) :
    ∃ stack after, i.execute? stack = some after := by
  obtain ⟨e, he, -⟩ := Option.map_eq_some_iff.mp h
  obtain ⟨more, heffects⟩ := List.head?_eq_some_iff.mp he
  exact ⟨_, _, execute?_append heffects []⟩

@[simp] theorem rise?_pop : (simple .pop).rise? = some (-1) := rfl

@[simp] theorem rise?_dup : (simple .dup).rise? = some 1 := rfl

@[simp] theorem rise?_swap : (simple .swap).rise? = some 0 := rfl

@[simp] theorem rise?_iconst0 : (simple .iconst0).rise? = some 1 := rfl

@[simp] theorem rise?_iconst1 : (simple .iconst1).rise? = some 1 := rfl

@[simp] theorem rise?_ireturn : (simple .ireturn).rise? = some (-1) := rfl

@[simp] theorem rise?_returnVoid : (simple .returnVoid).rise? = some 0 := rfl

@[simp] theorem rise?_loadText (s : String) : (loadText s).rise? = some 1 := rfl

@[simp] theorem rise?_aload (n : UInt16) : (slot .aload n).rise? = some 1 := rfl

@[simp] theorem rise?_astore (n : UInt16) : (slot .astore n).rise? = some (-1) := rfl

@[simp] theorem rise?_line (n : UInt32) (l : Label) : (line n l).rise? = some 0 := rfl

end Instruction

/-! ### Heights along the code -/

/-- The height after some code, counted from zero. -/
def heightAfter? : List Instruction → Option Int
  | [] => some 0
  | i :: code => i.rise?.bind fun d => (heightAfter? code).map (d + ·)

theorem heightAfter?_append (first rest : List Instruction) :
    heightAfter? (first ++ rest) =
      (heightAfter? first).bind fun h => (heightAfter? rest).map (h + ·) := by
  induction first with
  | nil => simp [heightAfter?]
  | cons i first ih =>
    rw [List.cons_append, heightAfter?, ih, heightAfter?]
    cases i.rise? with
    | none => rfl
    | some d =>
      cases heightAfter? first with
      | none => rfl
      | some h =>
        cases heightAfter? rest with
        | none => rfl
        | some h' => exact congrArg some (Int.add_assoc d h h').symm

/-- **The height is that of the stack** that the code leaves. -/
theorem heightAfter?_of_executeAll? {code : List Instruction} {stack after : OperandStack}
    (h : executeAll? code stack = some after) :
    heightAfter? code = some ((after.slots : Int) - stack.slots) := by
  induction code generalizing stack with
  | nil =>
    obtain rfl := Option.some.inj h
    simp [heightAfter?]
  | cons i code ih =>
    obtain ⟨next, hnext, hcode⟩ := Option.bind_eq_some_iff.mp h
    rw [heightAfter?, Instruction.rise?_of_execute? hnext, Option.bind_some, ih hcode,
      Option.map_some]
    congr 1
    omega

/-! ### Staying within a number -/

/-- Along the code the height is never greater than the number. -/
def StaysWithin (n : Int) (code : List Instruction) : Prop :=
  ∀ first, first <+: code → ∃ h, heightAfter? first = some h ∧ h ≤ n

section

variable {n : Int} {i : Instruction} {first rest code : List Instruction}

@[simp] theorem staysWithin_nil_iff : StaysWithin n [] ↔ 0 ≤ n := by
  constructor
  · intro h
    obtain ⟨_, hheight, hle⟩ := h [] (List.prefix_refl [])
    obtain rfl := Option.some.inj hheight
    exact hle
  · intro hn first hfirst
    obtain rfl := List.prefix_nil.mp hfirst
    exact ⟨0, rfl, hn⟩

/-- The height before the code is among those that are counted. -/
theorem StaysWithin.nonneg (h : StaysWithin n code) : 0 ≤ n :=
  staysWithin_nil_iff.mp fun first hfirst => h first (hfirst.trans (List.nil_prefix))

theorem staysWithin_cons_iff : StaysWithin n (i :: code) ↔
    0 ≤ n ∧ ∃ d, i.rise? = some d ∧ StaysWithin (n - d) code := by
  constructor
  · intro h
    obtain ⟨_, hheight, -⟩ := h [i] ⟨code, rfl⟩
    obtain ⟨d, hd, -⟩ := Option.bind_eq_some_iff.mp hheight
    refine ⟨h.nonneg, d, hd, fun first hfirst => ?_⟩
    obtain ⟨_, hheight, hle⟩ := h (i :: first) (List.cons_prefix_cons.mpr ⟨rfl, hfirst⟩)
    rw [heightAfter?, hd, Option.bind_some] at hheight
    obtain ⟨h', hfirst', rfl⟩ := Option.map_eq_some_iff.mp hheight
    exact ⟨h', hfirst', by omega⟩
  · rintro ⟨hn, d, hd, hcode⟩ first hfirst
    obtain rfl | ⟨first, rfl, htail⟩ := List.prefix_cons_iff.mp hfirst
    · exact ⟨0, rfl, hn⟩
    · obtain ⟨h, hheight, hle⟩ := hcode first htail
      refine ⟨d + h, ?_, by omega⟩
      rw [heightAfter?, hd, Option.bind_some, hheight]
      rfl

theorem staysWithin_cons_of_rise? {d : Int} (h : i.rise? = some d) :
    StaysWithin n (i :: code) ↔ 0 ≤ n ∧ StaysWithin (n - d) code := by
  simp only [staysWithin_cons_iff, h, Option.some.injEq, exists_eq_left']

instance decidableStaysWithin : (code : List Instruction) → (n : Int) →
    Decidable (StaysWithin n code)
  | [], _ => decidable_of_iff _ staysWithin_nil_iff.symm
  | i :: code, n =>
    match h : i.rise? with
    | none => isFalse fun hcode => by
      obtain ⟨-, d, hd, -⟩ := staysWithin_cons_iff.mp hcode
      cases h.symm.trans hd
    | some d =>
      have := decidableStaysWithin code (n - d)
      decidable_of_iff _ (staysWithin_cons_of_rise? h).symm

/-- The height at the end of the code is among those that are counted. -/
theorem StaysWithin.exists_height (h : StaysWithin n code) :
    ∃ height, heightAfter? code = some height ∧ height ≤ n :=
  h code (List.prefix_refl code)

/-- **One piece of code after another**: the height of the second is counted from where the first
has left it. -/
theorem staysWithin_append_iff : StaysWithin n (first ++ rest) ↔
    StaysWithin n first ∧ ∃ h, heightAfter? first = some h ∧ StaysWithin (n - h) rest := by
  induction first generalizing n with
  | nil =>
    simp only [List.nil_append, staysWithin_nil_iff, heightAfter?, Option.some.injEq,
      exists_eq_left', Int.sub_zero]
    exact ⟨fun h => ⟨h.nonneg, h⟩, And.right⟩
  | cons i first ih =>
    rw [List.cons_append, staysWithin_cons_iff, staysWithin_cons_iff, heightAfter?]
    constructor
    · rintro ⟨hn, d, hd, hboth⟩
      obtain ⟨hfirst, h, hheight, hrest⟩ := ih.mp hboth
      refine ⟨⟨hn, d, hd, hfirst⟩, d + h, ?_, by rwa [← Int.sub_sub]⟩
      rw [hd, Option.bind_some, hheight]
      rfl
    · rintro ⟨⟨hn, d, hd, hfirst⟩, _, hheight, hrest⟩
      rw [hd, Option.bind_some] at hheight
      obtain ⟨h, hfirst', rfl⟩ := Option.map_eq_some_iff.mp hheight
      exact ⟨hn, d, hd, ih.mpr ⟨hfirst, h, hfirst', by rwa [Int.sub_sub]⟩⟩

/-- What comes after code that stays within. -/
theorem staysWithin_append_iff_right {h : Int} (hfirst : StaysWithin n first)
    (hheight : heightAfter? first = some h) :
    StaysWithin n (first ++ rest) ↔ StaysWithin (n - h) rest := by
  simp only [staysWithin_append_iff, hfirst, hheight, Option.some.injEq, exists_eq_left', true_and]

/-- What comes before code that stays within. -/
theorem staysWithin_append_iff_left {h : Int} (hheight : heightAfter? first = some h)
    (hrest : StaysWithin (n - h) rest) :
    StaysWithin n (first ++ rest) ↔ StaysWithin n first := by
  simp only [staysWithin_append_iff, hheight, Option.some.injEq, exists_eq_left', hrest, and_true]

/-- The last item only leads to the height at the end. -/
theorem staysWithin_concat_iff {d : Int} (hd : heightAfter? (first ++ [i]) = some d) (hn : d ≤ n) :
    StaysWithin n (first ++ [i]) ↔ StaysWithin n first := by
  rw [staysWithin_append_iff]
  refine ⟨And.left, fun hfirst => ⟨hfirst, ?_⟩⟩
  rw [heightAfter?_append] at hd
  obtain ⟨h, hheight, hlast⟩ := Option.bind_eq_some_iff.mp hd
  obtain ⟨d', hd', rfl⟩ := Option.map_eq_some_iff.mp hlast
  obtain ⟨rise, hrise, heq⟩ := Option.bind_eq_some_iff.mp hd'
  have hlast : rise + 0 = d' := Option.some.inj heq
  obtain ⟨h', hheight', hle⟩ := hfirst.exists_height
  obtain rfl : h = h' := Option.some.inj (hheight.symm.trans hheight')
  exact ⟨h, hheight, staysWithin_cons_iff.mpr
    ⟨by omega, rise, hrise, staysWithin_nil_iff.mpr (by omega)⟩⟩

/-- **Items that do not change the height** may be left out. -/
theorem staysWithin_filter_iff {kept : Instruction → Bool}
    (hkept : ∀ i, kept i = false → i.rise? = some 0) :
    StaysWithin n (code.filter kept) ↔ StaysWithin n code := by
  induction code generalizing n with
  | nil => rfl
  | cons i code ih =>
    cases hi : kept i with
    | true =>
      rw [List.filter_cons_of_pos hi, staysWithin_cons_iff, staysWithin_cons_iff]
      simp only [ih]
    | false =>
      rw [List.filter_cons_of_neg (Bool.not_eq_true _ ▸ hi), ih,
        staysWithin_cons_of_rise? (hkept i hi), Int.sub_zero]
      exact ⟨fun h => ⟨h.nonneg, h⟩, And.right⟩

end

end MutationTesting
