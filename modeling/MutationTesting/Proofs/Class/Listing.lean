import MutationTesting.Class.Listing
/-!
# Reading listings

A listing cannot be read back: it leaves out the targets of switches, the arguments of bootstrap
methods and the ranges of a method, and names stand in it as they are, with spaces and line feeds
that they may have. What can be read is the line of an operation without operands, which is that of
no other item.

## Main results

* `Instruction.exists_words` — operations and operands
* `Instruction.eq_simple_of_listing_append_eq` — operations without operands
* `Method.listing_eq_iff` — listings of methods with the same signature
-/

namespace MutationTesting

/-! ### Words -/

/-- A character that ends a word. -/
def EndsWord (c : Char) : Prop := c = ' ' ∨ c = '\n'

instance (c : Char) : Decidable (EndsWord c) := inferInstanceAs (Decidable (c = ' ' ∨ c = '\n'))

/-- Words are told apart from what follows by the character that ends them. -/
theorem append_cons_inj_of_endsWord {word word' : List Char} (h : ∀ c ∈ word, ¬ EndsWord c)
    (h' : ∀ c ∈ word', ¬ EndsWord c) {c c' : Char} (hc : EndsWord c) (hc' : EndsWord c')
    {rest rest' : List Char} (heq : word ++ c :: rest = word' ++ c' :: rest') :
    word = word' ∧ c = c' ∧ rest = rest' := by
  have htake {word : List Char} (h : ∀ c ∈ word, ¬ EndsWord c) {c : Char} (hc : EndsWord c)
      (rest : List Char) : (word ++ c :: rest).takeWhile (¬ EndsWord ·) = word := by
    rw [List.takeWhile_append_of_pos (by simpa using h), List.takeWhile_cons_of_neg (by simpa),
      List.append_nil]
  obtain rfl : word = word' := by rw [← htake h hc rest, heq, htake h' hc' rest']
  obtain ⟨rfl, rfl⟩ := List.cons.inj (List.append_cancel_left heq)
  exact ⟨rfl, rfl, rfl⟩

theorem Opcode.not_endsWord_of_mem_name (op : Opcode) : ∀ c ∈ op.name.toList, ¬ EndsWord c := by
  -- by way of lists: a quantifier over characters might be decided by going through all of them
  have h : ∀ op ∈ Opcode.all, op.name.toList.all (¬ EndsWord ·) := by decide +kernel
  simpa using h op op.mem_all

theorem Opcode.name_injective {op op' : Opcode} (h : op.name = op'.name) : op = op' :=
  Option.some.inj (by rw [← ofName?_name op, ← ofName?_name op', h])

/-! ### Lines -/

namespace Instruction

/-- The words of an instruction are its operation and its operands. -/
theorem exists_words {i : Instruction} {op : Opcode} (h : i.opcode? = some op) :
    ∃ operands, i.words = op.name.toList :: operands ∧ (operands = [] → i = .simple op) ∧
      i.listing = "    ".toList ++ spaced i.words := by
  cases i with
  | label l => cases h
  | line n l => cases h
  | simple op' =>
    obtain rfl := Option.some.inj h
    exact ⟨[], rfl, fun _ => rfl, rfl⟩
  | _ =>
    obtain rfl := Option.some.inj h
    exact ⟨_, rfl, nofun, rfl⟩

/-- The line of an operation without operands is that of no other item. -/
theorem eq_simple_of_listing_append_eq {i : Instruction} {op : Opcode}
    {rest rest' : List Char}
    (h : i.listing ++ '\n' :: rest = (simple op).listing ++ '\n' :: rest') :
    i = .simple op ∧ rest = rest' := by
  cases hop : i.opcode? with
  | none =>
    cases i with
    | label l => cases h
    | line n l => cases h
    | _ => cases hop
  | some op' =>
    obtain ⟨operands, hwords, hsimple, hlisting⟩ := exists_words hop
    have hlisting' : (simple op).listing = "    ".toList ++ spaced [op.name.toList] := rfl
    rw [hlisting, hlisting', hwords, List.append_assoc, List.append_assoc,
      List.append_cancel_left_eq, spaced, spaced, List.intercalate_singleton] at h
    cases operands with
    | nil =>
      rw [List.intercalate_singleton] at h
      obtain ⟨hname, -, hrest⟩ := append_cons_inj_of_endsWord op'.not_endsWord_of_mem_name
        op.not_endsWord_of_mem_name (by decide) (by decide) h
      obtain rfl := Opcode.name_injective (String.toList_injective hname)
      exact ⟨hsimple rfl, hrest⟩
    | cons operand operands =>
      rw [List.intercalate_cons_cons, List.append_assoc, List.append_assoc] at h
      obtain ⟨-, hc, -⟩ := append_cons_inj_of_endsWord op'.not_endsWord_of_mem_name
        op.not_endsWord_of_mem_name (by decide) (by decide) h
      cases hc

end Instruction

namespace Method

variable {m m' : Method}

theorem getLast?_listing (m : Method) : m.listing.getLast? = some '\n' := by
  rw [listing]
  obtain h | ⟨front, last, h⟩ := m.instructions.eq_nil_or_concat
  · rw [h]
    simp
  · rw [h]
    simp [List.getLast?_append, List.getLast?_cons]

theorem listing_eq_iff (h : m.signature = m'.signature) :
    m.listing = m'.listing ↔
      (m.instructions.flatMap fun i => i.listing ++ ['\n']) =
        m'.instructions.flatMap fun i => i.listing ++ ['\n'] := by
  rw [listing, listing, h, List.append_cancel_left_eq, List.cons_inj_right]

end Method

end MutationTesting
