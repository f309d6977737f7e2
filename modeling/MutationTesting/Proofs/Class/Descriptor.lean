import Mathlib.Data.List.TakeWhile
import MutationTesting.Class.Instruction
/-!
# Types of fields and methods

The grammar of descriptors. A field has a primitive type, a class or an array of another type; a
method has parameters and a result, which may be missing. Each type has one text, a field descriptor
is the text of one type at most, and the text of a type is never the beginning of another one, so
that the parameters of a method can be written without anything between them.

## Main definitions

* `FieldType`, `FieldType.text`, `FieldType.take?`
* `MethodType`, `MethodType.text`, `MethodType.ofDescriptor?`

## Main results

* `FieldType.take?_eq_some_iff` — what a type at the beginning of a text is
* `MethodType.ofDescriptor?_eq_some_iff`
-/

namespace MutationTesting

/-! ### Primitive types and classes -/

/-- A type of values that are no references. -/
inductive Primitive where
  | byte
  | char
  | double
  | float
  | int
  | long
  | short
  | boolean
  deriving DecidableEq

namespace Primitive

/-- The letter that stands for a type. -/
def letter : Primitive → Char
  | .byte => 'B'
  | .char => 'C'
  | .double => 'D'
  | .float => 'F'
  | .int => 'I'
  | .long => 'J'
  | .short => 'S'
  | .boolean => 'Z'

/-- Every type. -/
def all : List Primitive := [.byte, .char, .double, .float, .int, .long, .short, .boolean]

/-- The type for which a letter stands. -/
def ofLetter? (c : Char) : Option Primitive := all.find? (·.letter == c)

@[simp] theorem ofLetter?_letter (p : Primitive) : ofLetter? p.letter = some p := by
  cases p <;> rfl

theorem ofLetter?_eq_some_iff {c : Char} {p : Primitive} :
    ofLetter? c = some p ↔ p.letter = c := by
  constructor
  · intro h
    rw [ofLetter?] at h
    simpa using List.find?_some h
  · rintro rfl
    exact ofLetter?_letter p

/-- No letter stands for the beginning of a class or an array, or for the end of a list. -/
theorem letter_ne (p : Primitive) : p.letter ≠ 'L' ∧ p.letter ≠ '[' ∧ p.letter ≠ ')' := by
  cases p <;> decide

end Primitive

/-- The name of a class as it stands in a descriptor. -/
structure TypeName where
  text : List Char
  nonempty : text ≠ []
  /-- The name goes up to a semicolon. -/
  semicolon : ';' ∉ text
  deriving DecidableEq

namespace TypeName

/-- The name at the beginning of a text, and what comes after its semicolon. -/
def take? (text : List Char) : Option (TypeName × List Char) :=
  if h : text.takeWhile (· ≠ ';') ≠ [] then
    match text.dropWhile (· ≠ ';') with
    | [] => none
    | _ :: rest =>
      some (⟨text.takeWhile (· ≠ ';'), h, fun hmem => by simpa using List.mem_takeWhile_imp hmem⟩,
        rest)
  else none

theorem take?_append (name : TypeName) (rest : List Char) :
    take? (name.text ++ ';' :: rest) = some (name, rest) := by
  have hall : ∀ c ∈ name.text, decide (c ≠ ';') = true := fun c hc =>
    decide_eq_true fun heq => name.semicolon (heq ▸ hc)
  have htake : (name.text ++ ';' :: rest).takeWhile (· ≠ ';') = name.text := by
    rw [List.takeWhile_append_of_pos hall]
    simp
  have hdrop : (name.text ++ ';' :: rest).dropWhile (· ≠ ';') = ';' :: rest := by
    rw [List.dropWhile_append_of_pos hall]
    simp
  simp only [take?, htake, hdrop, dif_pos name.nonempty]

theorem eq_of_take? {name : TypeName} {text rest : List Char}
    (h : take? text = some (name, rest)) : text = name.text ++ ';' :: rest := by
  rw [take?] at h
  split at h
  · split at h
    · cases h
    · next c later hdrop =>
      obtain ⟨rfl, rfl⟩ := Prod.mk.inj (Option.some.inj h)
      have hstop := List.head?_dropWhile_not (· ≠ ';') text
      simp only [hdrop, List.head?_cons, decide_eq_false_iff_not, not_not] at hstop
      subst hstop
      exact (hdrop ▸ List.takeWhile_append_dropWhile).symm
  · cases h

end TypeName

/-! ### Types of fields -/

/-- A type of a field, of a parameter or of a result. -/
inductive FieldType where
  | primitive (p : Primitive)
  | object (name : TypeName)
  | array (element : FieldType)
  deriving DecidableEq

namespace FieldType

/-- A type as it stands in a descriptor. -/
def text : FieldType → List Char
  | .primitive p => [p.letter]
  | .object name => 'L' :: name.text ++ [';']
  | .array element => '[' :: element.text

/-- The type at the beginning of a text, and what comes after it. -/
def take? : List Char → Option (FieldType × List Char)
  | [] => none
  | c :: rest =>
    if c = 'L' then (TypeName.take? rest).map fun (name, rest) => (.object name, rest)
    else if c = '[' then (take? rest).map fun (element, rest) => (.array element, rest)
    else (Primitive.ofLetter? c).map fun p => (.primitive p, rest)

theorem take?_append (t : FieldType) (rest : List Char) :
    take? (t.text ++ rest) = some (t, rest) := by
  induction t with
  | primitive p =>
    obtain ⟨hclass, harray, -⟩ := p.letter_ne
    simp [text, take?, hclass, harray]
  | object name => simp [text, take?, TypeName.take?_append]
  | array element ih => simp [text, take?, ih]

theorem eq_of_take? {t : FieldType} {text rest : List Char} (h : take? text = some (t, rest)) :
    text = t.text ++ rest := by
  induction text generalizing t with
  | nil => cases h
  | cons c text ih =>
    rw [take?] at h
    split at h
    · next hclass =>
      obtain ⟨⟨name, rest'⟩, hname, heq⟩ := Option.map_eq_some_iff.mp h
      obtain ⟨rfl, rfl⟩ := Prod.mk.inj heq
      simp [hclass, FieldType.text, TypeName.eq_of_take? hname]
    · split at h
      · next harray =>
        obtain ⟨⟨element, rest'⟩, helement, heq⟩ := Option.map_eq_some_iff.mp h
        obtain ⟨rfl, rfl⟩ := Prod.mk.inj heq
        rw [harray, FieldType.text, List.cons_append, ← ih helement]
      · obtain ⟨p, hp, heq⟩ := Option.map_eq_some_iff.mp h
        obtain ⟨rfl, rfl⟩ := Prod.mk.inj heq
        rw [FieldType.text, Primitive.ofLetter?_eq_some_iff.mp hp, List.singleton_append]

/-- **A type at the beginning of a text** is the one whose text comes first. -/
theorem take?_eq_some_iff {t : FieldType} {text rest : List Char} :
    take? text = some (t, rest) ↔ text = t.text ++ rest := by
  constructor
  · exact eq_of_take?
  · rintro rfl
    exact take?_append t rest

/-- The text of a type is not empty, and no end of a list. -/
theorem exists_cons_text (t : FieldType) : ∃ c rest, t.text = c :: rest ∧ c ≠ ')' := by
  cases t with
  | primitive p => exact ⟨p.letter, [], rfl, p.letter_ne.2.2⟩
  | object name => exact ⟨'L', name.text ++ [';'], rfl, by decide⟩
  | array element => exact ⟨'[', element.text, rfl, by decide⟩

/-- The type that a text spells. -/
def ofText? (text : List Char) : Option FieldType :=
  match take? text with
  | some (t, []) => some t
  | _ => none

theorem ofText?_eq_some_iff {text : List Char} {t : FieldType} :
    ofText? text = some t ↔ text = t.text := by
  rw [ofText?, ← List.append_nil t.text, ← take?_eq_some_iff]
  split
  · next h => simp [h]
  · next h => exact ⟨nofun, fun heq => absurd heq (h t)⟩

/-- No type is spelled like a result that is missing. -/
theorem text_ne_void (t : FieldType) : t.text ≠ ['V'] := by
  intro h
  exact nomatch (ofText?_eq_some_iff.mpr h.symm : ofText? ['V'] = some t)

end FieldType

/-! ### Types of methods -/

/-- The parameters and the result of a method. -/
structure MethodType where
  parameters : List FieldType
  /-- None for a method that returns no value. -/
  result : Option FieldType
  deriving DecidableEq

namespace MethodType

/-- A result as it stands in a descriptor. -/
def resultText : Option FieldType → List Char
  | some t => t.text
  | none => ['V']

/-- The type of a method as it stands in a descriptor. -/
def text (t : MethodType) : List Char :=
  '(' :: t.parameters.flatMap FieldType.text ++ ')' :: resultText t.result

/-- At most `n` types up to a closing parenthesis, and what comes after it. -/
def takeParameters? : Nat → List Char → Option (List FieldType × List Char)
  | _, ')' :: rest => some ([], rest)
  | 0, _ => none
  | n + 1, text => do
    let (t, rest) ← FieldType.take? text
    let (ts, rest) ← takeParameters? n rest
    some (t :: ts, rest)

/-- The result that a text spells. -/
def result? (text : List Char) : Option (Option FieldType) :=
  if text = ['V'] then some none else (FieldType.ofText? text).map some

/-- The type whose descriptor is given. -/
def ofDescriptor? (descriptor : String) : Option MethodType :=
  match descriptor.toList with
  | '(' :: text => do
    let (parameters, rest) ← takeParameters? text.length text
    some ⟨parameters, ← result? rest⟩
  | _ => none

@[simp] theorem takeParameters?_close (n : Nat) (rest : List Char) :
    takeParameters? n (')' :: rest) = some ([], rest) := by
  cases n <;> rfl

theorem takeParameters?_append {ts : List FieldType} {n : Nat} (h : ts.length ≤ n)
    (rest : List Char) :
    takeParameters? n (ts.flatMap FieldType.text ++ ')' :: rest) = some (ts, rest) := by
  induction ts generalizing n with
  | nil => simp
  | cons t ts ih =>
    obtain ⟨n, rfl⟩ := Nat.exists_eq_succ_of_ne_zero (Nat.ne_zero_of_lt h)
    obtain ⟨c, more, ht, hc⟩ := t.exists_cons_text
    have htake := t.take?_append (ts.flatMap FieldType.text ++ ')' :: rest)
    rw [ht, List.cons_append] at htake
    rw [List.flatMap_cons, List.append_assoc, ht, List.cons_append, takeParameters?]
    · simp [htake, ih (Nat.le_of_succ_le_succ h)]
    · simpa using hc

theorem eq_of_takeParameters? {n : Nat} {text rest : List Char} {ts : List FieldType}
    (h : takeParameters? n text = some (ts, rest)) :
    text = ts.flatMap FieldType.text ++ ')' :: rest := by
  fun_induction takeParameters? n text generalizing ts with
  | case1 n later =>
    obtain ⟨rfl, rfl⟩ := Prod.mk.inj (Option.some.inj h)
    rfl
  | case2 => cases h
  | case3 n text _ ih =>
    simp only [Option.bind_eq_bind, Option.bind_eq_some_iff] at h
    obtain ⟨⟨t, mid⟩, ht, ⟨ts', later⟩, hts, heq⟩ := h
    dsimp only at hts heq
    obtain ⟨rfl, rfl⟩ := Prod.mk.inj (Option.some.inj heq)
    rw [FieldType.eq_of_take? ht, ih _ hts, List.flatMap_cons, List.append_assoc]

theorem length_le_length_flatMap (ts : List FieldType) :
    ts.length ≤ (ts.flatMap FieldType.text).length := by
  induction ts with
  | nil => rfl
  | cons t ts ih =>
    obtain ⟨c, more, ht, -⟩ := t.exists_cons_text
    rw [List.flatMap_cons, ht, List.length_cons, List.length_append, List.length_cons]
    omega

theorem result?_eq_some_iff {text : List Char} {result : Option FieldType} :
    result? text = some result ↔ text = resultText result := by
  rw [result?]
  cases result with
  | none =>
    by_cases h : text = ['V'] <;> simp [h, resultText]
  | some t =>
    rw [resultText, ← FieldType.ofText?_eq_some_iff]
    split
    · next h =>
      subst h
      exact ⟨nofun, fun ht => absurd (FieldType.ofText?_eq_some_iff.mp ht).symm t.text_ne_void⟩
    · simp

/-- **The type of a descriptor** is the one whose text it is. -/
theorem ofDescriptor?_eq_some_iff {descriptor : String} {t : MethodType} :
    ofDescriptor? descriptor = some t ↔ descriptor.toList = t.text := by
  rw [ofDescriptor?]
  constructor
  · intro h
    split at h
    · next text htext =>
      simp only [Option.bind_eq_bind, Option.bind_eq_some_iff] at h
      obtain ⟨⟨parameters, rest⟩, hparameters, result, hresult, heq⟩ := h
      dsimp only at hresult heq
      obtain rfl := Option.some.inj heq
      rw [htext, eq_of_takeParameters? hparameters, result?_eq_some_iff.mp hresult]
      rfl
    · cases h
  · intro h
    have hlength : t.parameters.length ≤
        (t.parameters.flatMap FieldType.text ++ ')' :: resultText t.result).length := by
      have hle := length_le_length_flatMap t.parameters
      rw [List.length_append]
      omega
    simp only [h, text, List.cons_append, takeParameters?_append hlength,
      result?_eq_some_iff.mpr rfl, Option.bind_eq_bind, Option.bind_some]

end MethodType

end MutationTesting
