import MutationTesting.Class.Descriptor
import MutationTesting.Proofs.Class.OperandStack
/-!
# The sizes of arguments

The sizes that are read from the descriptor of a method are those of its parameters, in order,
whatever its result is. A list of parameters ends at the first closing parenthesis, so no class
among them may have one in its name.

The types are not fully checked on the way. A class may have an empty name, and behind the brackets
of an array any character stands for the type of its elements. So more is accepted than the
descriptors of methods: a list of parameters is cut into parts, which are spelled like types or not.
There is one way to cut it, and each part has a size.

## Main definitions

* `Width.slots` — how many slots a value takes
* `Descriptor.Part`, `Descriptor.Element` — what is taken for a type, by itself or behind a bracket
* `Descriptor.Part.IsProper` — a part that is spelled like a type
* `Descriptor.Declares` — the sizes of the types in a descriptor

## Main results

* `Descriptor.sizesFrom_start_eq_some_iff` — the texts whose sizes are read
* `Descriptor.spelled_inj` — they are cut in one way
* `MethodType.argumentSizes?_text` — the parameters of a method
* `Descriptor.parameters_are_read_by_parts`
* `Descriptor.array_of_unknown_elements_is_read` — a part that is not spelled like a type
-/

namespace MutationTesting

/-- How many slots a value takes. -/
def Width.slots : Width → Nat
  | .single => 1
  | .double => 2

namespace Descriptor

/-- The characters before a mark. -/
theorem before?_append {stop : Char} {text : List Char} (h : stop ∉ text) (rest : List Char) :
    before? stop (text ++ stop :: rest) = some text := by
  induction text with
  | nil => exact if_pos rfl
  | cons c text ih =>
    rw [List.cons_append, before?, if_neg (List.ne_of_not_mem_cons h).symm,
      ih (List.not_mem_of_not_mem_cons h), Option.map_some]

theorem eq_of_before? {stop : Char} {text body : List Char} (h : before? stop text = some body) :
    stop ∉ body ∧ ∃ rest, text = body ++ stop :: rest := by
  induction text generalizing body with
  | nil => cases h
  | cons c text ih =>
    rw [before?] at h
    split at h
    · next hc =>
      obtain rfl := Option.some.inj h
      exact ⟨List.not_mem_nil, text, by rw [hc, List.nil_append]⟩
    · next hc =>
      obtain ⟨body, hbody, rfl⟩ := Option.map_eq_some_iff.mp h
      obtain ⟨hstop, rest, rfl⟩ := ih hbody
      exact ⟨List.not_mem_cons_of_ne_of_not_mem (Ne.symm hc) hstop, rest, rfl⟩

/-! ### Parts -/

/-- What is taken for the name of a class. -/
structure LooseName where
  text : List Char
  /-- The name goes up to a semicolon. -/
  semicolon : ';' ∉ text

/-- What is taken for the type of the elements of an array. -/
inductive Element where
  | single (c : Char) (other : c ≠ '[' ∧ c ≠ 'L')
  | object (name : LooseName)
  | array (element : Element)

/-- What is taken for the type of a parameter. -/
inductive Part where
  | primitive (p : Primitive)
  | object (name : LooseName)
  | array (element : Element)

namespace Element

/-- The characters of an element. -/
def text : Element → List Char
  | .single c _ => [c]
  | .object name => 'L' :: (name.text ++ [';'])
  | .array element => '[' :: element.text

/-- The element is spelled like a type. -/
def IsProper : Element → Prop
  | .single c _ => (Primitive.ofLetter? c).isSome = true
  | .object name => name.text ≠ []
  | .array element => element.IsProper

/-- The element that is read where a type is written. -/
def ofType : FieldType → Element
  | .primitive p => .single p.letter ⟨p.letter_ne.2.1, p.letter_ne.1⟩
  | .object name => .object ⟨name.text, name.semicolon⟩
  | .array element => .array (ofType element)

theorem text_ofType (t : FieldType) : (ofType t).text = t.text := by
  induction t with
  | primitive p => rfl
  | object name => rfl
  | array element ih => rw [ofType, text, ih, FieldType.text]

theorem isProper_ofType (t : FieldType) : (ofType t).IsProper := by
  induction t with
  | primitive p => rw [ofType, IsProper, Primitive.ofLetter?_letter, Option.isSome_some]
  | object name => exact name.nonempty
  | array element ih => exact ih

theorem exists_ofType {e : Element} (h : e.IsProper) : ∃ t, ofType t = e := by
  induction e with
  | single c other =>
    obtain ⟨p, hp⟩ := Option.isSome_iff_exists.mp h
    obtain rfl := Primitive.ofLetter?_eq_some_iff.mp hp
    exact ⟨.primitive p, rfl⟩
  | object name => exact ⟨.object ⟨name.text, h, name.semicolon⟩, rfl⟩
  | array element ih =>
    obtain ⟨t, rfl⟩ := ih h
    exact ⟨.array t, rfl⟩

end Element

namespace Part

/-- The characters of a part. -/
def text : Part → List Char
  | .primitive p => [p.letter]
  | .object name => 'L' :: (name.text ++ [';'])
  | .array element => '[' :: element.text

/-- How many slots are counted for a part. -/
def slots (p : Part) : Nat := if p.text = ['J'] ∨ p.text = ['D'] then 2 else 1

/-- The part is spelled like a type. -/
def IsProper : Part → Prop
  | .primitive _ => True
  | .object name => name.text ≠ []
  | .array element => element.IsProper

/-- The part that is read where a type is written. -/
def ofType : FieldType → Part
  | .primitive p => .primitive p
  | .object name => .object ⟨name.text, name.semicolon⟩
  | .array element => .array (.ofType element)

theorem text_ofType (t : FieldType) : (ofType t).text = t.text := by
  cases t with
  | primitive p => rfl
  | object name => rfl
  | array element => rw [ofType, text, Element.text_ofType, FieldType.text]

theorem isProper_ofType (t : FieldType) : (ofType t).IsProper := by
  cases t with
  | primitive p => trivial
  | object name => exact name.nonempty
  | array element => exact Element.isProper_ofType element

/-- **The proper parts** are those that are read where types are written. -/
theorem isProper_iff {p : Part} : p.IsProper ↔ ∃ t, ofType t = p := by
  constructor
  · intro h
    cases p with
    | primitive p => exact ⟨.primitive p, rfl⟩
    | object name => exact ⟨.object ⟨name.text, h, name.semicolon⟩, rfl⟩
    | array element =>
      obtain ⟨t, rfl⟩ := Element.exists_ofType h
      exact ⟨.array t, rfl⟩
  · rintro ⟨t, rfl⟩
    exact isProper_ofType t

theorem slots_object (name : LooseName) : (Part.object name).slots = 1 := if_neg (by simp [text])

theorem slots_array (element : Element) : (Part.array element).slots = 1 :=
  if_neg (by simp [text])

theorem slots_ofType (t : FieldType) : (ofType t).slots = t.width.slots := by
  cases t with
  | primitive p => cases p <;> rfl
  | object name => exact slots_object _
  | array element => exact slots_array _

end Part

/-- The characters of parts. -/
def spelled (ps : List Part) : List Char := ps.flatMap Part.text

theorem spelled_cons (p : Part) (ps : List Part) : spelled (p :: ps) = p.text ++ spelled ps :=
  List.flatMap_cons

theorem spelled_map_ofType (ts : List FieldType) :
    spelled (ts.map Part.ofType) = ts.flatMap FieldType.text := by
  rw [spelled, List.flatMap_map, funext Part.text_ofType]

/-! ### One way to cut -/

/-- A name ends at the first semicolon. -/
theorem LooseName.eq_of_append {name name' : LooseName} {x x' : List Char}
    (h : name.text ++ ';' :: x = name'.text ++ ';' :: x') : name = name' ∧ x = x' := by
  have hbefore := before?_append name.semicolon x
  rw [h, before?_append name'.semicolon x'] at hbefore
  obtain ⟨text, semicolon⟩ := name
  obtain ⟨text', semicolon'⟩ := name'
  obtain rfl : text' = text := Option.some.inj hbefore
  exact ⟨rfl, (List.cons.inj (List.append_cancel_left h)).2⟩

theorem LooseName.eq_of_object {name name' : LooseName} {x x' : List Char}
    (h : 'L' :: (name.text ++ [';']) ++ x = 'L' :: (name'.text ++ [';']) ++ x') :
    name = name' ∧ x = x' := by
  simp only [List.cons_append, List.append_assoc, List.nil_append, List.cons.injEq, true_and] at h
  exact eq_of_append h

theorem Element.eq_of_append {e e' : Element} {x x' : List Char}
    (h : e.text ++ x = e'.text ++ x') : e = e' ∧ x = x' := by
  induction e generalizing e' with
  | single c other =>
    cases e' with
    | single c' other' =>
      obtain ⟨rfl, hx⟩ := List.cons.inj h
      exact ⟨rfl, hx⟩
    | object name' => exact absurd (List.cons.inj h).1 other.2
    | array element' => exact absurd (List.cons.inj h).1 other.1
  | object name =>
    cases e' with
    | single c' other' => exact absurd (List.cons.inj h).1.symm other'.2
    | object name' =>
      obtain ⟨rfl, hx⟩ := LooseName.eq_of_object h
      exact ⟨rfl, hx⟩
    | array element' => exact absurd (List.cons.inj h).1 (by decide)
  | array element ih =>
    cases e' with
    | single c' other' => exact absurd (List.cons.inj h).1.symm other'.1
    | object name' => exact absurd (List.cons.inj h).1 (by decide)
    | array element' =>
      obtain ⟨rfl, hx⟩ := ih (List.cons.inj h).2
      exact ⟨rfl, hx⟩

/-- A part ends where its characters say. -/
theorem Part.eq_of_append {p p' : Part} {x x' : List Char}
    (h : p.text ++ x = p'.text ++ x') : p = p' ∧ x = x' := by
  cases p with
  | primitive q =>
    cases p' with
    | primitive q' =>
      obtain ⟨hletter, hx⟩ := List.cons.inj h
      have hq := Primitive.ofLetter?_eq_some_iff.mpr hletter
      rw [Primitive.ofLetter?_letter] at hq
      obtain rfl := Option.some.inj hq
      exact ⟨rfl, hx⟩
    | object name' => exact absurd (List.cons.inj h).1 q.letter_ne.1
    | array element' => exact absurd (List.cons.inj h).1 q.letter_ne.2.1
  | object name =>
    cases p' with
    | primitive q' => exact absurd (List.cons.inj h).1.symm q'.letter_ne.1
    | object name' =>
      obtain ⟨rfl, hx⟩ := LooseName.eq_of_object h
      exact ⟨rfl, hx⟩
    | array element' => exact absurd (List.cons.inj h).1 (by decide)
  | array element =>
    cases p' with
    | primitive q' => exact absurd (List.cons.inj h).1.symm q'.letter_ne.2.1
    | object name' => exact absurd (List.cons.inj h).1 (by decide)
    | array element' =>
      obtain ⟨rfl, hx⟩ := Element.eq_of_append (List.cons.inj h).2
      exact ⟨rfl, hx⟩

theorem Part.text_ne_nil (p : Part) : p.text ≠ [] := by
  cases p <;> exact List.cons_ne_nil _ _

/-- **Parts are cut in one way.** -/
theorem spelled_inj {ps ps' : List Part} (h : spelled ps = spelled ps') : ps = ps' := by
  induction ps generalizing ps' with
  | nil =>
    cases ps' with
    | nil => rfl
    | cons p' ps' => exact absurd h.symm (List.append_ne_nil_of_left_ne_nil p'.text_ne_nil _)
  | cons p ps ih =>
    cases ps' with
    | nil => exact absurd h (List.append_ne_nil_of_left_ne_nil p.text_ne_nil _)
    | cons p' ps' =>
      obtain ⟨rfl, hrest⟩ := Part.eq_of_append h
      rw [ih hrest]

/-! ### Sizes of parts -/

/-- The name of a class is read up to its semicolon. -/
theorem sizesFrom_name (name : LooseName) (rest : List Char) :
    sizesFrom .name (name.text ++ ';' :: rest) = (sizesFrom .start rest).map (1 :: ·) := by
  obtain ⟨text, semicolon⟩ := name
  induction text with
  | nil => rfl
  | cons c text ih =>
    rw [List.cons_append, sizesFrom, if_neg (List.ne_of_not_mem_cons semicolon).symm,
      ih (List.not_mem_of_not_mem_cons semicolon)]

/-- What stands behind a bracket does not change the size of an array. -/
theorem sizesFrom_element (element : Element) (rest : List Char) :
    sizesFrom .brackets (element.text ++ rest) = (sizesFrom .start rest).map (1 :: ·) := by
  induction element with
  | single c other =>
    rw [Element.text, List.singleton_append, sizesFrom, if_neg other.1, if_neg other.2]
  | object name =>
    rw [Element.text, List.cons_append, List.append_assoc, List.singleton_append, sizesFrom,
      if_neg (by decide), if_pos rfl, sizesFrom_name]
  | array element ih => rw [Element.text, List.cons_append, sizesFrom, if_pos rfl, ih]

/-- **The size of a part** is read from its characters. -/
theorem sizesFrom_part (p : Part) (rest : List Char) :
    sizesFrom .start (p.text ++ rest) = (sizesFrom .start rest).map (p.slots :: ·) := by
  cases p with
  | primitive p => cases p <;> rfl
  | object name =>
    rw [Part.text, List.cons_append, List.append_assoc, List.singleton_append, Part.slots_object]
    exact sizesFrom_name name rest
  | array element =>
    rw [Part.slots_array]
    exact sizesFrom_element element rest

theorem sizesFrom_spelled (ps : List Part) :
    sizesFrom .start (spelled ps) = some (ps.map Part.slots) := by
  induction ps with
  | nil => rfl
  | cons p ps ih => rw [spelled_cons, sizesFrom_part, ih, Option.map_some, List.map_cons]

/-- What has to follow, for these sizes, where so much of a part has been read. -/
def Follows : Progress → List Char → List Nat → Prop
  | .start, text, sizes => ∃ ps, text = spelled ps ∧ sizes = ps.map Part.slots
  | .name, text, sizes => ∃ (name : LooseName) (ps : List Part),
      text = name.text ++ ';' :: spelled ps ∧ sizes = 1 :: ps.map Part.slots
  | .brackets, text, sizes => ∃ (e : Element) (ps : List Part),
      text = e.text ++ spelled ps ∧ sizes = 1 :: ps.map Part.slots

/-- A part comes first. -/
theorem follows_start_append (p : Part) {text : List Char} {sizes : List Nat}
    (h : Follows .start text sizes) : Follows .start (p.text ++ text) (p.slots :: sizes) := by
  obtain ⟨ps, rfl, rfl⟩ := h
  exact ⟨p :: ps, (spelled_cons p ps).symm, rfl⟩

/-- The letters that are read as primitive types. -/
theorem exists_primitive {c : Char} :
    (c = 'J' ∨ c = 'D' → ∃ p, p.letter = c ∧ (Part.primitive p).slots = 2) ∧
      (c ∈ ['Z', 'B', 'C', 'S', 'I', 'F'] →
        ∃ p, p.letter = c ∧ (Part.primitive p).slots = 1) := by
  constructor
  · rintro (rfl | rfl)
    exacts [⟨.long, rfl, rfl⟩, ⟨.double, rfl, rfl⟩]
  · intro h
    simp only [List.mem_cons, List.not_mem_nil, or_false] at h
    obtain rfl | rfl | rfl | rfl | rfl | rfl := h
    exacts [⟨.boolean, rfl, rfl⟩, ⟨.byte, rfl, rfl⟩, ⟨.char, rfl, rfl⟩, ⟨.short, rfl, rfl⟩,
      ⟨.int, rfl, rfl⟩, ⟨.float, rfl, rfl⟩]

/-- **Only parts are read.** -/
theorem follows_of_sizesFrom {progress : Progress} {text : List Char} {sizes : List Nat}
    (h : sizesFrom progress text = some sizes) : Follows progress text sizes := by
  fun_induction sizesFrom progress text generalizing sizes with
  | case1 => exact ⟨[], rfl, (Option.some.inj h).symm⟩
  | case2 => cases h
  | case3 c rest hwide ih =>
    obtain ⟨later, hlater, rfl⟩ := Option.map_eq_some_iff.mp h
    obtain ⟨p, rfl, hslots⟩ := exists_primitive.1 hwide
    exact hslots ▸ follows_start_append (.primitive p) (ih hlater)
  | case4 c rest _ hnarrow ih =>
    obtain ⟨later, hlater, rfl⟩ := Option.map_eq_some_iff.mp h
    obtain ⟨p, rfl, hslots⟩ := exists_primitive.2 hnarrow
    exact hslots ▸ follows_start_append (.primitive p) (ih hlater)
  | case5 rest _ _ ih =>
    obtain ⟨name, ps, rfl, rfl⟩ := ih h
    refine ⟨.object name :: ps, ?_, by rw [List.map_cons, Part.slots_object]⟩
    rw [spelled_cons, Part.text, List.cons_append, List.append_assoc, List.singleton_append]
  | case6 rest _ _ _ ih =>
    obtain ⟨e, ps, rfl, rfl⟩ := ih h
    exact ⟨.array e :: ps, rfl, by rw [List.map_cons, Part.slots_array]⟩
  | case7 => cases h
  | case8 rest ih =>
    obtain ⟨later, hlater, rfl⟩ := Option.map_eq_some_iff.mp h
    obtain ⟨ps, rfl, rfl⟩ := ih hlater
    exact ⟨⟨[], List.not_mem_nil⟩, ps, rfl, rfl⟩
  | case9 c rest hc ih =>
    obtain ⟨name, ps, rfl, rfl⟩ := ih h
    exact ⟨⟨c :: name.text, List.not_mem_cons_of_ne_of_not_mem (Ne.symm hc) name.semicolon⟩, ps,
      rfl, rfl⟩
  | case10 rest ih =>
    obtain ⟨e, ps, rfl, rfl⟩ := ih h
    exact ⟨.array e, ps, rfl, rfl⟩
  | case11 rest _ ih =>
    obtain ⟨name, ps, rfl, rfl⟩ := ih h
    refine ⟨.object name, ps, ?_, rfl⟩
    rw [Element.text, List.cons_append, List.append_assoc, List.singleton_append]
  | case12 c rest hbracket hclass ih =>
    obtain ⟨later, hlater, rfl⟩ := Option.map_eq_some_iff.mp h
    obtain ⟨ps, rfl, rfl⟩ := ih hlater
    exact ⟨.single c ⟨hbracket, hclass⟩, ps, rfl, rfl⟩

/-- **The texts whose sizes are read** are those of parts. -/
theorem sizesFrom_start_eq_some_iff {text : List Char} {sizes : List Nat} :
    sizesFrom .start text = some sizes ↔ ∃ ps, text = spelled ps ∧ sizes = ps.map Part.slots := by
  constructor
  · exact follows_of_sizesFrom
  · rintro ⟨ps, rfl, rfl⟩
    exact sizesFrom_spelled ps

/-! ### Descriptors -/

/-- The text begins with a list of parameters, which goes up to the first closing parenthesis. -/
def IsList (descriptor : String) (parameters : List Char) : Prop :=
  ')' ∉ parameters ∧ ∃ result, descriptor.toList = '(' :: (parameters ++ ')' :: result)

/-- There is one list of parameters at most. -/
theorem IsList.unique {descriptor : String} {ps ps' : List Char} (h : IsList descriptor ps)
    (h' : IsList descriptor ps') : ps = ps' := by
  obtain ⟨hclose, result, heq⟩ := h
  obtain ⟨hclose', result', heq'⟩ := h'
  have hsame := (List.cons.inj (heq.symm.trans heq')).2
  have hbefore := before?_append hclose result
  rw [hsame, before?_append hclose' result'] at hbefore
  exact (Option.some.inj hbefore).symm

theorem argumentSizes?_eq_some_iff {descriptor : String} {sizes : List Nat} :
    argumentSizes? descriptor = some sizes ↔
      ∃ parameters, IsList descriptor parameters ∧ sizesFrom .start parameters = some sizes := by
  rw [argumentSizes?]
  constructor
  · intro h
    split at h
    · next text htext =>
      obtain ⟨parameters, hbefore, hsizes⟩ := Option.bind_eq_some_iff.mp h
      obtain ⟨hclose, result, rfl⟩ := eq_of_before? hbefore
      exact ⟨parameters, ⟨hclose, result, htext⟩, hsizes⟩
    · cases h
  · rintro ⟨parameters, ⟨hclose, result, htext⟩, hsizes⟩
    simp only [htext, before?_append hclose, Option.bind_some, hsizes]

end Descriptor

/-- Two slots are for the long ones among the numbers. -/
theorem FieldType.slots_width (t : FieldType) :
    t.width.slots = if t = .primitive .long ∨ t = .primitive .double then 2 else 1 := by
  cases t with
  | primitive p => cases p <;> rfl
  | object name => exact (if_neg (by simp)).symm
  | array element => exact (if_neg (by simp)).symm

/-- **The sizes of the arguments** of a method. -/
theorem MethodType.argumentSizes?_text (t : MethodType)
    (h : ∀ p ∈ t.parameters, ')' ∉ p.text) :
    Descriptor.argumentSizes? (String.ofList t.text) =
      some (t.parameters.map (·.width.slots)) := by
  have hclose : ')' ∉ t.parameters.flatMap FieldType.text := by
    simpa using h
  refine Descriptor.argumentSizes?_eq_some_iff.mpr
    ⟨_, ⟨hclose, resultText t.result, String.toList_ofList⟩, ?_⟩
  rw [← Descriptor.spelled_map_ofType, Descriptor.sizesFrom_spelled, List.map_map]
  simp only [Function.comp_def, Descriptor.Part.slots_ofType]

namespace Descriptor

/-- The descriptor lists types of these sizes. -/
def Declares (descriptor : String) (sizes : List Nat) : Prop :=
  ∃ ts : List FieldType, IsList descriptor (ts.flatMap FieldType.text) ∧
    sizes = ts.map fun t => if t = .primitive .long ∨ t = .primitive .double then 2 else 1

theorem exists_map_ofType {ps : List Part} (h : ∀ p ∈ ps, p.IsProper) :
    ∃ ts : List FieldType, ts.map Part.ofType = ps := by
  induction ps with
  | nil => exact ⟨[], rfl⟩
  | cons p ps ih =>
    obtain ⟨hp, hps⟩ := List.forall_mem_cons.mp h
    obtain ⟨t, rfl⟩ := Part.isProper_iff.mp hp
    obtain ⟨ts, rfl⟩ := ih hps
    exact ⟨t :: ts, rfl⟩

/-- **A list of parts is one of types** if every part is proper. -/
theorem declares_iff {descriptor : String} {ps : List Part}
    (h : IsList descriptor (spelled ps)) {sizes : List Nat} :
    Declares descriptor sizes ↔ (∀ p ∈ ps, p.IsProper) ∧ sizes = ps.map Part.slots := by
  have hslots (ts : List FieldType) : (ts.map Part.ofType).map Part.slots =
      ts.map fun t => if t = .primitive .long ∨ t = .primitive .double then 2 else 1 := by
    rw [List.map_map]
    simp only [Function.comp_def, Part.slots_ofType, FieldType.slots_width]
  constructor
  · rintro ⟨ts, hts, rfl⟩
    rw [← spelled_map_ofType] at hts
    obtain rfl := spelled_inj (hts.unique h)
    exact ⟨List.forall_mem_map.mpr fun t _ => Part.isProper_ofType t, (hslots ts).symm⟩
  · rintro ⟨hproper, rfl⟩
    obtain ⟨ts, rfl⟩ := exists_map_ofType hproper
    exact ⟨ts, spelled_map_ofType ts ▸ h, hslots ts⟩

/-- **Parameters are read by parts.** The sizes that are read from a descriptor are those of the
parts that its list of parameters is cut into, and there are none if it has no list or the list is
not made of parts. Types are parts, so they are read with their sizes. What is read is what the
descriptor says of types iff no part is improper: none is a class without a name, or an array whose
elements are such classes or have a letter that stands for no type. -/
theorem parameters_are_read_by_parts (descriptor : String) :
    (∀ sizes, argumentSizes? descriptor = some sizes ↔
      ∃ ps : List Part, IsList descriptor (spelled ps) ∧ sizes = ps.map Part.slots) ∧
    (∀ sizes, Declares descriptor sizes → argumentSizes? descriptor = some sizes) ∧
    ((∀ sizes, argumentSizes? descriptor = some sizes ↔ Declares descriptor sizes) ↔
      ∀ ps : List Part, IsList descriptor (spelled ps) → ∀ p ∈ ps, p.IsProper) := by
  have hread : ∀ sizes, argumentSizes? descriptor = some sizes ↔
      ∃ ps : List Part, IsList descriptor (spelled ps) ∧ sizes = ps.map Part.slots := by
    intro sizes
    rw [argumentSizes?_eq_some_iff]
    constructor
    · rintro ⟨parameters, hlist, hsizes⟩
      obtain ⟨ps, rfl, rfl⟩ := sizesFrom_start_eq_some_iff.mp hsizes
      exact ⟨ps, hlist, rfl⟩
    · rintro ⟨ps, hlist, rfl⟩
      exact ⟨spelled ps, hlist, sizesFrom_spelled ps⟩
  have htypes : ∀ sizes, Declares descriptor sizes → argumentSizes? descriptor = some sizes := by
    rintro sizes ⟨ts, hlist, hsizes⟩
    rw [← spelled_map_ofType] at hlist
    exact (hread sizes).mpr ⟨_, hlist, ((declares_iff hlist).mp
      ⟨ts, spelled_map_ofType ts ▸ hlist, hsizes⟩).2⟩
  refine ⟨hread, htypes, fun hsame ps hlist => ?_, fun hproper sizes => ⟨fun h => ?_, htypes sizes⟩⟩
  · exact ((declares_iff hlist).mp ((hsame _).mp ((hread _).mpr ⟨ps, hlist, rfl⟩))).1
  · obtain ⟨ps, hlist, hsizes⟩ := (hread sizes).mp h
    exact (declares_iff hlist).mpr ⟨hproper ps hlist, hsizes⟩

/-- **An array of unknown elements is read** as an argument: no type is spelled `[Q`. -/
theorem array_of_unknown_elements_is_read :
    argumentSizes? "([Q)V" = some [1] ∧ ∀ sizes, ¬ Declares "([Q)V" sizes := by
  refine ⟨by decide, fun sizes h => ?_⟩
  have hlist : IsList "([Q)V" (spelled [.array (.single 'Q' (by decide))]) :=
    ⟨by decide, ['V'], rfl⟩
  obtain ⟨hproper, -⟩ := (declares_iff hlist).mp h
  have hQ : (Primitive.ofLetter? 'Q').isSome = true := hproper _ (List.mem_singleton_self _)
  exact absurd hQ (by decide)

end Descriptor

end MutationTesting
