import MutationTesting.Mutation.Mutant
/-!
# Sites by their place

A pass finds sites while it runs. Here they are described without a pass: a site is a place in a
class, a policy, and what the inspector of the policy finds there. What an inspector finds in an
item depends on the items before it and on nothing else, so the sites of a class are a list that
can be written down at once, and the pass only numbers them.

The order of the list is the order of issue: the methods in their order, in a method the items in
their order, in an item the policies in chain order.

## Main definitions

* `Split`, `splits` — a list taken apart at one of its items
* `Inspector.memoryAfter`, `Inspector.finding?` — what is found in an item after a stream
* `Place`, `ClassFile.places`
* `Site`, `ClassFile.sitesOf` — the sites of policies in a class
* `Site.mutation` — a site with its number
* `Site.mutate` — the class in which the site is live

## Main results

* `ClassFile.mem_sitesOf` — what belongs to a site
* `ClassFile.sites_before` — the sites that are issued before a site
-/

namespace MutationTesting

/-! ### Lists taken apart -/

/-- A list taken apart at one of its items. -/
structure Split (α : Type) where
  before : List α
  item : α
  after : List α
  deriving DecidableEq

/-- The list that was taken apart. -/
def Split.whole {α : Type} (s : Split α) : List α := s.before ++ s.item :: s.after

/-- The splits of `before ++ mid ++ after` at the items of `mid`, in order. -/
def splitsFrom {α : Type} (before : List α) : (mid after : List α) → List (Split α)
  | [], _ => []
  | x :: mid, after => ⟨before, x, mid ++ after⟩ :: splitsFrom (before ++ [x]) mid after

/-- The splits of a list, in order. -/
def splits {α : Type} (l : List α) : List (Split α) := splitsFrom [] l []

theorem splitsFrom_append {α : Type} (before first rest after : List α) :
    splitsFrom before (first ++ rest) after =
      splitsFrom before first (rest ++ after) ++ splitsFrom (before ++ first) rest after := by
  induction first generalizing before with
  | nil => simp [splitsFrom]
  | cons x first ih => simp [splitsFrom, ih]

/-- The splits before a split of a list are those at the items before its own. -/
theorem eq_splitsFrom_of_append_cons {α : Type} {before mid after : List α} {s : Split α}
    {first rest : List (Split α)} (h : splitsFrom before mid after = first ++ s :: rest) :
    ∃ front back, s.before = before ++ front ∧ s.after = back ++ after ∧
      mid = front ++ s.item :: back ∧ first = splitsFrom before front (s.item :: s.after) := by
  induction mid generalizing before first with
  | nil => simp [splitsFrom] at h
  | cons x mid ih =>
    cases first with
    | nil =>
      obtain ⟨rfl, -⟩ : (⟨before, x, mid ++ after⟩ : Split α) = s ∧ _ := by
        simpa [splitsFrom] using h
      exact ⟨[], mid, by simp, rfl, rfl, rfl⟩
    | cons s₁ first =>
      obtain ⟨rfl, hlater⟩ : (⟨before, x, mid ++ after⟩ : Split α) = s₁ ∧
          splitsFrom (before ++ [x]) mid after = first ++ s :: rest := by
        simpa [splitsFrom] using h
      obtain ⟨front, back, hb, ha, hm, hf⟩ := ih hlater
      exact ⟨x :: front, back, by simp [hb], ha, by simp [hm], by simp [splitsFrom, hf, hm, ha]⟩

/-- A split belongs to a list iff it puts the list together again. -/
theorem mem_splits {α : Type} {s : Split α} {l : List α} : s ∈ splits l ↔ s.whole = l := by
  constructor
  · intro h
    obtain ⟨first, rest, h⟩ := List.append_of_mem h
    obtain ⟨front, back, hb, ha, rfl, -⟩ := eq_splitsFrom_of_append_cons h
    simp [Split.whole, hb, ha]
  · rintro rfl
    rw [splits, Split.whole, splitsFrom_append]
    simp [splitsFrom]

/-- A list taken apart at the item with a number. -/
theorem exists_append_of_getElem? {α : Type} {l : List α} {n : Nat} {a : α} (h : l[n]? = some a) :
    ∃ first rest, l = first ++ a :: rest ∧ first.length = n := by
  obtain ⟨hn, rfl⟩ := List.getElem?_eq_some_iff.mp h
  refine ⟨l.take n, l.drop (n + 1), ?_, ?_⟩
  · rw [List.getElem_cons_drop, List.take_append_drop]
  · rw [List.length_take, Nat.min_eq_left (Nat.le_of_lt hn)]

/-- A list with one more item is taken apart at this item or before it. -/
theorem eq_or_exists_of_concat_eq {α : Type} {l first rest : List α} {a b : α}
    (h : l ++ [a] = first ++ b :: rest) :
    (l = first ∧ a = b) ∨ ∃ rest', l = first ++ b :: rest' := by
  obtain rfl | ⟨rest', x, rfl⟩ := List.eq_nil_or_concat rest
  · exact .inl (by simpa using h)
  · rw [List.concat_eq_append, ← List.cons_append, ← List.append_assoc] at h
    exact .inr ⟨rest', (List.append_inj' h rfl).1⟩

/-! ### What an inspector finds after a stream -/

namespace Inspector

/-- What an inspector remembers after the items of a stream. -/
def memoryAfter (I : Inspector) (items : List Instruction) : I.Memory :=
  items.foldl (fun m i => (I.inspect m i).1) I.start

/-- What an inspector finds in an item that comes after the items of a stream. -/
def finding? (I : Inspector) (before : List Instruction) (item : Instruction) : Option Finding :=
  (I.inspect (I.memoryAfter before) item).2

@[simp] theorem memoryAfter_nil (I : Inspector) : I.memoryAfter [] = I.start := rfl

@[simp] theorem memoryAfter_concat (I : Inspector) (items : List Instruction) (i : Instruction) :
    I.memoryAfter (items ++ [i]) = (I.inspect (I.memoryAfter items) i).1 := by
  simp [memoryAfter]

end Inspector

/-! ### Places -/

/-- The source line at hand after the items of a stream, zero before the first line marker. -/
def lineAfter (items : List Instruction) : UInt32 :=
  items.foldl (fun line i => i.sourceLine?.getD line) 0

@[simp] theorem lineAfter_nil : lineAfter [] = 0 := rfl

theorem lineAfter_concat (items : List Instruction) (i : Instruction) :
    lineAfter (items ++ [i]) = i.sourceLine?.getD (lineAfter items) := by
  simp [lineAfter]

/-- An item of a method of a class. -/
structure Place where
  /-- The method among the methods of the class. -/
  methods : Split Method
  /-- The item in the code of the method. -/
  code : Split Instruction
  deriving DecidableEq

namespace Place

/-- The method of a place. -/
def method (pl : Place) : Method := pl.methods.item

/-- The source line of a place. -/
def line (pl : Place) : UInt32 := lineAfter (pl.code.before ++ [pl.code.item])

/-- What policies know of the method of a place. -/
def methodInfo (classInfo : ClassInfo) (pl : Place) : MethodInfo := ⟨classInfo, pl.method.name⟩

/-- What a policy finds at a place. -/
def finding? (classInfo : ClassInfo) (pl : Place) (p : Policy) : Option Finding :=
  (p.inspector (pl.methodInfo classInfo)).finding? pl.code.before pl.code.item

end Place

/-- The places of a method among the methods of a class, in order. -/
def Split.places (methods : Split Method) : List Place :=
  (splits methods.item.instructions).map (Place.mk methods)

/-- The places of a class, in order. -/
def ClassFile.places (c : ClassFile) : List Place := (splits c.methods).flatMap Split.places

theorem ClassFile.mem_places {c : ClassFile} {pl : Place} :
    pl ∈ c.places ↔ pl.methods.whole = c.methods ∧ pl.code.whole = pl.method.instructions := by
  simp only [places, Split.places, List.mem_flatMap, List.mem_map, mem_splits]
  constructor
  · rintro ⟨methods, hm, code, hc, rfl⟩
    exact ⟨hm, hc⟩
  · rintro ⟨hm, hc⟩
    exact ⟨pl.methods, hm, pl.code, hc, rfl⟩

/-! ### Sites -/

/-- What a policy finds at a place. -/
structure Site where
  place : Place
  policy : Policy
  finding : Finding

namespace Site

/-- The identifier of a site that is issued after `n` others. -/
def id (classInfo : ClassInfo) (n : Nat) (s : Site) : MutationId :=
  ⟨s.policy.name, classInfo.name, s.place.method.signature, n, s.finding.description⟩

/-- What is known of a site that is issued after `n` others. -/
def mutation (classInfo : ClassInfo) (n : Nat) (s : Site) : Mutation :=
  ⟨s.id classInfo n, s.place.line, classInfo.sourceFile⟩

/-- The code of the method when the site is live. -/
def code (s : Site) : List Instruction :=
  match s.finding.replacement with
  | none => s.place.code.whole
  | some replacement =>
    s.place.code.before ++ replacement ++ if s.finding.endsBody then [] else s.place.code.after

theorem code_of_none {s : Site} (h : s.finding.replacement = none) :
    s.code = s.place.code.whole := by
  simp only [code, h]

theorem code_of_some {s : Site} {r : List Instruction} (h : s.finding.replacement = some r) :
    s.code = s.place.code.before ++
      (r ++ if s.finding.endsBody then [] else s.place.code.after) := by
  simp only [code, h, List.append_assoc]

end Site

/-- The sites of policies at a place. -/
def Place.sitesOf (classInfo : ClassInfo) (policies : List Policy) (pl : Place) : List Site :=
  policies.filterMap fun p => (pl.finding? classInfo p).map (Site.mk pl p)

/-- The policies that look at a class. -/
def ClassInfo.heeded (classInfo : ClassInfo) (policies : List Policy) : List Policy :=
  policies.filter fun p => !p.excludes classInfo

/-- The sites of policies in a class, in the order of issue. -/
def ClassFile.sitesOf (policies : List Policy) (c : ClassFile) : List Site :=
  c.places.flatMap (Place.sitesOf (.ofClass c) ((ClassInfo.ofClass c).heeded policies))

theorem Place.sitesOf_append (classInfo : ClassInfo) (policies later : List Policy) (pl : Place) :
    pl.sitesOf classInfo (policies ++ later) =
      pl.sitesOf classInfo policies ++ pl.sitesOf classInfo later :=
  List.filterMap_append

theorem Place.sitesOf_cons (classInfo : ClassInfo) (p : Policy) (later : List Policy) (pl : Place) :
    pl.sitesOf classInfo (p :: later) = pl.sitesOf classInfo [p] ++ pl.sitesOf classInfo later :=
  pl.sitesOf_append classInfo [p] later

theorem Place.mem_sitesOf {classInfo : ClassInfo} {policies : List Policy} {pl : Place} {s : Site} :
    s ∈ pl.sitesOf classInfo policies ↔
      s.policy ∈ policies ∧ s.place = pl ∧ pl.finding? classInfo s.policy = some s.finding := by
  simp only [sitesOf, List.mem_filterMap, Option.map_eq_some_iff]
  constructor
  · rintro ⟨p, hp, f, hf, rfl⟩
    exact ⟨hp, rfl, hf⟩
  · rintro ⟨hp, rfl, hf⟩
    exact ⟨s.policy, hp, s.finding, hf, rfl⟩

theorem ClassFile.mem_sitesOf {policies : List Policy} {c : ClassFile} {s : Site} :
    s ∈ c.sitesOf policies ↔
      s.policy ∈ policies ∧ s.policy.excludes (.ofClass c) = false ∧ s.place ∈ c.places ∧
        s.place.finding? (.ofClass c) s.policy = some s.finding := by
  simp only [sitesOf, List.mem_flatMap, Place.mem_sitesOf, ClassInfo.heeded, List.mem_filter,
    Bool.not_eq_true']
  constructor
  · rintro ⟨pl, hpl, ⟨hp, he⟩, rfl, hf⟩
    exact ⟨hp, he, hpl, hf⟩
  · rintro ⟨hp, he, hpl, hf⟩
    exact ⟨s.place, hpl, ⟨hp, he⟩, rfl, hf⟩

/-- The sites of policies in the code of a method, at given splits of it. -/
def Split.sitesAt (classInfo : ClassInfo) (policies : List Policy) (methods : Split Method)
    (codes : List (Split Instruction)) : List Site :=
  codes.flatMap fun code => Place.sitesOf classInfo policies ⟨methods, code⟩

theorem Split.methods_of_mem_sitesAt {classInfo : ClassInfo} {policies : List Policy}
    {methods : Split Method} {codes : List (Split Instruction)} {s : Site}
    (h : s ∈ methods.sitesAt classInfo policies codes) : s.place.methods = methods := by
  obtain ⟨code, -, hs⟩ := List.mem_flatMap.mp h
  rw [(Place.mem_sitesOf.mp hs).2.1]

/-- The sites of policies in the code of a method. -/
def Split.sitesOf (classInfo : ClassInfo) (policies : List Policy) (methods : Split Method) :
    List Site :=
  methods.sitesAt classInfo policies (splits methods.item.instructions)

theorem ClassFile.sitesOf_eq (policies : List Policy) (c : ClassFile) :
    c.sitesOf policies = (splits c.methods).flatMap
      (Split.sitesOf (.ofClass c) ((ClassInfo.ofClass c).heeded policies)) := by
  simp only [sitesOf, places, List.flatMap_assoc, Split.places, List.flatMap_map]
  rfl

/-- The sites of policies in the methods before the method of a place. -/
def Place.sitesInMethodsBefore (classInfo : ClassInfo) (policies : List Policy) (pl : Place) :
    List Site :=
  (splitsFrom [] pl.methods.before (pl.methods.item :: pl.methods.after)).flatMap
    (Split.sitesOf classInfo policies)

/-- The sites of policies in the items before the item of a place. -/
def Place.sitesInItemsBefore (classInfo : ClassInfo) (policies : List Policy) (pl : Place) :
    List Site :=
  pl.methods.sitesAt classInfo policies
    (splitsFrom [] pl.code.before (pl.code.item :: pl.code.after))

theorem exists_of_flatMap_eq {α β : Type} {f : α → List β} {l : List α} {first rest : List β}
    {b : β} (h : l.flatMap f = first ++ b :: rest) :
    ∃ l₁ a l₂ front back, l = l₁ ++ a :: l₂ ∧ f a = front ++ b :: back ∧
      first = l₁.flatMap f ++ front := by
  induction l generalizing first with
  | nil => simp at h
  | cons a l ih =>
    rw [List.flatMap_cons, List.append_eq_append_iff] at h
    obtain ⟨mid, rfl, h⟩ | ⟨mid, ha, h⟩ := h
    · obtain ⟨l₁, a', l₂, front, back, rfl, ha', rfl⟩ := ih h
      exact ⟨a :: l₁, a', l₂, front, back, rfl, ha', by simp⟩
    · cases mid with
      | nil =>
        have h' : l.flatMap f = [] ++ b :: rest := by simpa using h.symm
        obtain ⟨l₁, a', l₂, front, back, rfl, ha', hfirst⟩ := ih h'
        obtain ⟨h₁, rfl⟩ := List.append_eq_nil_iff.mp hfirst.symm
        exact ⟨a :: l₁, a', l₂, [], back, rfl, ha', by simp [h₁, ha]⟩
      | cons b' back =>
        obtain ⟨rfl, -⟩ : b = b' ∧ _ := by simpa using h
        exact ⟨[], a, l, first, back, rfl, ha, by simp⟩

/-- **The sites that are issued before a site**: those in the methods and in the items before its
own, and at its own place those of the policies before its own. -/
theorem ClassFile.sites_before {policies : List Policy} {c : ClassFile} {first rest : List Site}
    {s : Site} (h : c.sitesOf policies = first ++ s :: rest) :
    ∃ front back, (ClassInfo.ofClass c).heeded policies = front ++ s.policy :: back ∧
      first = s.place.sitesInMethodsBefore (.ofClass c) ((ClassInfo.ofClass c).heeded policies) ++
        (s.place.sitesInItemsBefore (.ofClass c) ((ClassInfo.ofClass c).heeded policies) ++
          s.place.sitesOf (.ofClass c) front) := by
  rw [sitesOf_eq] at h
  obtain ⟨ms₁, methods, ms₂, first₁, rest₁, hms, hm, rfl⟩ := exists_of_flatMap_eq h
  obtain ⟨codes₁, code, codes₂, first₂, rest₂, hcodes, hc, rfl⟩ := exists_of_flatMap_eq hm
  obtain ⟨front, back', hps, hfront, hback⟩ := List.filterMap_eq_append_iff.mp hc
  obtain ⟨skipped, q, back, rfl, hskip, hq, -⟩ := List.filterMap_eq_cons_iff.mp hback
  obtain ⟨f, -, rfl⟩ := Option.map_eq_some_iff.mp hq
  obtain ⟨_, _, hmethods, -, -, rfl⟩ := eq_splitsFrom_of_append_cons hms
  obtain ⟨_, _, hcode, -, -, rfl⟩ := eq_splitsFrom_of_append_cons hcodes
  rw [List.nil_append] at hmethods hcode
  subst hmethods hcode
  have hnone : skipped.filterMap (fun p =>
      (Place.finding? (.ofClass c) ⟨methods, code⟩ p).map (Site.mk ⟨methods, code⟩ p)) = [] :=
    List.filterMap_eq_nil_iff.mpr hskip
  refine ⟨front ++ skipped, back, by simp [hps], ?_⟩
  rw [Place.sitesOf, List.filterMap_append, hfront, hnone, List.append_nil]
  rfl

/-! ### The class in which a site is live -/

/-- The method with other code. What refers to labels that are gone goes too, but a method whose
code stays is left as it is. -/
def Method.withCode (m : Method) (code : List Instruction) : Method :=
  if code = m.instructions then m else { m with instructions := code }.pruneDangling

@[simp] theorem Method.withCode_self (m : Method) : m.withCode m.instructions = m := if_pos rfl

/-- New code may lose line markers and nothing else. -/
theorem Method.exists_filter_withCode (m : Method) (code : List Instruction) :
    ∃ kept : Instruction → Bool, (∀ i, kept i = false → ∃ n l, i = .line n l) ∧
      (m.withCode code).instructions = code.filter kept := by
  rw [withCode]
  split
  · next h => exact ⟨fun _ => true, by simp, h ▸ (List.filter_eq_self.mpr fun _ _ => rfl).symm⟩
  · refine ⟨_, fun i hi => ?_, rfl⟩
    cases i with
    | line n l => exact ⟨n, l, rfl⟩
    | _ => cases hi

/-- The class in which a site is live. -/
def Site.mutate (c : ClassFile) (s : Site) : ClassFile :=
  { c with
    methods :=
      s.place.methods.before ++ s.place.method.withCode s.code :: s.place.methods.after }

/-- A site that leaves the code as it is changes nothing. -/
theorem Site.mutate_of_code_eq {policies : List Policy} {c : ClassFile} {s : Site}
    (hs : s ∈ c.sitesOf policies) (h : s.code = s.place.method.instructions) : s.mutate c = c := by
  obtain ⟨-, -, hplace, -⟩ := ClassFile.mem_sitesOf.mp hs
  obtain ⟨hm, -⟩ := ClassFile.mem_places.mp hplace
  rw [mutate, h, Method.withCode_self]
  exact congrArg (fun methods => { c with methods }) hm

/-- A site that has no replacement changes nothing. -/
theorem Site.mutate_of_inert {policies : List Policy} {c : ClassFile} {s : Site}
    (hs : s ∈ c.sitesOf policies) (h : s.finding.replacement = none) : s.mutate c = c := by
  obtain ⟨-, -, hplace, -⟩ := ClassFile.mem_sitesOf.mp hs
  obtain ⟨-, hc⟩ := ClassFile.mem_places.mp hplace
  exact mutate_of_code_eq hs ((code_of_none h).trans hc)

end MutationTesting
