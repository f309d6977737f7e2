import Mathlib.Data.List.TakeWhile
import MutationTesting.Discovery
import MutationTesting.Proofs.Class.Descriptor
/-!
# What a test is

A class is one for the device if the first annotation that names a runner names the one on the
device, in whatever form class names may have; a class without such an annotation is one if it lies
at a path that begins in the right way. In these classes a method is a test that is annotated as
one. So is a method with no annotation at all that takes nothing and returns nothing, if it is named
like a test, or if it is public and the class names the runner.

The search looks at the two ends of a descriptor only. If the descriptor has a type, this is enough:
between the ends of `()V` there is no place for anything.

## Main definitions

* `HasSimpleName`, `ClassFile.NamesDeviceRunner`, `ClassFile.NamesNoRunner`
* `ClassFile.IsForDevice`, `ClassFile.HasTest` — the rule for classes and the one for methods

## Main results

* `simpleName_eq_iff`
* `descriptor_ends_iff` — a method that takes nothing and returns nothing, seen at the ends
* `mem_testUnitsOf_iff` — the tests of a class
-/

namespace MutationTesting

/-! ### Runners -/

section

variable {α : Type} {p : α → Bool} {xs ys : List α}

/-- What satisfies `p` at the beginning of a list, if the rest does not begin with it. -/
theorem takeWhile_append_of_stop (hxs : ∀ a ∈ xs, p a = true)
    (hys : ∀ a ∈ ys.head?, p a = false) : (xs ++ ys).takeWhile p = xs := by
  rw [List.takeWhile_append_of_pos hxs]
  cases ys with
  | nil => rw [List.takeWhile_nil, List.append_nil]
  | cons a ys => rw [List.takeWhile_cons, hys a rfl, if_neg Bool.false_ne_true, List.append_nil]

theorem dropWhile_append_of_stop (hxs : ∀ a ∈ xs, p a = true)
    (hys : ∀ a ∈ ys.head?, p a = false) : (xs ++ ys).dropWhile p = ys := by
  rw [List.dropWhile_append_of_pos hxs]
  cases ys with
  | nil => rfl
  | cons a ys => rw [List.dropWhile_cons, hys a rfl, if_neg Bool.false_ne_true]

theorem stop_of_mem_head?_dropWhile {a : α} (h : a ∈ (xs.dropWhile p).head?) : p a = false := by
  have hstop := List.head?_dropWhile_not p xs
  rw [Option.mem_def.mp h] at hstop
  exact hstop

end

/-- A part of a class name ends before such a character. -/
def isSeparator (c : Char) : Bool := c = '/' || c = '.' || c = '$'

/-- The last part of a class name is the simple one: before it there is nothing, or something that
ends where a part ends, and after it there is nothing but semicolons. -/
def HasSimpleName (name simple : String) : Prop :=
  ∃ lead ends, name.toList = lead ++ simple.toList ++ List.replicate ends ';' ∧
    ∀ c ∈ lead.getLast?, isSeparator c = true

theorem simpleName_eq (name : String) : simpleName name = String.ofList
    ((name.toList.reverse.dropWhile (· == ';')).takeWhile (!isSeparator ·)).reverse := by
  have hparts : (fun c => c != '/' && c != '.' && c != '$') = (!isSeparator ·) := by
    funext c
    simp [isSeparator, bne, Bool.beq_eq_decide_eq]
  rw [← hparts]
  rfl

theorem hasSimpleName_simpleName (name : String) : HasSimpleName name (simpleName name) := by
  set text := name.toList.reverse with htext
  set rest := text.dropWhile (· == ';') with hrest
  have hends : text.takeWhile (· == ';') =
      List.replicate (text.takeWhile (· == ';')).length ';' :=
    List.eq_replicate_of_mem fun c hc => by simpa using List.mem_takeWhile_imp hc
  refine ⟨(rest.dropWhile (!isSeparator ·)).reverse, (text.takeWhile (· == ';')).length, ?_,
    fun c hc => ?_⟩
  · rw [simpleName_eq, String.toList_ofList, ← htext, ← hrest, ← List.reverse_append,
      List.takeWhile_append_dropWhile, ← List.reverse_replicate, ← hends, ← List.reverse_append,
      hrest, List.takeWhile_append_dropWhile, htext, List.reverse_reverse]
  · rw [List.getLast?_reverse] at hc
    simpa using stop_of_mem_head?_dropWhile hc

/-- **The simple name of a class** whose name is written in some form. -/
theorem simpleName_eq_iff {name simple : String}
    (h : ∀ c ∈ simple.toList, c ≠ ';' ∧ isSeparator c = false) :
    simpleName name = simple ↔ HasSimpleName name simple := by
  constructor
  · rintro rfl
    exact hasSimpleName_simpleName name
  · rintro ⟨lead, ends, hname, hlead⟩
    have hlead' : ∀ c ∈ lead.reverse.head?, isSeparator c = true := by
      rwa [List.head?_reverse]
    have hsimple : ∀ c ∈ simple.toList.reverse, (!isSeparator c) = true := fun c hc => by
      rw [(h c (List.mem_reverse.mp hc)).2, Bool.not_false]
    have hstop : ∀ c ∈ (simple.toList.reverse ++ lead.reverse).head?, (c == ';') = false := by
      intro c hc
      rw [List.head?_append, Option.mem_def, Option.or_eq_some_iff] at hc
      obtain hc | ⟨-, hc⟩ := hc
      · have hmem := List.mem_reverse.mp (List.mem_of_mem_head? hc)
        exact beq_eq_false_iff_ne.mpr (h c hmem).1
      · refine beq_eq_false_iff_ne.mpr ?_
        rintro rfl
        exact absurd (hlead' _ hc) (by decide)
    rw [simpleName_eq, hname, List.reverse_append, List.reverse_append, List.reverse_replicate,
      dropWhile_append_of_stop (by simp) hstop,
      takeWhile_append_of_stop hsimple fun c hc => by rw [hlead' c hc, Bool.not_true],
      List.reverse_reverse, String.ofList_toList]

namespace ClassFile

/-- The first annotation that names a runner names the one on the device. -/
def NamesDeviceRunner (c : ClassFile) : Prop :=
  ∃ before a after name, c.annotations = before ++ a :: after ∧
    (∀ b ∈ before, b.descriptor ≠ runWithAnnotation) ∧ a.descriptor = runWithAnnotation ∧
    a.value = some name ∧ HasSimpleName name deviceRunner

/-- There is no annotation that names a runner. -/
def NamesNoRunner (c : ClassFile) : Prop :=
  ∀ a ∈ c.annotations, a.descriptor ≠ runWithAnnotation

variable {c : ClassFile}

theorem declaredRunner?_eq_device_iff :
    declaredRunner? c = some deviceRunner ↔ c.NamesDeviceRunner := by
  have hplain : deviceRunner.toList.all (fun c => c != ';' && !isSeparator c) = true := by decide
  have hsimple {name : String} : simpleName name = deviceRunner ↔ HasSimpleName name deviceRunner :=
    simpleName_eq_iff fun c hc => by simpa using List.all_eq_true.mp hplain c hc
  rw [declaredRunner?, Option.map_eq_some_iff]
  constructor
  · rintro ⟨a, hfind, hrunner⟩
    obtain ⟨ha, before, after, hannotations, hbefore⟩ := List.find?_eq_some_iff_append.mp hfind
    cases hvalue : a.value with
    | none =>
      rw [hvalue] at hrunner
      exact absurd hrunner (by decide)
    | some name =>
      rw [hvalue] at hrunner
      exact ⟨before, a, after, name, hannotations, fun b hb => by simpa using hbefore b hb,
        eq_of_beq ha, hvalue, hsimple.mp hrunner⟩
  · rintro ⟨before, a, after, name, hannotations, hbefore, ha, hvalue, hname⟩
    refine ⟨a, List.find?_eq_some_iff_append.mpr ⟨beq_iff_eq.mpr ha, before, after, hannotations,
      fun b hb => by simpa using hbefore b hb⟩, ?_⟩
    rw [hvalue]
    exact hsimple.mpr hname

theorem declaredRunner?_eq_none_iff : declaredRunner? c = none ↔ c.NamesNoRunner := by
  rw [declaredRunner?, Option.map_eq_none_iff, List.find?_eq_none]
  simp only [beq_iff_eq, NamesNoRunner, ne_eq]

end ClassFile

/-! ### Methods -/

/-- No type ends like a result that is missing. -/
theorem FieldType.getLast?_text_ne (t : FieldType) : t.text.getLast? ≠ some 'V' := by
  induction t with
  | primitive p => cases p <;> decide
  | object name =>
    rw [text, List.getLast?_concat]
    decide
  | array element ih =>
    obtain ⟨c, rest, htext, -⟩ := element.exists_cons_text
    rw [text, htext, List.getLast?_cons_cons, ← htext]
    exact ih

/-- **A method that takes nothing and returns nothing** is known by the two ends of its descriptor,
if this has a type. -/
theorem descriptor_ends_iff {descriptor : String} {t : MethodType}
    (ht : MethodType.ofDescriptor? descriptor = some t) :
    ['(', ')'] <+: descriptor.toList ∧ [')', 'V'] <:+ descriptor.toList ↔ t = ⟨[], none⟩ := by
  rw [MethodType.ofDescriptor?_eq_some_iff.mp ht]
  obtain ⟨parameters, result⟩ := t
  constructor
  · rintro ⟨hstart, hend⟩
    cases parameters with
    | cons first parameters =>
      -- the parenthesis would be the beginning of a type
      obtain ⟨c, rest, hfirst, hc⟩ := first.exists_cons_text
      simp [MethodType.text, hfirst, hc.symm] at hstart
    | nil =>
      cases result with
      | none => rfl
      | some r =>
        obtain ⟨c, rest, htext, -⟩ := r.exists_cons_text
        obtain ⟨before, heq⟩ := hend
        have hlast : r.text.getLast? = some 'V' := by
          simpa [MethodType.text, MethodType.resultText, htext] using
            (congrArg List.getLast? heq).symm
        exact absurd hlast r.getLast?_text_ne
  · intro h
    cases h
    decide

namespace ClassFile

/-- **The rule for methods**: which methods of a class for the device are tests. -/
def HasTest (c : ClassFile) (m : Method) : Prop :=
  m ∈ c.methods ∧ m.name.toList.head? ≠ some '<' ∧
    ((∃ a ∈ m.annotations, a.descriptor = testAnnotation) ∨
      m.annotations = [] ∧ MethodType.ofDescriptor? m.descriptor = some ⟨[], none⟩ ∧
        ("test".toList <+: m.name.toList ∨ m.access &&& publicFlag ≠ 0 ∧ c.NamesDeviceRunner))

/-- **The rule for classes**: which classes are for the device, by the path at which they lie. -/
def IsForDevice (c : ClassFile) (location : Path) (prefixes : List String) : Prop :=
  c.NamesDeviceRunner ∨ c.NamesNoRunner ∧ ∃ p ∈ prefixes, p.toList <+: location.text.toList

end ClassFile

theorem isTestMethod_iff {c : ClassFile} {m : Method} {hasRunner : Bool}
    (hrunner : hasRunner = true ↔ c.NamesDeviceRunner)
    (htype : (MethodType.ofDescriptor? m.descriptor).isSome) (hm : m ∈ c.methods) :
    isTestMethod hasRunner m = true ↔ c.HasTest m := by
  obtain ⟨t, ht⟩ := Option.isSome_iff_exists.mp htype
  have hplain : (m.annotations.isEmpty && ['(', ')'].isPrefixOf m.descriptor.toList
      && [')', 'V'].isSuffixOf m.descriptor.toList) = true ↔
      m.annotations = [] ∧ MethodType.ofDescriptor? m.descriptor = some ⟨[], none⟩ := by
    rw [Bool.and_eq_true, Bool.and_eq_true, List.isPrefixOf_iff_prefix, List.isSuffixOf_iff_suffix,
      List.isEmpty_iff, and_assoc, descriptor_ends_iff ht, ht, Option.some_inj]
  have hannotated : m.annotations.any (·.descriptor == testAnnotation) = true ↔
      ∃ a ∈ m.annotations, a.descriptor = testAnnotation := by
    simp only [List.any_eq_true, beq_iff_eq]
  rw [ClassFile.HasTest, ← hannotated, ← and_assoc (a := m.annotations = []), ← hplain, ← hrunner,
    isTestMethod]
  split
  · next hstart => simp [hstart]
  · next hstart =>
    split
    · next htest => simp [hm, hstart, htest]
    · next htest =>
      split
      · next hends => simp [hm, hstart, htest, hends, List.isPrefixOf_iff_prefix]
      · next hends => simp [htest, hends]

/-! ### Classes -/

variable {c : ClassFile} {t : TestUnit}

theorem mem_testMethodsOf_iff {hasRunner : Bool} (hrunner : hasRunner = true ↔ c.NamesDeviceRunner)
    (htypes : ∀ m ∈ c.methods, (MethodType.ofDescriptor? m.descriptor).isSome) :
    t ∈ testMethodsOf hasRunner c ↔ ∃ m, c.HasTest m ∧ t = ⟨c.dottedName, m.name⟩ := by
  rw [testMethodsOf, List.mem_map]
  refine exists_congr fun m => ?_
  rw [List.mem_filter, eq_comm (b := t)]
  refine and_congr_left fun _ => ⟨fun ⟨hm, htest⟩ => ?_, fun htest => ?_⟩
  · exact (isTestMethod_iff hrunner (htypes m hm) hm).mp htest
  · exact ⟨htest.1, (isTestMethod_iff hrunner (htypes m htest.1) htest.1).mpr htest⟩

/-- **The tests of a class** that lies at a path: those methods that are tests, if the class is for
the device. -/
theorem mem_testUnitsOf_iff {location : Path} {prefixes : List String}
    (htypes : ∀ m ∈ c.methods, (MethodType.ofDescriptor? m.descriptor).isSome) :
    t ∈ testUnitsOf c location prefixes ↔
      c.IsForDevice location prefixes ∧ ∃ m, c.HasTest m ∧ t = ⟨c.dottedName, m.name⟩ := by
  rw [ClassFile.IsForDevice, ← ClassFile.declaredRunner?_eq_device_iff,
    ← ClassFile.declaredRunner?_eq_none_iff, testUnitsOf]
  cases hdeclared : declaredRunner? c with
  | some runner =>
    simp only [Option.some_inj, reduceCtorEq, false_and, or_false]
    split
    · next hrunner =>
      have hdevice : c.NamesDeviceRunner := by
        rw [← ClassFile.declaredRunner?_eq_device_iff, hdeclared, eq_of_beq hrunner]
      rw [mem_testMethodsOf_iff (iff_of_true rfl hdevice) htypes,
        and_iff_right (eq_of_beq hrunner)]
    · next hrunner => exact iff_of_false List.not_mem_nil fun h => hrunner (beq_iff_eq.mpr h.1)
  | none =>
    have hother : ¬ c.NamesDeviceRunner := fun hdevice => by
      rw [ClassFile.declaredRunner?_eq_device_iff.mpr hdevice] at hdeclared
      cases hdeclared
    have hprefixes : (prefixes.any fun p => p.toList.isPrefixOf location.text.toList) = true ↔
        ∃ p ∈ prefixes, p.toList <+: location.text.toList := by
      simp only [List.any_eq_true, List.isPrefixOf_iff_prefix]
    simp only [reduceCtorEq, false_or, true_and, ← hprefixes]
    split
    · next hprefix =>
      rw [mem_testMethodsOf_iff (iff_of_false Bool.false_ne_true hother) htypes,
        and_iff_right hprefix]
    · next hprefix => exact iff_of_false List.not_mem_nil fun h => hprefix h.1

end MutationTesting
