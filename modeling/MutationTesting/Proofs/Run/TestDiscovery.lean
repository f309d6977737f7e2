import Mathlib.Data.List.Destutter
import MutationTesting.Proofs.Class.Artifact
import MutationTesting.Proofs.Class.TestClass
import MutationTesting.Proofs.Coverage.Scan
import MutationTesting.Run.MutationRun
/-!
# Tests are found where they are declared

The search for tests goes through all artifacts below a directory, collects the tests of their
classes, sorts them and drops those that stand beside an equal one. The rule says of one class which
of its methods are tests; what the search adds is that no artifact is left out, that a test which is
declared twice is found once, and that nothing depends on the order in which the file system lists a
directory.

## Main definitions

* `TestUnit.Precedes` — the order of tests

## Main results

* `pairwise_eraseReps`, `sortTests_pairwise` — sorted without repetitions is strictly sorted
* `exists_readClasses_mem` — which classes are read
* `findTestUnits_eq_of_reorders` — directories in another order
* `tests_are_found_where_they_are_declared`
-/

namespace MutationTesting

open Std

/-! ### Sorted lists -/

section

variable {α : Type} [DecidableEq α] {a : α} {xs : List α}

theorem eraseReps_eq_destutter (xs : List α) : xs.eraseReps = xs.destutter (· ≠ ·) := by
  have hloop (a : α) (as kept : List α) : List.eraseRepsBy.loop (· == ·) a as kept =
      kept.reverse ++ as.destutter' (· ≠ ·) a := by
    induction as generalizing a kept with
    | nil => rw [List.eraseRepsBy.loop, List.reverse_cons, List.destutter'_nil]
    | cons b as ih =>
      rw [List.eraseRepsBy.loop]
      by_cases h : a = b
      · rw [beq_iff_eq.mpr h, List.destutter'_cons_neg _ (not_not.mpr h)]
        exact ih a kept
      · rw [beq_eq_false_iff_ne.mpr h, List.destutter'_cons_pos _ h]
        simp [ih]
  cases xs with
  | nil => rfl
  | cons a as => exact hloop a as []

theorem mem_destutter'_iff {b : α} : a ∈ xs.destutter' (· ≠ ·) b ↔ a ∈ b :: xs := by
  induction xs generalizing b with
  | nil => rw [List.destutter'_nil]
  | cons c xs ih =>
    by_cases h : b = c
    · rw [List.destutter'_cons_neg _ (not_not.mpr h), ih, h]
      simp
    · rw [List.destutter'_cons_pos _ h, List.mem_cons, ih, List.mem_cons (l := c :: xs)]

theorem mem_eraseReps_iff : a ∈ xs.eraseReps ↔ a ∈ xs := by
  rw [eraseReps_eq_destutter]
  cases xs with
  | nil => rfl
  | cons b xs => exact mem_destutter'_iff

/-- A sorted list without equal neighbours is strictly sorted. -/
theorem pairwise_eraseReps {cmp : α → α → Ordering} [TransCmp cmp] [LawfulEqCmp cmp]
    (h : xs.Pairwise fun a b => (cmp a b).isLE = true) :
    xs.eraseReps.Pairwise fun a b => cmp a b = .lt := by
  have hkept (a : α) (as : List α) (h : (a :: as).Pairwise fun a b => (cmp a b).isLE = true) :
      (as.destutter' (· ≠ ·) a).Pairwise fun a b => cmp a b = .lt := by
    induction as generalizing a with
    | nil => exact List.pairwise_singleton _ a
    | cons b as ih =>
      obtain ⟨ha, hrest⟩ := List.pairwise_cons.mp h
      by_cases hab : a = b
      · subst hab
        rw [List.destutter'_cons_neg _ (not_not.mpr rfl)]
        exact ih a hrest
      · have hlt := lt_of_isLE_of_ne (ha b List.mem_cons_self) hab
        rw [List.destutter'_cons_pos _ hab, List.pairwise_cons]
        refine ⟨fun c hc => ?_, ih b hrest⟩
        obtain rfl | hc := List.mem_cons.mp (mem_destutter'_iff.mp hc)
        · exact hlt
        · exact TransCmp.lt_of_lt_of_isLE hlt ((List.pairwise_cons.mp hrest).1 c hc)
  rw [eraseReps_eq_destutter]
  cases xs with
  | nil => exact .nil
  | cons a as => exact hkept a as h

end

/-! ### The order of tests -/

theorem Path.compareChars_eq_lt_iff {a b : List Char} : compareChars a b = .lt ↔ a < b := by
  induction a generalizing b with
  | nil => cases b <;> simp [compareChars]
  | cons c a ih =>
    cases b with
    | nil => simp [compareChars]
    | cons d b =>
      rw [compareChars, Ordering.then_eq_lt, Nat.compare_eq_lt, Nat.compare_eq_eq, ih,
        List.cons_lt_cons_iff, Char.toNat_inj]
      rfl

namespace TestUnit

/-- The first test comes before the second one: by its class, then by its name. -/
def Precedes (t u : TestUnit) : Prop :=
  t.className < u.className ∨ t.className = u.className ∧ t.method < u.method

/-- Class and method, one after the other. -/
def compare : TestUnit → TestUnit → Ordering :=
  compareLex (fun t u => Path.compareChars t.className.toList u.className.toList)
    fun t u => Path.compareChars t.method.toList u.method.toList

instance : TransCmp compare := by
  have := transCmp_comap Path.compareChars fun t : TestUnit => t.className.toList
  have := transCmp_comap Path.compareChars fun t : TestUnit => t.method.toList
  rw [compare]
  infer_instance

instance : LawfulEqCmp compare where
  eq_of_compare {t u} h := by
    obtain ⟨hclass, hmethod⟩ := compareLex_eq_eq.mp h
    cases t
    cases u
    exact congrArg₂ TestUnit.mk (String.toList_inj.mp (LawfulEqCmp.eq_of_compare hclass))
      (String.toList_inj.mp (LawfulEqCmp.eq_of_compare hmethod))

theorem compare_eq_lt_iff {t u : TestUnit} : compare t u = .lt ↔ t.Precedes u := by
  have hclass : Path.compareChars t.className.toList u.className.toList = .eq ↔
      t.className = u.className :=
    LawfulEqCmp.compare_eq_iff_eq.trans String.toList_inj
  rw [compare, compareLex, Ordering.then_eq_lt, Path.compareChars_eq_lt_iff,
    Path.compareChars_eq_lt_iff, hclass]
  rfl

end TestUnit

variable {t : TestUnit} {tests : List TestUnit}

theorem mem_sortTests_iff : t ∈ sortTests tests ↔ t ∈ tests :=
  mem_eraseReps_iff.trans List.mem_mergeSort

/-- **Sorted tests** are strictly sorted, so no test is there twice. -/
theorem sortTests_pairwise (tests : List TestUnit) :
    (sortTests tests).Pairwise TestUnit.Precedes :=
  (pairwise_eraseReps (@pairwise_mergeSort_isLE _ TestUnit.compare _ tests)).imp
    TestUnit.compare_eq_lt_iff.mp

/-! ### The classes below a directory -/

section

variable {m m' : Machine} {dir : Path} {n : Nat}

/-- All of a list is read if each of it is. -/
theorem exists_mapM_eq_ok {ε α β : Type} {f : α → Except ε β} {as : List α}
    (h : ∀ a ∈ as, ∃ b, f a = .ok b) :
    ∃ bs, as.mapM f = .ok bs ∧ ∀ b, b ∈ bs ↔ ∃ a ∈ as, f a = .ok b := by
  induction as with
  | nil => exact ⟨[], rfl, by simp⟩
  | cons a as ih =>
    obtain ⟨⟨b, hb⟩, hrest⟩ := List.forall_mem_cons.mp h
    obtain ⟨bs, hbs, hmem⟩ := ih hrest
    refine ⟨b :: bs, by rw [List.mapM_cons, hb, hbs]; rfl, fun b' => ?_⟩
    rw [List.mem_cons, hmem, List.exists_mem_cons_iff, hb, Except.ok.injEq, eq_comm]

/-- **The classes that are read** are those in the artifacts below the directory, if all of these
can be read. -/
theorem exists_readClasses_mem (htree : m.files.IsTree)
    (hdir : m.files.find .follow m.home dir = .ok n) (hn : m.files.isDirectory n = true)
    (hreadable : ∀ location, m.files.HoldsArtifact dir n location →
      ∃ c, readClass Machine.host m location = .ok c) :
    ∃ classes, readClasses Machine.host m dir = .ok classes ∧ ∀ location c,
      (location, c) ∈ classes ↔
        m.files.HoldsArtifact dir n location ∧ readClass Machine.host m location = .ok c := by
  obtain ⟨paths, hscan, hpaths, -⟩ := exists_scan htree hdir hn
  have hentry (path location : Path) (c : ClassFile) :
      (readClass Machine.host m path).map (path, ·) = .ok (location, c) ↔
        path = location ∧ readClass Machine.host m path = .ok c := by
    cases readClass Machine.host m path <;> simp [Except.map]
  have hall : ∀ path ∈ paths, ∃ entry,
      (readClass Machine.host m path).map (path, ·) = .ok entry := fun path hpath => by
    obtain ⟨c, hc⟩ := hreadable path ((hpaths path).mp hpath)
    exact ⟨(path, c), (hentry path path c).mpr ⟨rfl, hc⟩⟩
  obtain ⟨classes, hclasses, hmem⟩ := exists_mapM_eq_ok hall
  refine ⟨classes, by rw [readClasses, hscan]; exact hclasses, fun location c => ?_⟩
  rw [hmem, ← hpaths]
  constructor
  · rintro ⟨path, hpath, hread⟩
    obtain ⟨rfl, hc⟩ := (hentry path location c).mp hread
    exact ⟨hpath, hc⟩
  · rintro ⟨hpath, hc⟩
    exact ⟨location, hpath, (hentry location location c).mpr ⟨rfl, hc⟩⟩

theorem findTestUnits_eq_of_reorders (htree : m.files.IsTree) (hhome : m.home = m'.home)
    (h : m.files.Reorders m'.files) (prefixes : List String) :
    findTestUnits Machine.host m dir prefixes = findTestUnits Machine.host m' dir prefixes := by
  simp only [findTestUnits, readClasses, scanArtifacts_eq_of_reorders htree hhome h,
    readClass_eq_of_reorders htree hhome h]

/-- **Tests are found where they are declared.** Below a directory every artifact can be read, and
every method in it has a type. Then the search finds a list of tests in strict order, so each test
once, however many methods and artifacts declare it. A test is in the list iff some artifact below
the directory has a class of its name that is for the device, with a method of its name that is a
test. The names in the directories may stand in any order: the list is the same. -/
theorem tests_are_found_where_they_are_declared (htree : m.files.IsTree)
    (hdir : m.files.find .follow m.home dir = .ok n) (hn : m.files.isDirectory n = true)
    (hreadable : ∀ location, m.files.HoldsArtifact dir n location →
      ∃ c, readClass Machine.host m location = .ok c ∧
        ∀ method ∈ c.methods, (MethodType.ofDescriptor? method.descriptor).isSome)
    (prefixes : List String) :
    ∃ tests, findTestUnits Machine.host m dir prefixes = .ok tests ∧
      tests.Pairwise TestUnit.Precedes ∧
      (∀ t, t ∈ tests ↔ ∃ location c method, m.files.HoldsArtifact dir n location ∧
        readClass Machine.host m location = .ok c ∧ c.IsForDevice location prefixes ∧
        c.HasTest method ∧ t = ⟨c.dottedName, method.name⟩) ∧
      ∀ m' : Machine, m.home = m'.home → m.files.Reorders m'.files →
        findTestUnits Machine.host m' dir prefixes = .ok tests := by
  obtain ⟨classes, hread, hclasses⟩ := exists_readClasses_mem htree hdir hn fun location h =>
    (hreadable location h).imp fun _ => And.left
  have hfound : findTestUnits Machine.host m dir prefixes =
      .ok (sortTests (classes.flatMap fun entry => testUnitsOf entry.2 entry.1 prefixes)) := by
    rw [findTestUnits, hread]
    rfl
  have htests {location : Path} {c : ClassFile} (h : (location, c) ∈ classes) (t : TestUnit) :
      t ∈ testUnitsOf c location prefixes ↔ c.IsForDevice location prefixes ∧
        ∃ method, c.HasTest method ∧ t = ⟨c.dottedName, method.name⟩ := by
    obtain ⟨hlocation, hc⟩ := (hclasses location c).mp h
    obtain ⟨c', hc', htypes⟩ := hreadable location hlocation
    obtain rfl : c' = c := Except.ok.inj (hc'.symm.trans hc)
    exact mem_testUnitsOf_iff htypes
  refine ⟨_, hfound, sortTests_pairwise _, fun t => ?_, fun m' hhome h => ?_⟩
  · rw [mem_sortTests_iff, List.mem_flatMap]
    constructor
    · rintro ⟨⟨location, c⟩, hclass, ht⟩
      obtain ⟨hlocation, hc⟩ := (hclasses location c).mp hclass
      obtain ⟨hdevice, method, htest, rfl⟩ := (htests hclass t).mp ht
      exact ⟨location, c, method, hlocation, hc, hdevice, htest, rfl⟩
    · rintro ⟨location, c, method, hlocation, hc, hdevice, htest, rfl⟩
      have hclass := (hclasses location c).mpr ⟨hlocation, hc⟩
      exact ⟨(location, c), hclass, (htests hclass _).mpr ⟨hdevice, method, htest, rfl⟩⟩
  · rw [← findTestUnits_eq_of_reorders htree hhome h, hfound]

end

/-- A public method that is annotated as a test. -/
def annotatedTest (name descriptor : String) : Method :=
  { Method.plain name descriptor publicFlag [] with
    annotations := [{ descriptor := testAnnotation, value := none }] }

/-- A class with the runner on the device: the beginning of an object, a test with its overload,
and a method that nobody else can call. -/
def deviceTests : ClassFile := { ClassFile.empty "p/A" with
  annotations := [{
    descriptor := runWithAnnotation
    value := some "Landroidx/test/runner/AndroidJUnit4;" }]
  methods := [.plain "<init>" "()V" publicFlag [], .plain "checks" "()V" publicFlag [],
    annotatedTest "checks" "(I)V", .plain "hidden" "()V" 0 []] }

/-- A class of the same name that names no runner. -/
def plainTests : ClassFile := { ClassFile.empty "p/A" with
  methods := [.plain "testMore" "()V" 0 [], annotatedTest "checks" "()V"] }

/-- A class with another runner. -/
def otherTests : ClassFile := { ClassFile.empty "p/O" with
  annotations := [{ descriptor := runWithAnnotation, value := some "org.junit.runners.JUnit4" }]
  methods := [annotatedTest "runs" "()V"] }

/-- The three classes below a directory, and notes beside them. -/
def declaredTests : FileSystem where
  nodes := [
    (0, ⟨.directory 0 [("tests".toList, 1)], FileSystem.directoryMode, 0⟩),
    (1, ⟨.directory 0 [("A.class".toList, 2), ("copy".toList, 3), ("O.class".toList, 5),
      ("notes.txt".toList, 6)], FileSystem.directoryMode, 0⟩),
    (2, ⟨.file deviceTests.toBytes, Machine.fileMode, 0⟩),
    (3, ⟨.directory 1 [("A.class".toList, 4)], FileSystem.directoryMode, 0⟩),
    (4, ⟨.file plainTests.toBytes, Machine.fileMode, 0⟩),
    (5, ⟨.file otherTests.toBytes, Machine.fileMode, 0⟩),
    (6, ⟨.file [], Machine.fileMode, 0⟩)]
  issued := 7
  clock := 0

theorem declared_tests_are_found :
    ∃ tests, findTestUnits Machine.host (Machine.ofFiles declaredTests 0) "tests".toList
        ["tests/copy"] = .ok tests ∧
      tests.Pairwise TestUnit.Precedes ∧
      (∀ t, t ∈ tests ↔ ∃ location c method,
        declaredTests.HoldsArtifact "tests".toList 1 location ∧
        readClass Machine.host (Machine.ofFiles declaredTests 0) location = .ok c ∧
        c.IsForDevice location ["tests/copy"] ∧ c.HasTest method ∧
        t = ⟨c.dottedName, method.name⟩) ∧
      ∀ m' : Machine, 0 = m'.home → declaredTests.Reorders m'.files →
        findTestUnits Machine.host m' "tests".toList ["tests/copy"] = .ok tests := by
  have htree : declaredTests.IsTree := FileSystem.IsOrdered.isTree (by decide)
  have htests : declaredTests.find .follow 0 "tests".toList = .ok 1 :=
    FileSystem.find_of_below? (by decide) (by decide)
  have hread {path : Path} {c : ClassFile} {k : Nat} (hc : c.constants = [])
      (hpath : declaredTests.find .follow 0 path = .ok k)
      (hcontent : declaredTests.content k = .ok c.toBytes) :
      readClass Machine.host (Machine.ofFiles declaredTests 0) path = .ok c := by
    have hbytes : declaredTests.read 0 path = .ok c.toBytes := by
      rw [FileSystem.read, hpath]
      exact hcontent
    have hhost : Machine.host.read (Machine.ofFiles declaredTests 0) path = some c.toBytes :=
      congrArg Except.toOption hbytes
    have hfree : c.IsFloatFree := by
      rw [ClassFile.IsFloatFree, hc]
      exact List.forall_mem_nil _
    simp only [readClass, hhost, ClassFile.ofBytes?_toBytes hfree]
  have hways : ∀ way ∈ declaredTests.regularBelow 1, way.getLast?.any isArtifactName = true →
      way = ["A.class".toList] ∨ way = ["copy".toList, "A.class".toList] ∨
        way = ["O.class".toList] := by
    decide
  refine tests_are_found_where_they_are_declared (m := Machine.ofFiles declaredTests 0) htree
    htests rfl ?_ ["tests/copy"]
  rintro location ⟨way, file, hfile, hartifact, rfl⟩
  have hlisted := (FileSystem.mem_regularBelow_iff htree rfl).mpr hfile
  obtain hway | hway | hway := hways (way ++ [file]) hlisted (by
    rw [List.getLast?_concat, Option.any_some, hartifact])
  · rw [hway]
    refine ⟨deviceTests, hread (k := 2) rfl (FileSystem.find_of_below? ?_ ?_) rfl, ?_⟩
    all_goals decide
  · rw [hway]
    refine ⟨plainTests, hread (k := 4) rfl (FileSystem.find_of_below? ?_ ?_) rfl, ?_⟩
    all_goals decide
  · rw [hway]
    refine ⟨otherTests, hread (k := 5) rfl (FileSystem.find_of_below? ?_ ?_) rfl, ?_⟩
    all_goals decide

end MutationTesting
