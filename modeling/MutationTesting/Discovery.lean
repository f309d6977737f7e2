import MutationTesting.Class.Location
import MutationTesting.Text.Blank
/-!
# Finding tests

Which methods of a compiled test class are tests that run on a device. A class says so by naming
the runner in an annotation, or by lying in a directory for such tests when it names no runner at
all; a class with another runner is never one.

## Main definitions

* `TestUnit`
* `testUnitsOf` — the tests of a class
-/

namespace MutationTesting

/-- A test method, which is run by itself. -/
structure TestUnit where
  /-- The name of the class with dots. -/
  className : String
  method : String
  deriving DecidableEq

/-- Class and method as the runner selects them. -/
def TestUnit.selector (t : TestUnit) : String := t.className ++ "#" ++ t.method

/-- The order of tests: by class, then by method. -/
def TestUnit.le (a b : TestUnit) : Bool :=
  ((Path.compareChars a.className.toList b.className.toList).then
    (Path.compareChars a.method.toList b.method.toList)).isLE

/-- The annotation that names the runner of a class. -/
def runWithAnnotation : String := "Lorg/junit/runner/RunWith;"

/-- The annotation of test methods. -/
def testAnnotation : String := "Lorg/junit/Test;"

/-- The simple name of the runner on a device. -/
def deviceRunner : String := "AndroidJUnit4"

/-- The last part of a class name in any of its forms. -/
def simpleName (name : String) : String :=
  let name := name.toList.reverse.dropWhile (· == ';')
  String.ofList (name.takeWhile fun c => c != '/' && c != '.' && c != '$').reverse

/-- The simple name of the runner that a class names, empty if the annotation has no value. -/
def declaredRunner? (c : ClassFile) : Option String :=
  (c.annotations.find? (·.descriptor == runWithAnnotation)).map fun a =>
    (a.value.map simpleName).getD ""

/-- A method is a test: it is annotated as one, or it has no annotation, takes nothing, returns
nothing, and is named like a test or public in a class with the device runner. -/
def isTestMethod (hasRunner : Bool) (m : Method) : Bool :=
  if m.name.toList.head? = some '<' then false
  else if m.annotations.any (·.descriptor == testAnnotation) then true
  else if m.annotations.isEmpty && ['(', ')'].isPrefixOf m.descriptor.toList
      && [')', 'V'].isSuffixOf m.descriptor.toList then
    ['t', 'e', 's', 't'].isPrefixOf m.name.toList || (m.access &&& publicFlag != 0 && hasRunner)
  else false

/-- The tests among the methods of a class, in their order. -/
def testMethodsOf (hasRunner : Bool) (c : ClassFile) : List TestUnit :=
  (c.methods.filter (isTestMethod hasRunner)).map fun m => ⟨c.dottedName, m.name⟩

/-- The tests of a class that lies at the given path. -/
def testUnitsOf (c : ClassFile) (location : Path) (prefixes : List String) : List TestUnit :=
  match declaredRunner? c with
  | some runner => if runner == deviceRunner then testMethodsOf true c else []
  | none =>
    if prefixes.any fun p => p.toList.isPrefixOf location.text.toList then testMethodsOf false c
    else []

/-- Tests in their order, each once. -/
def sortTests (tests : List TestUnit) : List TestUnit := (tests.mergeSort TestUnit.le).eraseReps

end MutationTesting
