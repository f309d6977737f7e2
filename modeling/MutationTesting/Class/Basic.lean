import MutationTesting.Class.Instruction
/-!
# Classes

A compiled class as mutation sees it: names, annotations and methods with their code.

## Main definitions

* `Method`, `ClassFile`
* `Method.pruneDangling` — forgets ranges and line markers whose labels are gone
* `ClassFile.lines`, `ClassFile.probeCount` — what coverage counts
-/

namespace MutationTesting

/-- An annotation; only a class-valued element `value` is kept. -/
structure Annotation where
  descriptor : String
  value : Option String
  deriving DecidableEq

/-- A range of code with a handler for what is thrown in it. -/
structure Handler where
  start : Label
  stop : Label
  handler : Label
  /-- The type that is caught; none catches everything. -/
  catchType : Option String
  deriving DecidableEq

/-- The range of code in which a slot holds a named variable. -/
structure LocalVariable where
  name : String
  descriptor : String
  slot : UInt16
  start : Label
  stop : Label
  deriving DecidableEq

/-- A method with its code. -/
structure Method where
  name : String
  descriptor : String
  access : UInt16
  annotations : List Annotation
  instructions : List Instruction
  handlers : List Handler
  locals : List LocalVariable
  maxStack : UInt16
  maxLocals : UInt16
  deriving DecidableEq

/-- A class. -/
structure ClassFile where
  /-- The name with slashes between its parts. -/
  name : String
  superName : Option String
  interfaces : List String
  access : UInt16
  sourceFile : Option String
  annotations : List Annotation
  methods : List Method
  deriving DecidableEq

/-- Access flag of public classes and members. -/
def publicFlag : UInt16 := 0x0001

/-- Access flag of static members. -/
def staticFlag : UInt16 := 0x0008

namespace Method

/-- A method with plain attributes and the given code. -/
def plain (name descriptor : String) (access : UInt16) (instructions : List Instruction) :
    Method :=
  ⟨name, descriptor, access, [], instructions, [], [], 4, 4⟩

/-- Name and descriptor, which tell the methods of a class apart. -/
def signature (m : Method) : String := m.name ++ m.descriptor

/-- The method needs no receiver. -/
def isStatic (m : Method) : Bool := m.access &&& staticFlag != 0

/-- The source lines that the line markers name, in order of the code. -/
def lines (m : Method) : List UInt32 := m.instructions.filterMap (·.sourceLine?)

/-- The labels that the code defines. -/
def labels (m : Method) : List Label := m.instructions.filterMap (·.definedLabel?)

/-- The method without the handlers, local variables and line markers that refer to a label which
its code does not define. -/
def pruneDangling (m : Method) : Method :=
  let present := m.labels
  { m with
    handlers := m.handlers.filter fun h =>
      present.contains h.start && present.contains h.stop && present.contains h.handler
    locals := m.locals.filter fun v => present.contains v.start && present.contains v.stop
    instructions := m.instructions.filter fun
      | .line _ start => present.contains start
      | _ => true }

end Method

/-- Inserts a number into an increasing list unless it is there. -/
def insertLine (n : UInt32) : List UInt32 → List UInt32
  | [] => [n]
  | m :: rest => if n < m then n :: m :: rest else if n = m then m :: rest
      else m :: insertLine n rest

/-- The distinct numbers of a list in increasing order. -/
def sortLines (ns : List UInt32) : List UInt32 := ns.foldr insertLine []

namespace ClassFile

/-- A public class with nothing in it. -/
def empty (name : String) : ClassFile :=
  ⟨name, some "java/lang/Object", [], publicFlag, none, [], []⟩

/-- The first method with the given signature. -/
def method? (c : ClassFile) (signature : String) : Option Method :=
  c.methods.find? (·.signature == signature)

/-- The distinct source lines of the class in increasing order. -/
def lines (c : ClassFile) : List UInt32 := sortLines (c.methods.flatMap (·.lines))

/-- The number of coverage probes: one for the class and one for each line. -/
def probeCount (c : ClassFile) : Nat := 1 + c.lines.length

/-- A class name with dots in place of slashes. -/
def dotted (name : String) : String :=
  String.ofList (name.toList.map fun c => if c = '/' then '.' else c)

/-- The name with dots between its parts. -/
def dottedName (c : ClassFile) : String := dotted c.name

end ClassFile

end MutationTesting
