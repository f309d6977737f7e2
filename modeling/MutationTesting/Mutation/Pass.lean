import MutationTesting.Class.Basic
/-!
# Mutation passes

A pass goes over a class and issues an identifier for every site at which a policy could change
the code. Identifiers are numbered in the order in which they are issued, so the same class always
has the same numbering. At most one of them is the target of the pass; the site that holds it is
live and is changed.

A policy learns whether its site is live only by `Pass.ask`, with the identifier that
`Pass.register` issued to it.

## Main definitions

* `MutationId`, `Mutation`
* `Pass`, `Pass.register`, `Pass.ask`
-/

namespace MutationTesting

/-- The handle of a site. -/
structure MutationId where
  policy : String
  className : String
  /-- The signature of the method. -/
  method : String
  /-- The number of identifiers that were issued before. -/
  index : Nat
  description : String
  deriving DecidableEq

/-- A site with what is known about its place. -/
structure Mutation where
  id : MutationId
  /-- The source line, zero before the first line marker of a method. -/
  line : UInt32
  sourceFile : Option String
  deriving DecidableEq

/-- The identifier as messages name it. -/
def MutationId.text (id : MutationId) : String :=
  id.className ++ "." ++ id.method ++ " #" ++ toString id.index ++ " [" ++ id.policy ++ "]"

/-- What a policy may know about the class. -/
structure ClassInfo where
  name : String
  interfaces : List String
  sourceFile : Option String
  deriving DecidableEq

namespace ClassInfo

/-- What a policy may know about a class. -/
def ofClass (c : ClassFile) : ClassInfo := ⟨c.name, c.interfaces, c.sourceFile⟩

/-- The class names the interface among those it implements itself. -/
def implements (c : ClassInfo) (interface : String) : Bool := c.interfaces.contains interface

/-- The name of the class begins with the given text. -/
def isWithin (c : ClassInfo) (start : String) : Bool := start.toList.isPrefixOf c.name.toList

end ClassInfo

/-- The state of a pass. -/
structure Pass where
  classInfo : ClassInfo
  target : Option MutationId
  /-- The signature of the method at hand. -/
  method : String
  /-- The source line at hand. -/
  line : UInt32
  /-- The sites so far, the latest first. -/
  latest : List Mutation
  /-- How often `ask` has answered yes. -/
  liveAnswers : Nat

namespace Pass

/-- The beginning of a pass. -/
def start (classInfo : ClassInfo) (target : Option MutationId) : Pass :=
  ⟨classInfo, target, "", 0, [], 0⟩

/-- How many identifiers were issued. -/
def issued (p : Pass) : Nat := p.latest.length

/-- The sites in the order in which they were registered. -/
def sites (p : Pass) : List Mutation := p.latest.reverse

/-- A method begins; no line is known yet. -/
def enterMethod (p : Pass) (signature : String) : Pass := { p with method := signature, line := 0 }

/-- A line begins. -/
def enterLine (p : Pass) (line : UInt32) : Pass := { p with line }

/-- Issues an identifier for a site at the current line. -/
def register (p : Pass) (policy description : String) : MutationId × Pass :=
  let id := ⟨policy, p.classInfo.name, p.method, p.issued, description⟩
  (id, { p with latest := ⟨id, p.line, p.classInfo.sourceFile⟩ :: p.latest })

/-- Whether the site with the identifier is live. -/
def ask (p : Pass) (id : MutationId) : Bool × Pass :=
  if p.target = some id then (true, { p with liveAnswers := p.liveAnswers + 1 }) else (false, p)

@[simp] theorem issued_register (p : Pass) (policy description : String) :
    (p.register policy description).2.issued = p.issued + 1 := rfl

@[simp] theorem sites_register (p : Pass) (policy description : String) :
    (p.register policy description).2.sites =
      p.sites ++ [⟨(p.register policy description).1, p.line, p.classInfo.sourceFile⟩] := by
  simp [sites, register]

end Pass

end MutationTesting
