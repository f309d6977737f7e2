import MutationTesting.Mutation.Policy
import MutationTesting.Mutation.LineDiff
import MutationTesting.Class.Listing
import MutationTesting.Class.Artifact
import MutationTesting.Failure
/-!
# Mutants

A pass over a class with a chain of policies, and the class that results when one site is live.

## Main definitions

* `mutateClass` — a pass; without a target it changes nothing and only finds sites
* `findMutations` — the sites of a class
* `materialize` — the mutant of a site
-/

namespace MutationTesting

/-- The chain of stages for a method: the line of the pass is kept up to date before any policy
sees an item. -/
def methodChain (policies : List Policy) (classInfo : ClassInfo) (m : Method) : Transducer :=
  .chain (.trackLines ::
    (policies.filter fun p => !p.excludes classInfo).map (Policy.stage ⟨classInfo, m.name⟩))

/-- The code of a method after it went through the policies. -/
def transformMethod (policies : List Policy) (m : Method) (p : Pass) : List Instruction × Pass :=
  let chain := methodChain policies p.classInfo m
  let (_, code, p) := chain.run chain.start m.instructions (p.enterMethod m.signature)
  (code, p)

/-- The method after it went through the policies. What refers to labels that are gone goes too. -/
def mutateMethod (policies : List Policy) (m : Method) (p : Pass) : Method × Pass :=
  let (code, p) := transformMethod policies m p
  (if code = m.instructions then m else { m with instructions := code }.pruneDangling, p)

/-- The methods after they went through the policies, one after the other. -/
def mutateMethods (policies : List Policy) : List Method → Pass → List Method × Pass
  | [], p => ([], p)
  | m :: rest, p =>
    let (m, p) := mutateMethod policies m p
    let (rest, p) := mutateMethods policies rest p
    (m :: rest, p)

/-- A pass over a class. -/
def mutateClass (c : ClassFile) (policies : List Policy) (target : Option MutationId) :
    ClassFile × Pass :=
  let (methods, p) := mutateMethods policies c.methods (.start (.ofClass c) target)
  ({ c with methods }, p)

/-- The sites of a class in the order in which they are issued. -/
def findMutations (c : ClassFile) (policies : List Policy) : List Mutation :=
  (mutateClass c policies none).2.sites

/-- A class with one live site. -/
structure Mutant where
  mutation : Mutation
  /-- The artifact of the changed class. -/
  artifact : Bytes
  /-- The lines in which the listing of the method changed. -/
  diff : String

/-- The difference between the listings of a method in two classes. -/
def methodDiff (signature : String) (before after : ClassFile)
    (differ : Differ (List Char) := .snakes) : String :=
  match before.method? signature, after.method? signature with
  | some before, some after => lineDiff before.listing after.listing differ
  | _, _ => ""

/-- The mutant of a site. -/
def materialize (c : ClassFile) (policies : List Policy) (target : MutationId)
    (differ : Differ (List Char) := .snakes) : Except Failure Mutant :=
  let (mutated, p) := mutateClass c policies (some target)
  match p.sites.filter (·.id = target) with
  | [] => .error (.mutationNotFound target)
  | [mutation] =>
    if 1 < p.liveAnswers then
      .error (.invariantViolated (toString p.liveAnswers ++ " live mutations in one mutant"))
    else .ok ⟨mutation, mutated.toBytes, methodDiff target.method c mutated differ⟩
  | several =>
    .error (.invariantViolated
      ("identifier " ++ target.text ++ " issued " ++ toString several.length ++ " times"))

end MutationTesting
