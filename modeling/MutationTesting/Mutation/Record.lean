import MutationTesting.Mutation.Pass
import MutationTesting.Json.Members
/-!
# Sites as JSON

Identifiers and sites as lists of them are printed, and identifiers as they are asked for.
-/

namespace MutationTesting

open Json

/-- An identifier. -/
def MutationId.toJson (id : MutationId) : Json String :=
  .object [("policy", .string id.policy), ("class_name", .string id.className),
    ("method", .string id.method), ("index", .ofNat id.index),
    ("description", .string id.description)]

/-- An identifier. -/
def MutationId.ofJson? (j : Raw) : Option MutationId := do
  let m ← j.members? ["policy", "class_name", "method", "index", "description"]
  some {
    policy := ← m.required "policy" text?
    className := ← m.required "class_name" text?
    method := ← m.required "method" text?
    index := ← m.required "index" (uint? (Nat.pow 2 64))
    description := ← m.required "description" text? }

/-- A site with its identifier. -/
def Mutation.toJson (m : Mutation) : Json String :=
  .object [("id", m.id.toJson), ("line", .ofNat m.line.toNat),
    ("source_file", .ofOption m.sourceFile)]

end MutationTesting
