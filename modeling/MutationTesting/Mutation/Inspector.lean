import MutationTesting.Mutation.Pass
/-!
# Transducers and inspectors

A transducer reads a stream item by item, keeps a state, takes part in the pass, and emits any
number of items for each one read. In a chain, whatever a stage emits goes to the next stage at
once, before the stage reads on; so sites of different stages are registered in the order of the
stream.

An inspector is what is particular to a policy: which items of a stream are sites, and what each
becomes when it is live. It sees one item after the other and remembers what it needs; it never
learns whether a site is live, so its findings do not depend on the target. `Inspector.transducer`
adds what all policies have in common: each finding is registered, and a live one is written in
place of its item.

## Main definitions

* `Transducer`, `Transducer.run`
* `Transducer.andThen`, `Transducer.chain`
* `Finding`, `Inspector`
* `Inspector.transducer`
-/

namespace MutationTesting

/-! ### Transducers -/

/-- A transformer of instruction streams. -/
structure Transducer where
  State : Type
  start : State
  /-- One item: the new state, the items emitted, and the pass. -/
  step : State → Instruction → Pass → State × List Instruction × Pass

namespace Transducer

/-- Reads a whole stream from a state. -/
def run (t : Transducer) (s : t.State) : List Instruction → Pass →
    t.State × List Instruction × Pass
  | [], p => (s, [], p)
  | i :: rest, p =>
    let (s, emitted, p) := t.step s i p
    let (s, later, p) := t.run s rest p
    (s, emitted ++ later, p)

/-- Emits what it reads. -/
def skip : Transducer := ⟨Unit, (), fun s i p => (s, [i], p)⟩

/-- Two stages, the second reading what the first emits. -/
def andThen (a b : Transducer) : Transducer where
  State := a.State × b.State
  start := (a.start, b.start)
  step := fun (s, t) i p =>
    let (s, emitted, p) := a.step s i p
    let (t, emitted, p) := b.run t emitted p
    ((s, t), emitted, p)

/-- Several stages in order. -/
def chain : List Transducer → Transducer
  | [] => skip
  | t :: rest => t.andThen (chain rest)

/-- Keeps the line of the pass in step with the line markers of the stream. -/
def trackLines : Transducer where
  State := Unit
  start := ()
  step := fun s i p =>
    match i with
    | .line n _ => (s, [i], p.enterLine n)
    | _ => (s, [i], p)

end Transducer

/-! ### Inspectors -/

/-- A site that an inspector found in an item. -/
structure Finding where
  description : String
  /-- What a live site becomes; none for a site that is never changed. -/
  replacement : Option (List Instruction)
  /-- A live site ends the method: all that follows is dropped. -/
  endsBody : Bool := false

/-- Finds sites in a stream. -/
structure Inspector where
  Memory : Type
  start : Memory
  inspect : Memory → Instruction → Memory × Option Finding

namespace Inspector

/-- An inspector that looks at each item by itself. -/
def ofItem (find : Instruction → Option Finding) : Inspector :=
  ⟨Unit, (), fun m i => (m, find i)⟩

/-- Registers every finding of an inspector in the name of a policy and carries out the live one.
The state tells whether the body has ended. -/
def transducer (policy : String) (inspector : Inspector) : Transducer where
  State := Bool × inspector.Memory
  start := (false, inspector.start)
  step := fun (ended, memory) i p =>
    if ended then ((ended, memory), [], p)
    else
      let (memory, finding) := inspector.inspect memory i
      match finding with
      | none => ((false, memory), [i], p)
      | some finding =>
        let (id, p) := p.register policy finding.description
        match finding.replacement with
        | none => ((false, memory), [i], p)
        | some replacement =>
          let (live, p) := p.ask id
          if live then ((finding.endsBody, memory), replacement, p) else ((false, memory), [i], p)

end Inspector

end MutationTesting
