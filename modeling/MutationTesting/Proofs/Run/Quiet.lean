import MutationTesting.Run.Baseline
import MutationTesting.Run.MutationRun
/-!
# Quiet steps

To run tests and to deploy an application, no file is touched: processes are started, it is asked
whether to stop, and the machine is looked at. What holds of such steps and goes over from steps to
what is made of them therefore holds of a deployment, of the judgement of a mutant and of a
baseline.

## Main definitions

* `Quiet` — a property of quiet steps

## Main results

* `Quiet.deploy`, `Quiet.judge`, `Quiet.runBaseline`
-/

namespace MutationTesting

/-- A property that quiet steps of a host have, alone and one after the other. -/
structure Quiet {σ : Type} (host : Host σ) (Φ : (α : Type) → StateM σ α → Prop) : Prop where
  pure : ∀ {α : Type} (a : α), Φ α (pure a)
  bind : ∀ {α β : Type} {x : StateM σ α} {f : α → StateM σ β},
    Φ α x → (∀ a, Φ β (f a)) → Φ β (x >>= f)
  get : Φ σ get
  cancelled : Φ Bool host.cancelled
  run : ∀ (command : Command) (timeoutMs : Nat) (heed : Bool),
    Φ (Option ProcessOutput) (host.run command timeoutMs heed)

namespace Quiet

variable {σ : Type} {host : Host σ} {Φ : (α : Type) → StateM σ α → Prop} (h : Quiet host Φ)
  (config : DeviceConfig) (options : RunOptions)

include h

theorem deploy (heed : Bool) : Φ _ (MutationTesting.deploy host options heed) := by
  rw [MutationTesting.deploy]
  split
  · exact h.pure _
  · refine h.bind (h.run _ _ _) fun output => ?_
    cases output <;> exact h.pure _

theorem fetchCoverage (path : String) (timeoutMs : Nat) :
    Φ _ (MutationTesting.fetchCoverage host config path timeoutMs) := by
  rw [MutationTesting.fetchCoverage]
  refine h.bind (h.run _ _ _) fun output => ?_
  cases output with
  | none => exact h.pure _
  | some output =>
    dsimp only
    split
    · exact h.pure _
    · split <;> exact h.pure _

theorem retrieveCoverage (r : TestReport) (timeoutMs : Nat) :
    Φ _ (MutationTesting.retrieveCoverage host config r timeoutMs) := by
  rw [MutationTesting.retrieveCoverage]
  split
  · split
    · exact h.pure _
    · refine h.bind (h.fetchCoverage config _ timeoutMs) fun fetched => ?_
      cases fetched <;> exact h.pure _
  · exact h.pure _

theorem runInstrumented (test : TestUnit) (timeoutMs : Nat) :
    Φ _ (MutationTesting.runInstrumented host config test timeoutMs) := by
  rw [MutationTesting.runInstrumented]
  refine h.bind (h.run _ _ _) fun output => ?_
  cases output with
  | none => exact h.pure _
  | some output =>
    dsimp only
    split
    · exact h.pure _
    · split
      · exact h.pure _
      · exact h.bind (h.retrieveCoverage config _ timeoutMs) fun _ => h.pure _

theorem runCoveringTests (tests : List TestUnit) :
    Φ _ (MutationTesting.runCoveringTests host config options tests) := by
  induction tests with
  | nil =>
    rw [MutationTesting.runCoveringTests]
    refine h.bind h.cancelled fun cancelled => ?_
    split <;> exact h.pure _
  | cons test tests ih =>
    rw [MutationTesting.runCoveringTests]
    refine h.bind h.cancelled fun cancelled => ?_
    split
    · exact h.pure _
    · refine h.bind (h.runInstrumented config test _) fun run => ?_
      split
      · exact h.pure _
      · exact ih

/-- A mutant that is in place is judged without touching a file. -/
theorem judge (tests : List TestUnit) : Φ _ (MutationTesting.judge host config options tests) := by
  rw [MutationTesting.judge]
  refine h.bind (h.deploy options true) fun deployed => ?_
  split
  · exact h.runCoveringTests config options tests
  · exact h.pure _
  · exact h.pure _

theorem runBaseline (index : LocationIndex) (tests : List TestUnit) (store : CoverageStore) :
    Φ _ (MutationTesting.runBaseline host config index options tests store) := by
  induction tests generalizing store with
  | nil => exact h.pure _
  | cons test tests ih =>
    rw [MutationTesting.runBaseline]
    refine h.bind h.cancelled fun cancelled => ?_
    split
    · exact h.pure _
    · refine h.bind (h.runInstrumented config test _) fun run => ?_
      split
      · exact h.pure _
      · refine h.bind h.cancelled fun cancelled => ?_
        split
        · exact h.pure _
        · refine h.bind h.get fun s => ?_
          refine h.bind (ih _) fun result => ?_
          split <;> exact h.pure _

end Quiet

end MutationTesting
