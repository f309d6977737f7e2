import MutationTesting.Proofs.Run.Accounting
import MutationTesting.Proofs.Run.Quiet
/-!
# The selection of tests

A mutant is tried only with the tests that reach its place. A test that does not reach it cannot
notice the mutant, so trying the mutant with all tests comes to the same, but that it survives all
of them if none was selected.

What is needed for that is said of the machine on which the run takes place: a mutant can be set up
and taken away again, nobody asks the run to stop, and a test ends with a mutant in place as the
assignment of outcomes says, whatever was run before. Of a test that is listed more than once the
first place counts: there it is tried first by a run with all tests.

## Main definitions

* `runThoroughly` — a run with all tests
* `Bench` — a machine on which tests end as an assignment of outcomes says
* `verdictOf` — the verdict of tests with known outcomes

## Main results

* `runThoroughly_eq` — a run with all tests is one over a map that knows nothing
* `verdictOf_coveringTests`
* `selection_agrees_with_all_tests`
-/

namespace MutationTesting

variable {σ : Type} (host : Host σ) (config : DeviceConfig) (policies : List Policy)
  (options : RunOptions)

/-! ### Runs with given tests -/

/-- Evaluates mutations one after the other in the given way. -/
def evaluateEach (evaluate : MutationTarget → Mutation → StateM σ Evaluation) :
    List (MutationTarget × Mutation) → StateM σ (Except Failure (List MutantResult) × Bool)
  | [] => pure (.ok [], false)
  | (target, mutation) :: rest => do
    let e ← evaluate target mutation
    match e.result with
    | .error failure => return (.error failure, e.installed)
    | .ok result =>
      let (results, installed) ← evaluateEach evaluate rest
      return (results.map (result :: ·), e.installed || installed)

/-- Evaluates every mutation in the given way and deploys the unchanged application again. -/
def runEach (evaluate : MutationTarget → Mutation → StateM σ Evaluation)
    (targets : List MutationTarget) : StateM σ (Except Failure (List MutantResult)) := do
  let (results, installed) ← evaluateEach evaluate (MutationTarget.allMutations targets)
  if installed then
    let _ ← deploy host options false
  return results

/-- Evaluates a mutation with the given tests, also if there are none. -/
def evaluateWith (tests : List TestUnit) (target : MutationTarget) (mutation : Mutation) :
    StateM σ Evaluation := do
  if ← host.cancelled then return ⟨.error .cancelled, false⟩
  let start := host.now (← get)
  match materialize target.classFile policies mutation.id with
  | .error (.invariantViolated what) => return ⟨.error (.invariantViolated what), false⟩
  | .error e =>
    return ⟨.ok ⟨mutation, .unviable, host.now (← get) - start, "", some e.message⟩, false⟩
  | .ok mutant =>
    evaluateMutant host config options tests target.artifact mutation mutant start

/-- Evaluates every mutation of every target with all tests of a map, in the order of the map. -/
def runThoroughly (targets : List MutationTarget) (coverage : CoverageMap) :
    StateM σ (Except Failure (List MutantResult)) :=
  runEach host options (evaluateWith host config policies options (coverage.map (·.1))) targets

theorem evaluateAll_eq (coverage : CoverageMap) (pairs : List (MutationTarget × Mutation)) :
    evaluateAll host config policies coverage options pairs =
      evaluateEach (evaluate host config policies coverage options) pairs := by
  induction pairs with
  | nil => rfl
  | cons pair rest ih =>
    rw [evaluateAll, ih]
    rfl

theorem runMutations_eq (targets : List MutationTarget) (coverage : CoverageMap) :
    runMutations host config policies targets coverage options =
      runEach host options (evaluate host config policies coverage options) targets := by
  rw [runMutations, runEach, evaluateAll_eq]

/-- A mutation that tests reach is evaluated with them. -/
theorem evaluate_of_ne_nil {coverage : CoverageMap} {target : MutationTarget}
    {mutation : Mutation}
    (h : coverage.coveringTests target.classFile.name mutation.line ≠ []) :
    evaluate host config policies coverage options target mutation =
      evaluateWith host config policies options
        (coverage.coveringTests target.classFile.name mutation.line) target mutation := by
  obtain ⟨test, tests, htests⟩ := List.exists_cons_of_ne_nil h
  rw [evaluate, htests]
  rfl

theorem coveringTests_unknown (tests : List TestUnit) (className : String) (line : UInt32) :
    CoverageMap.coveringTests (tests.map (·, none)) className line = tests := by
  have hreaches : ∀ entry ∈ tests.map fun test => ((test, none) : TestCoverage),
      TestCoverage.reaches className line entry = true := by
    intro entry hentry
    obtain ⟨test, -, rfl⟩ := List.mem_map.mp hentry
    rfl
  rw [CoverageMap.coveringTests, List.filter_eq_self.mpr hreaches, List.map_map]
  exact List.map_id _

/-- **A run with all tests** is one over a map that knows nothing of what they reach. -/
theorem runThoroughly_eq (targets : List MutationTarget) {coverage : CoverageMap}
    (h : coverage ≠ []) :
    runThoroughly host config policies options targets coverage =
      runMutations host config policies targets ((coverage.map (·.1)).map (·, none)) options := by
  rw [runMutations_eq, runThoroughly]
  congr 1
  funext target mutation
  have hne : CoverageMap.coveringTests ((coverage.map (·.1)).map (·, none))
      target.classFile.name mutation.line ≠ [] := by
    rw [coveringTests_unknown]
    simpa using h
  rw [evaluate_of_ne_nil host config policies options hne, coveringTests_unknown]

/-! ### Known outcomes -/

/-- The verdict of tests with known outcomes. -/
def verdictOf (outcome : TestUnit → TestOutcome) : List TestUnit → Verdict
  | [] => (.survived, none)
  | test :: tests =>
    match (outcome test).verdict? test with
    | some (.ok verdict) => verdict
    | _ => verdictOf outcome tests

theorem verdictOf_cons_of_passed {outcome : TestUnit → TestOutcome} {test : TestUnit}
    (h : outcome test = .passed) (tests : List TestUnit) :
    verdictOf outcome (test :: tests) = verdictOf outcome tests := by
  rw [verdictOf, h]
  rfl

/-- A test that does not pass decides, whatever would be run behind it. -/
theorem verdictOf_cons_of_ne_passed {outcome : TestUnit → TestOutcome} {test : TestUnit}
    (h : outcome test ≠ .passed) (hcancelled : outcome test ≠ .cancelled)
    (tests tests' : List TestUnit) :
    verdictOf outcome (test :: tests) = verdictOf outcome (test :: tests') := by
  rw [verdictOf, verdictOf]
  cases houtcome : outcome test with
  | passed => exact absurd houtcome h
  | cancelled => exact absurd houtcome hcancelled
  | _ => rfl

theorem verdictOf_ne_noCoverage (outcome : TestUnit → TestOutcome) (tests : List TestUnit) :
    (verdictOf outcome tests).1 ≠ .noCoverage := by
  induction tests with
  | nil => exact nofun
  | cons test tests ih =>
    rw [verdictOf]
    cases outcome test with
    | passed => exact ih
    | cancelled => exact ih
    | _ => exact nofun

/-- The tests that do not reach a line pass. Of a test that is listed more than once the first place
counts. -/
def CoverageMap.UnreachedPass (coverage : CoverageMap) (className : String) (line : UInt32)
    (outcome : TestUnit → TestOutcome) : Prop :=
  ∀ before entry after, coverage = before ++ entry :: after → entry.1 ∉ before.map (·.1) →
    TestCoverage.reaches className line entry = false → outcome entry.1 = .passed

theorem CoverageMap.unreachedPass_of_forall {coverage : CoverageMap} {className : String}
    {line : UInt32} {outcome : TestUnit → TestOutcome}
    (h : ∀ entry ∈ coverage, TestCoverage.reaches className line entry = false →
      outcome entry.1 = .passed) : coverage.UnreachedPass className line outcome := by
  rintro before entry after rfl - hreaches
  exact h entry (by simp) hreaches

/-- What is left of a map behind a test that passes. -/
theorem CoverageMap.UnreachedPass.tail {entry : TestCoverage} {coverage : CoverageMap}
    {className : String} {line : UInt32} {outcome : TestUnit → TestOutcome}
    (h : UnreachedPass (entry :: coverage) className line outcome)
    (hpassed : outcome entry.1 = .passed) : coverage.UnreachedPass className line outcome := by
  intro before later after hsplit hfirst hreaches
  by_cases hsame : later.1 = entry.1
  · rw [hsame, hpassed]
  · refine h (entry :: before) later after (congrArg (entry :: ·) hsplit) ?_ hreaches
    simpa [hsame] using hfirst

/-- **The tests that reach a line** have the verdict of all tests. -/
theorem verdictOf_coveringTests {coverage : CoverageMap} {className : String} {line : UInt32}
    {outcome : TestUnit → TestOutcome} (hcancelled : ∀ test, outcome test ≠ .cancelled)
    (h : coverage.UnreachedPass className line outcome) :
    verdictOf outcome (coverage.coveringTests className line) =
      verdictOf outcome (coverage.map (·.1)) := by
  induction coverage with
  | nil => rfl
  | cons entry coverage ih =>
    have hsplit : ∀ hpassed : outcome entry.1 = .passed,
        verdictOf outcome (CoverageMap.coveringTests coverage className line) =
          verdictOf outcome (coverage.map (·.1)) := fun hpassed => ih (h.tail hpassed)
    rw [CoverageMap.coveringTests, List.map_cons]
    cases hreaches : TestCoverage.reaches className line entry with
    | true =>
      rw [List.filter_cons_of_pos hreaches, List.map_cons]
      by_cases hpassed : outcome entry.1 = .passed
      · rw [verdictOf_cons_of_passed hpassed, verdictOf_cons_of_passed hpassed]
        exact hsplit hpassed
      · exact verdictOf_cons_of_ne_passed hpassed (hcancelled entry.1) ..
    | false =>
      have hpassed := h [] entry coverage rfl List.not_mem_nil hreaches
      rw [List.filter_cons_of_neg (by simp [hreaches]), verdictOf_cons_of_passed hpassed]
      exact hsplit hpassed

/-! ### Runs on a bench -/

/-- A machine on which nobody asks a run to stop, mutants can be set up and taken away again, and
tests end as an assignment of outcomes to mutants and tests says. -/
structure Bench (pairs : List (MutationTarget × Mutation))
    (outcome : MutationTarget × Mutation → TestUnit → TestOutcome) where
  /-- No mutant is in place. -/
  Idle : σ → Prop
  /-- The mutant is in place, under the guard, and deployed. -/
  Ready : MutationTarget × Mutation → ArtifactGuard → σ → Prop
  idle_cancelled {s : σ} (h : Idle s) : ∃ s₁, host.cancelled s = (false, s₁) ∧ Idle s₁
  setUp {s : σ} {pair : MutationTarget × Mutation} (hpair : pair ∈ pairs) (h : Idle s) :
    ∃ guard s₁, MutationTesting.setUp host options policies pair.1 pair.2 s = (.ok guard, s₁) ∧
      Ready pair guard s₁
  ready_cancelled {pair : MutationTarget × Mutation} {guard : ArtifactGuard} {s : σ}
    (h : Ready pair guard s) : ∃ s₁, host.cancelled s = (false, s₁) ∧ Ready pair guard s₁
  run {pair : MutationTarget × Mutation} {guard : ArtifactGuard} {s : σ}
    (h : Ready pair guard s) (test : TestUnit) : ∃ coverage s₁,
      runInstrumented host config test options.timeoutMs s =
        (⟨outcome pair test, coverage⟩, s₁) ∧ Ready pair guard s₁
  restore {pair : MutationTarget × Mutation} {guard : ArtifactGuard} {s : σ}
    (h : Ready pair guard s) : ∃ s₁, guard.restore host s = (.ok (), s₁) ∧ Idle s₁
  outcome_ne (pair : MutationTarget × Mutation) (test : TestUnit) :
    outcome pair test ≠ .cancelled

namespace Bench

variable {host config policies options}
variable {pairs : List (MutationTarget × Mutation)}
  {outcome : MutationTarget × Mutation → TestUnit → TestOutcome}
  (B : Bench host config policies options pairs outcome)
include B

/-- On a bench tests have the verdict of their outcomes. -/
theorem runCoveringTests {pair : MutationTarget × Mutation} {guard : ArtifactGuard}
    (tests : List TestUnit) {s : σ} (h : B.Ready pair guard s) :
    ∃ s', MutationTesting.runCoveringTests host config options tests s =
      (.ok (verdictOf (outcome pair) tests), s') ∧ B.Ready pair guard s' := by
  induction tests generalizing s with
  | nil =>
    obtain ⟨s₁, hgoes, h₁⟩ := B.ready_cancelled h
    refine ⟨s₁, ?_, h₁⟩
    rw [MutationTesting.runCoveringTests, bind_of_eq hgoes]
    rfl
  | cons test tests ih =>
    obtain ⟨s₁, hgoes, h₁⟩ := B.ready_cancelled h
    obtain ⟨coverage, s₂, hran, h₂⟩ := B.run h₁ test
    obtain ⟨s₃, hrest, h₃⟩ := ih h₂
    rw [MutationTesting.runCoveringTests, bind_of_eq hgoes]
    simp only [Bool.false_eq_true, if_false, bind_of_eq hran]
    rw [verdictOf]
    cases houtcome : outcome pair test with
    | passed => exact ⟨s₃, hrest, h₃⟩
    | cancelled => exact absurd houtcome (B.outcome_ne pair test)
    | _ => exact ⟨s₂, rfl, h₂⟩

/-- On a bench a mutation that is tried has the verdict of its tests. -/
theorem evaluateWith {pair : MutationTarget × Mutation} (hpair : pair ∈ pairs)
    (tests : List TestUnit) {s : σ} (h : B.Idle s) :
    ∃ result s', MutationTesting.evaluateWith host config policies options tests pair.1 pair.2 s =
        (⟨.ok result, true⟩, s') ∧ B.Idle s' ∧ result.mutation = pair.2 ∧
      (result.status, result.detail) = verdictOf (outcome pair) tests := by
  obtain ⟨s₁, hgoes, h₁⟩ := B.idle_cancelled h
  obtain ⟨guard, s₂, hsetUp, h₂⟩ := B.setUp hpair h₁
  obtain ⟨s₃, hverdict, h₃⟩ := B.runCoveringTests tests h₂
  obtain ⟨s₄, hrestore, h₄⟩ := B.restore h₃
  rw [MutationTesting.setUp] at hsetUp
  rw [MutationTesting.evaluateWith, bind_of_eq hgoes]
  simp only [Bool.false_eq_true, if_false, get_bind]
  cases hmade : materialize pair.1.classFile policies pair.2.id with
  | error failure =>
    rw [hmade] at hsetUp
    cases hsetUp
  | ok mutant =>
    simp only [hmade] at hsetUp ⊢
    rcases hinstall : ArtifactGuard.install host pair.1.artifact mutant.artifact s₁
      with ⟨failure | guard', s₅⟩ <;> rw [bind_of_eq hinstall] at hsetUp
    · cases hsetUp
    · rcases hdeploy : deploy host options true s₅ with ⟨failure | ⟨⟩, s₆⟩ <;>
        simp only [bind_of_eq hdeploy] at hsetUp
      · cases hsetUp
      · cases hsetUp
        have hjudge : judge host config options tests s₅ =
            (.ok (verdictOf (outcome pair) tests), s₃) := by
          rw [judge, bind_of_eq hdeploy]
          exact hverdict
        rw [evaluateMutant, bind_of_eq hinstall]
        simp only [bind_of_eq hjudge, bind_of_eq hrestore]
        exact ⟨_, s₄, rfl, h₄, rfl, rfl⟩

/-- On a bench a mutation that is evaluated has the verdict of the tests that reach it. -/
theorem evaluate {pair : MutationTarget × Mutation} (hpair : pair ∈ pairs)
    (coverage : CoverageMap) {s : σ} (h : B.Idle s) :
    ∃ result installed s',
      MutationTesting.evaluate host config policies coverage options pair.1 pair.2 s =
        (⟨.ok result, installed⟩, s') ∧ B.Idle s' ∧ result.mutation = pair.2 ∧
      (result.status, result.detail) =
        if coverage.coveringTests pair.1.classFile.name pair.2.line = [] then (.noCoverage, none)
        else verdictOf (outcome pair)
          (coverage.coveringTests pair.1.classFile.name pair.2.line) := by
  by_cases hnone : coverage.coveringTests pair.1.classFile.name pair.2.line = []
  · obtain ⟨s₁, hgoes, h₁⟩ := B.idle_cancelled h
    rw [if_pos hnone, MutationTesting.evaluate, bind_of_eq hgoes]
    simp only [Bool.false_eq_true, if_false, get_bind, hnone]
    exact ⟨_, _, s₁, rfl, h₁, rfl, rfl⟩
  · obtain ⟨result, s', hresult, h', hmutation, hverdict⟩ := B.evaluateWith hpair
      (coverage.coveringTests pair.1.classFile.name pair.2.line) h
    rw [if_neg hnone, evaluate_of_ne_nil host config policies options hnone]
    exact ⟨result, true, s', hresult, h', hmutation, hverdict⟩

/-- Evaluations that leave a bench idle follow one another to the end. -/
theorem evaluateEach {f : MutationTarget → Mutation → StateM σ Evaluation}
    {V : MutationTarget × Mutation → Verdict}
    (hf : ∀ pair ∈ pairs, ∀ s, B.Idle s → ∃ result installed s',
      f pair.1 pair.2 s = (⟨.ok result, installed⟩, s') ∧ B.Idle s' ∧ result.mutation = pair.2 ∧
        (result.status, result.detail) = V pair)
    {rest : List (MutationTarget × Mutation)} (hrest : ∀ pair ∈ rest, pair ∈ pairs) {s : σ}
    (h : B.Idle s) :
    ∃ results installed s',
      MutationTesting.evaluateEach f rest s = ((.ok results, installed), s') ∧
        results.map (fun r => (r.mutation, r.status, r.detail)) =
          rest.map fun pair => (pair.2, V pair) := by
  induction rest generalizing s with
  | nil => exact ⟨[], false, s, rfl, rfl⟩
  | cons pair rest ih =>
    obtain ⟨hpair, hrest⟩ := List.forall_mem_cons.mp hrest
    obtain ⟨result, installed, s₁, hresult, h₁, hmutation, hverdict⟩ := hf pair hpair s h
    obtain ⟨results, installed', s₂, hresults, hmap⟩ := ih hrest h₁
    refine ⟨result :: results, installed || installed', s₂, ?_, ?_⟩
    · rw [MutationTesting.evaluateEach, bind_of_eq hresult]
      exact bind_of_eq hresults
    · rw [List.map_cons, List.map_cons, hmap, hmutation, hverdict]

/-- A run of such evaluations has a result for every mutation. -/
theorem runEach (targets : List MutationTarget)
    (hpairs : ∀ pair ∈ MutationTarget.allMutations targets, pair ∈ pairs)
    {f : MutationTarget → Mutation → StateM σ Evaluation}
    {V : MutationTarget × Mutation → Verdict}
    (hf : ∀ pair ∈ pairs, ∀ s, B.Idle s → ∃ result installed s',
      f pair.1 pair.2 s = (⟨.ok result, installed⟩, s') ∧ B.Idle s' ∧ result.mutation = pair.2 ∧
        (result.status, result.detail) = V pair)
    {s : σ} (h : B.Idle s) :
    ∃ results s', MutationTesting.runEach host options f targets s = (.ok results, s') ∧
      results.map (fun r => (r.mutation, r.status, r.detail)) =
        (MutationTarget.allMutations targets).map fun pair => (pair.2, V pair) := by
  obtain ⟨results, installed, s₁, hresults, hmap⟩ := B.evaluateEach hf hpairs h
  rw [MutationTesting.runEach, bind_of_eq hresults]
  cases installed with
  | false => exact ⟨results, s₁, rfl, hmap⟩
  | true => exact ⟨results, _, rfl, hmap⟩

end Bench

/-! ### A machine with one artifact -/

/-- A machine on which there is one artifact, and programs answer by what it holds. -/
def Host.ofAnswers (answer : Bytes → Command → ProcessOutput) : Host Bytes where
  read s _ := some s
  isDirectory _ _ := false
  filesBelow _ _ := none
  leavesBelow _ _ := []
  now _ := 0
  write _ _ := pure true
  replace _ bytes := fun _ => (none, bytes)
  copy _ _ := pure false
  remove _ := pure true
  claim _ _ := pure .unavailable
  release _ := pure ()
  cancelled := pure false
  run command _ _ := fun s => (some (answer s command), s)

section OfAnswers

variable {config policies options} {answer : Bytes → Command → ProcessOutput}

/-- How a test ends on a mutant when programs answer so. -/
def outcomeOf (answer : Bytes → Command → ProcessOutput) (config : DeviceConfig)
    (policies : List Policy) (options : RunOptions) (pair : MutationTarget × Mutation)
    (test : TestUnit) : TestOutcome :=
  match materialize pair.1.classFile policies pair.2.id with
  | .error _ => .passed
  | .ok mutant =>
    (runInstrumented (.ofAnswers answer) config test options.timeoutMs mutant.artifact).1.outcome

theorem quiet_ofAnswers (answer : Bytes → Command → ProcessOutput) :
    Quiet (.ofAnswers answer) fun _ x => ∀ s, (x s).2 = s where
  pure _ _ := rfl
  bind hx hf s := (hf _ _).trans (hx s)
  get _ := rfl
  cancelled _ := rfl
  run _ _ _ _ := rfl

theorem TestOutcome.ofReport_ne (r : TestReport) : ofReport r ≠ .cancelled := by
  rw [ofReport]
  split
  · exact nofun
  · split <;> exact nofun

theorem outcome_runInstrumented_ne (hanswer : ∀ s command, (answer s command).cancelled = false)
    (test : TestUnit) (timeoutMs : Nat) (s : Bytes) :
    (runInstrumented (.ofAnswers answer) config test timeoutMs s).1.outcome ≠ .cancelled := by
  have hrun : (Host.ofAnswers answer).run (instrumentCommand config test) timeoutMs true s =
      (some (answer s (instrumentCommand config test)), s) := rfl
  rw [runInstrumented, bind_of_eq hrun]
  simp only [hanswer, Bool.false_eq_true, if_false]
  split
  · change TestOutcome.timedOut ≠ .cancelled
    intro h
    cases h
  · exact TestOutcome.ofReport_ne _

theorem deploy_ofAnswers (hanswer : ∀ s command, (answer s command).cancelled = false)
    (heed : Bool) (s : Bytes) :
    deploy (.ofAnswers answer) options heed s = (.ok (), s) := by
  rw [deploy]
  cases options.packageCommand.bind parseCommand? with
  | none => rfl
  | some command =>
    have hrun : (Host.ofAnswers answer).run ⟨command.1, command.2⟩
        (options.timeoutMs * deploymentFactor) heed s =
          (some (answer s ⟨command.1, command.2⟩), s) := rfl
    dsimp only
    rw [bind_of_eq hrun]
    simp only [hanswer]
    rfl

/-- The machine with one artifact is a bench for mutations that have a mutant. -/
def benchOfAnswers (hanswer : ∀ s command, (answer s command).cancelled = false)
    {pairs : List (MutationTarget × Mutation)}
    (hmade : ∀ pair ∈ pairs, ∃ mutant,
      materialize pair.1.classFile policies pair.2.id = .ok mutant) (original : Bytes) :
    Bench (.ofAnswers answer) config policies options pairs
      (outcomeOf answer config policies options) where
  Idle s := s = original
  Ready pair guard s := guard.saved = original ∧ ∃ mutant,
    materialize pair.1.classFile policies pair.2.id = .ok mutant ∧ s = mutant.artifact
  idle_cancelled h := ⟨_, rfl, h⟩
  setUp {s pair} hpair h := by
    obtain ⟨mutant, hmutant⟩ := hmade pair hpair
    have hinstall : ArtifactGuard.install (.ofAnswers answer) pair.1.artifact mutant.artifact s =
        (.ok ⟨pair.1.artifact, backupPath pair.1.artifact, s⟩, mutant.artifact) := rfl
    refine ⟨⟨pair.1.artifact, backupPath pair.1.artifact, s⟩, mutant.artifact, ?_, h, mutant,
      hmutant, rfl⟩
    simp only [setUp, hmutant, bind_of_eq hinstall,
      bind_of_eq (deploy_ofAnswers hanswer true mutant.artifact)]
    rfl
  ready_cancelled h := ⟨_, rfl, h⟩
  run {pair guard s} h test := by
    obtain ⟨hsaved, mutant, hmutant, rfl⟩ := h
    rcases hran : runInstrumented (.ofAnswers answer) config test options.timeoutMs
      mutant.artifact with ⟨⟨outcome, coverage⟩, s₁⟩
    have hstays := (quiet_ofAnswers answer).runInstrumented config test options.timeoutMs
      mutant.artifact
    rw [hran] at hstays
    obtain rfl : s₁ = mutant.artifact := hstays
    have houtcome : outcomeOf answer config policies options pair test = outcome := by
      simp only [outcomeOf, hmutant, hran]
    exact ⟨coverage, mutant.artifact, by rw [houtcome], hsaved, mutant, hmutant, rfl⟩
  restore {pair guard s} h := ⟨guard.saved, rfl, h.1⟩
  outcome_ne pair test := by
    rw [outcomeOf]
    split
    · exact nofun
    · exact outcome_runInstrumented_ne hanswer test options.timeoutMs _

end OfAnswers

theorem exists_materialize (pairs : List (MutationTarget × Mutation)) (policies : List Policy)
    (h : ∀ pair ∈ pairs,
      (materialize pair.1.classFile policies pair.2.id).toOption.isSome = true) :
    ∀ pair ∈ pairs, ∃ mutant, materialize pair.1.classFile policies pair.2.id = .ok mutant := by
  intro pair hpair
  have hsome := h pair hpair
  cases hmade : materialize pair.1.classFile policies pair.2.id with
  | error failure =>
    rw [hmade] at hsome
    cases hsome
  | ok mutant => exact ⟨mutant, rfl⟩

/-! ### Agreement -/

namespace CoverageMap

variable {coverage : CoverageMap} {entry : TestCoverage}

theorem mem_coveringTests {className : String} {line : UInt32} (hentry : entry ∈ coverage)
    (h : TestCoverage.reaches className line entry = true) :
    entry.1 ∈ coverage.coveringTests className line :=
  List.mem_map_of_mem (List.mem_filter.mpr ⟨hentry, h⟩)

/-- A test of which nothing is known is always selected. -/
theorem mem_coveringTests_of_unknown (hentry : entry ∈ coverage) (h : entry.2 = none)
    (className : String) (line : UInt32) : entry.1 ∈ coverage.coveringTests className line := by
  refine mem_coveringTests hentry ?_
  rw [TestCoverage.reaches, h]

/-- A test that visits a class is selected for its line zero. -/
theorem mem_coveringTests_zero (hentry : entry ∈ coverage) {known : LineCoverage}
    (h : entry.2 = some known) {className : String} (hvisited : (known.lookup className).isSome) :
    entry.1 ∈ coverage.coveringTests className 0 := by
  refine mem_coveringTests hentry ?_
  obtain ⟨lines, hlines⟩ := Option.isSome_iff_exists.mp hvisited
  rw [TestCoverage.reaches, h]
  simp only [hlines]
  rfl

end CoverageMap

/-- A mutation that no test reaches survives all tests, and any other has the verdict of the tests
that reach it. -/
theorem verdictOf_all {coverage : CoverageMap} {className : String} {line : UInt32}
    {outcome : TestUnit → TestOutcome} (hcancelled : ∀ test, outcome test ≠ .cancelled)
    (h : coverage.UnreachedPass className line outcome) {verdict : Verdict}
    (hverdict : verdict = if coverage.coveringTests className line = [] then (.noCoverage, none)
      else verdictOf outcome (coverage.coveringTests className line)) :
    verdictOf outcome (coverage.map (·.1)) =
      (if verdict.1 = .noCoverage then .survived else verdict.1, verdict.2) := by
  rw [← verdictOf_coveringTests hcancelled h]
  by_cases hnone : coverage.coveringTests className line = []
  · rw [if_pos hnone] at hverdict
    rw [hnone, hverdict]
    rfl
  · rw [if_neg hnone] at hverdict
    rw [hverdict, if_neg (verdictOf_ne_noCoverage _ _)]

/-- **The selection of tests agrees with a run of all tests**, if tests that do not reach a mutant
pass on it. Both runs come to their end with the same verdicts, but that a mutation that no test
reaches survives when it is tried. Nothing is asked of tests of which nothing is known, and at line
zero nothing of tests that visit the class. -/
theorem selection_agrees_with_all_tests (host : Host σ) (config : DeviceConfig)
    (policies : List Policy) (options : RunOptions) (targets : List MutationTarget)
    (coverage : CoverageMap) (outcome : MutationTarget × Mutation → TestUnit → TestOutcome)
    (B : Bench host config policies options (MutationTarget.allMutations targets) outcome)
    (hpass : ∀ pair ∈ MutationTarget.allMutations targets,
      coverage.UnreachedPass pair.1.classFile.name pair.2.line (outcome pair))
    (s s' : σ) (hs : B.Idle s) (hs' : B.Idle s') :
    (∃ results w results' w',
      runMutations host config policies targets coverage options s = (.ok results, w) ∧
      runThoroughly host config policies options targets coverage s' = (.ok results', w') ∧
      results'.map (fun r => (r.mutation, r.status, r.detail)) = results.map fun r =>
        (r.mutation, if r.status = .noCoverage then .survived else r.status, r.detail)) ∧
    (∀ entry ∈ coverage, entry.2 = none → ∀ className line,
      entry.1 ∈ coverage.coveringTests className line) ∧
    ∀ entry ∈ coverage, ∀ known className, entry.2 = some known →
      (known.lookup className).isSome → entry.1 ∈ coverage.coveringTests className 0 := by
  refine ⟨?_, fun _ hentry hnone => CoverageMap.mem_coveringTests_of_unknown hentry hnone,
    fun _ hentry _ _ hknown hvisited => CoverageMap.mem_coveringTests_zero hentry hknown hvisited⟩
  obtain ⟨results, w, hrun, hmap⟩ := B.runEach targets (fun _ h => h)
    (fun pair hpair s h => B.evaluate hpair coverage h) hs
  obtain ⟨results', w', hrun', hmap'⟩ := B.runEach targets (fun _ h => h)
    (fun pair hpair s h => by
      obtain ⟨result, s₁, hresult⟩ := B.evaluateWith hpair (coverage.map (·.1)) h
      exact ⟨result, true, s₁, hresult⟩) hs'
  rw [← runMutations_eq] at hrun
  refine ⟨results, w, results', w', hrun, hrun', ?_⟩
  have hmask : results.map (fun r =>
      (r.mutation, if r.status = .noCoverage then MutantStatus.survived else r.status,
        r.detail)) =
      (results.map fun r => (r.mutation, r.status, r.detail)).map fun r =>
        (r.1, if r.2.1 = .noCoverage then MutantStatus.survived else r.2.1, r.2.2) := by
    rw [List.map_map]
    rfl
  rw [hmask, hmap, hmap', List.map_map]
  refine List.map_congr_left fun pair hpair => ?_
  exact congrArg (Prod.mk pair.2) (verdictOf_all (B.outcome_ne pair) (hpass pair hpair) rfl)

/-- Two mutants, of which one is found out by a test that reaches it, and no test reaches the
other. -/
theorem selection_agrees_on_two_mutants :
    let classOf (name : String) : ClassFile := { ClassFile.empty name with
      methods := [.plain "m" "()V" publicFlag [.line 7 0, .loadText "https://a", .simple .pop]] }
    let targets : List MutationTarget :=
      [.ofClass Policy.defaults ['B'] (classOf "B"), .ofClass Policy.defaults ['B'] (classOf "C")]
    let coverage : CoverageMap := [(⟨"T", "n"⟩, some []), (⟨"T", "m"⟩, some [("B", [7])])]
    let config : DeviceConfig := ⟨[], "a.test", "a", "Runner", [], "bridge"⟩
    let options : RunOptions := ⟨none, 1000⟩
    let ended (code : String) : ProcessOutput := ⟨.exited 0, false,
      ("INSTRUMENTATION_STATUS_CODE: 1\n" ++ "INSTRUMENTATION_STATUS_CODE: " ++ code ++
        "\n").toList.map fun c => UInt8.ofNat c.toNat, [], 5⟩
    -- the second test fails if the name of the class is B
    let answer (s : Bytes) (command : Command) : ProcessOutput :=
      if command.args.getD 10 "" = "T#m" && s.getD 13 0 = 66 then ended "-2" else ended "0"
    (∀ pair ∈ MutationTarget.allMutations targets,
      coverage.UnreachedPass pair.1.classFile.name pair.2.line
        (outcomeOf answer config Policy.defaults options pair)) ∧
      (∃ B : Bench (.ofAnswers answer) config Policy.defaults options
        (MutationTarget.allMutations targets)
        (outcomeOf answer config Policy.defaults options), B.Idle []) ∧
      ∃ results w results' w',
        runMutations (.ofAnswers answer) config Policy.defaults targets coverage options [] =
          (.ok results, w) ∧
        runThoroughly (.ofAnswers answer) config Policy.defaults options targets coverage [] =
          (.ok results', w') ∧
        results.map (fun r => (r.status, r.detail)) =
          [(.killed, some "T#m"), (.noCoverage, none)] ∧
        results'.map (fun r => (r.status, r.detail)) =
          [(.killed, some "T#m"), (.survived, none)] := by
  intro classOf targets coverage config options ended answer
  have hanswer : ∀ s command, (answer s command).cancelled = false := by
    intro s command
    dsimp only [answer]
    split <;> rfl
  have hmade := exists_materialize (MutationTarget.allMutations targets) Policy.defaults
    (by decide +kernel)
  have hpass : ∀ pair ∈ MutationTarget.allMutations targets,
      coverage.UnreachedPass pair.1.classFile.name pair.2.line
        (outcomeOf answer config Policy.defaults options pair) := by
    have hforall : ∀ pair ∈ MutationTarget.allMutations targets, ∀ entry ∈ coverage,
        TestCoverage.reaches pair.1.classFile.name pair.2.line entry = false →
          outcomeOf answer config Policy.defaults options pair entry.1 = .passed := by
      decide +kernel
    exact fun pair hpair => CoverageMap.unreachedPass_of_forall (hforall pair hpair)
  have hshown : (runMutations (.ofAnswers answer) config Policy.defaults targets coverage options
      []).1.toOption.map (·.map fun r => (r.status, r.detail)) =
        some [(.killed, some "T#m"), (.noCoverage, none)] := by
    decide +kernel
  obtain ⟨⟨results, w, results', w', hrun, hrun', hagree⟩, -, -⟩ :=
    selection_agrees_with_all_tests (.ofAnswers answer) config Policy.defaults options targets
      coverage _ (benchOfAnswers hanswer hmade []) hpass [] [] rfl rfl
  rw [hrun] at hshown
  have hresults : results.map (fun r => (r.status, r.detail)) =
      [(.killed, some "T#m"), (.noCoverage, none)] := Option.some.inj hshown
  refine ⟨hpass, ⟨benchOfAnswers hanswer hmade [], rfl⟩, results, w, results', w', hrun, hrun',
    hresults, ?_⟩
  have hverdicts : results'.map (fun r => (r.status, r.detail)) =
      (results.map fun r => (r.status, r.detail)).map fun r =>
        (if r.1 = .noCoverage then MutantStatus.survived else r.1, r.2) := by
    have hsnd := congrArg (List.map Prod.snd) hagree
    simpa only [List.map_map, Function.comp_def] using hsnd
  rw [hverdicts, hresults]
  rfl

/-- A test that is listed twice, first with lines that it reaches and then without data, is not the
first one that is run when the tests are selected. The test that is run before it decides. -/
theorem repeated_test_spoils_selection :
    let c : ClassFile := { ClassFile.empty "B" with
      methods := [.plain "m" "()V" publicFlag [.line 7 0, .loadText "https://a", .simple .pop]] }
    let targets : List MutationTarget := [.ofClass Policy.defaults ['B'] c]
    let coverage : CoverageMap :=
      [(⟨"T", "m"⟩, some []), (⟨"T", "n"⟩, none), (⟨"T", "m"⟩, none)]
    let config : DeviceConfig := ⟨[], "a.test", "a", "Runner", [], "bridge"⟩
    let options : RunOptions := ⟨none, 1000⟩
    let answer (_ : Bytes) (_ : Command) : ProcessOutput := ⟨.exited 0, false,
      ("INSTRUMENTATION_STATUS_CODE: 1\n" ++ "INSTRUMENTATION_STATUS_CODE: -2\n").toList.map
        fun c => UInt8.ofNat c.toNat, [], 5⟩
    (∃ B : Bench (.ofAnswers answer) config Policy.defaults options
        (MutationTarget.allMutations targets)
        (outcomeOf answer config Policy.defaults options), B.Idle []) ∧
      (∀ pair ∈ MutationTarget.allMutations targets, ∀ entry ∈ coverage,
        entry.1 ∉ coverage.coveringTests pair.1.classFile.name pair.2.line →
          outcomeOf answer config Policy.defaults options pair entry.1 = .passed) ∧
      (runMutations (.ofAnswers answer) config Policy.defaults targets coverage options
        []).1.toOption.map (·.map fun r => (r.status, r.detail)) =
          some [(.killed, some "T#n")] ∧
      (runThoroughly (.ofAnswers answer) config Policy.defaults options targets coverage
        []).1.toOption.map (·.map fun r => (r.status, r.detail)) =
          some [(.killed, some "T#m")] := by
  intro c targets coverage config options answer
  have hmade := exists_materialize (MutationTarget.allMutations targets) Policy.defaults
    (by decide +kernel)
  refine ⟨⟨benchOfAnswers (fun _ _ => rfl) hmade [], rfl⟩, ?_, by decide +kernel,
    by decide +kernel⟩
  have hselected : ∀ pair ∈ MutationTarget.allMutations targets, ∀ entry ∈ coverage,
      entry.1 ∈ coverage.coveringTests pair.1.classFile.name pair.2.line := by
    decide +kernel
  exact fun pair hpair entry hentry hunselected =>
    absurd (hselected pair hpair entry hentry) hunselected

end MutationTesting
