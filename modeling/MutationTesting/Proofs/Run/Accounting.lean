import MutationTesting.Proofs.Host.Watched
import MutationTesting.Run.MutationRun
/-!
# Accounts of a mutation run

A run has one result for every mutation of its targets, in order. What a result says follows from
what was done for its mutation: nothing at all if no test reaches it, and otherwise the mutant is
made, put in place, deployed and tested, and the first of these steps that goes wrong decides. The
tests are run in order, and the first of them that does not pass is the last that is started.

A host may answer whatever it wants, and it may keep count of what it is asked to do. That nothing
else was done for a mutation therefore means that the host is in the state in which the steps
spoken of leave it.

## Main definitions

* `RunsTests` — tests that were run one after the other, with their outcomes
* `Judged` — the verdict of tests, with the tests that were run for it
* `Accounted`, `AccountedAll` — the results of mutations, with what was done for them

## Main results

* `judged_of_runCoveringTests`, `accounted_of_evaluate`, `accountedAll_of_evaluateAll`
* `results_account_for_mutations`
-/

namespace MutationTesting

variable {σ : Type} (host : Host σ) (config : DeviceConfig) (options : RunOptions)

/-! ### Tests -/

/-- Tests that were run one after the other, with their outcomes. The run was not asked to stop
before any of them. -/
inductive RunsTests : List (TestUnit × TestOutcome) → σ → σ → Prop where
  | nil (s : σ) : RunsTests [] s s
  | cons {test : TestUnit} {outcome : TestOutcome} {coverage : Option Bytes}
      {rest : List (TestUnit × TestOutcome)} {s s₁ s₂ s₃ : σ}
      (goes : host.cancelled s = (false, s₁))
      (ran : runInstrumented host config test options.timeoutMs s₁ = (⟨outcome, coverage⟩, s₂))
      (further : RunsTests rest s₂ s₃) : RunsTests ((test, outcome) :: rest) s s₃

/-- The verdict of tests with the states before and after they were run. The first one that does
not pass decides, and no other is run behind it. -/
inductive Judged (tests : List TestUnit) : Verdict → σ → σ → Prop where
  | survived {s s₁ s₂ : σ}
      (ran : RunsTests host config options (tests.map (·, .passed)) s s₁)
      (goes : host.cancelled s₁ = (false, s₂)) : Judged tests (.survived, none) s s₂
  | killed (before : List TestUnit) {after : List TestUnit} {test : TestUnit}
      {outcome : TestOutcome} {s s₁ : σ}
      (split : tests = before ++ test :: after)
      (noticed : (∃ cause, outcome = .failed cause) ∨ ∃ cause, outcome = .notExecuted cause)
      (ran : RunsTests host config options (before.map (·, .passed) ++ [(test, outcome)]) s s₁) :
      Judged tests (.killed, some test.selector) s s₁
  | timeout (before : List TestUnit) {after : List TestUnit} {test : TestUnit} {s s₁ : σ}
      (split : tests = before ++ test :: after)
      (ran : RunsTests host config options (before.map (·, .passed) ++ [(test, .timedOut)]) s s₁) :
      Judged tests (.timeout, some test.selector) s s₁

variable {host config options} {test : TestUnit} {tests : List TestUnit}
  {coverage : Option Bytes} {verdict : Verdict} {s s' s₁ s₂ : σ}

/-- A test that passes decides nothing. -/
theorem Judged.cons (goes : host.cancelled s = (false, s₁))
    (ran : runInstrumented host config test options.timeoutMs s₁ = (⟨.passed, coverage⟩, s₂))
    (h : Judged host config options tests verdict s₂ s') :
    Judged host config options (test :: tests) verdict s s' := by
  cases h with
  | survived further goes' => exact .survived (.cons goes ran further) goes'
  | @killed before _ _ _ _ _ split noticed further =>
    exact .killed (test :: before) (congrArg (test :: ·) split) noticed
      (.cons goes ran further)
  | @timeout before _ _ _ _ split further =>
    exact .timeout (test :: before) (congrArg (test :: ·) split)
      (.cons goes ran further)

/-- **The verdict of tests** is that of the first one that does not pass. -/
theorem judged_of_runCoveringTests
    (h : runCoveringTests host config options tests s = (.ok verdict, s')) :
    Judged host config options tests verdict s s' := by
  induction tests generalizing s with
  | nil =>
    rcases hgoes : host.cancelled s with ⟨_ | _, s₁⟩ <;>
      rw [runCoveringTests, bind_of_eq hgoes] at h
    · cases h
      exact .survived (.nil s) hgoes
    · cases h
  | cons test tests ih =>
    rcases hgoes : host.cancelled s with ⟨_ | _, s₁⟩ <;>
      rw [runCoveringTests, bind_of_eq hgoes] at h
    · rcases hran : runInstrumented host config test options.timeoutMs s₁
        with ⟨⟨outcome, coverage⟩, s₂⟩
      simp only [Bool.false_eq_true, if_false, bind_of_eq hran] at h
      have hlast : RunsTests host config options [(test, outcome)] s s₂ :=
        .cons hgoes hran (.nil s₂)
      cases outcome with
      | passed => exact (ih h).cons hgoes hran
      | failed cause =>
        cases h
        exact .killed [] rfl (.inl ⟨cause, rfl⟩) hlast
      | notExecuted cause =>
        cases h
        exact .killed [] rfl (.inr ⟨cause, rfl⟩) hlast
      | timedOut =>
        cases h
        exact .timeout [] rfl hlast
      | cancelled => cases h
    · cases h

/-! ### One mutation -/

section Mutation

variable (host config options) (policies : List Policy) (coverage : CoverageMap)
  (target : MutationTarget) (mutation : Mutation)

/-- The steps before the tests of a mutant: it is made, put in place and deployed. -/
def setUp : StateM σ (Except Failure ArtifactGuard) :=
  match materialize target.classFile policies mutation.id with
  | .error failure => pure (.error failure)
  | .ok mutant => do
    match ← ArtifactGuard.install host target.artifact mutant.artifact with
    | .error failure => pure (.error failure)
    | .ok guard =>
      match ← deploy host options true with
      | .error failure => pure (.error failure)
      | .ok () => pure (.ok guard)

/-- The result of a mutation, and whether its mutant was in place, with the states before and after
its evaluation. -/
structure Accounted (result : MutantResult) (installed : Bool) (s s' : σ) : Prop where
  mutation_eq : result.mutation = mutation
  goes : (host.cancelled s).1 = false
  noCoverage_iff : result.status = .noCoverage ↔
    coverage.coveringTests target.classFile.name mutation.line = []
  /-- Nothing is done for a mutation that no test reaches. -/
  untried : coverage.coveringTests target.classFile.name mutation.line = [] →
    result.detail = none ∧ s' = (host.cancelled s).2
  unviable_iff : coverage.coveringTests target.classFile.name mutation.line ≠ [] →
    (result.status = .unviable ↔
      ∃ failure, (setUp host options policies target mutation (host.cancelled s).2).1 =
        .error failure)
  reason : coverage.coveringTests target.classFile.name mutation.line ≠ [] →
    ∀ failure, (setUp host options policies target mutation (host.cancelled s).2).1 =
      .error failure → result.detail = some failure.message
  /-- The tests decide if there are any and the mutant can be set up; then it is taken away. -/
  tried : coverage.coveringTests target.classFile.name mutation.line ≠ [] →
    ∀ guard s₁, setUp host options policies target mutation (host.cancelled s).2 =
      (.ok guard, s₁) →
        ∃ s₂, Judged host config options
          (coverage.coveringTests target.classFile.name mutation.line)
          (result.status, result.detail) s₁ s₂ ∧ guard.restore host s₂ = (.ok (), s')
  installed_iff : installed = true ↔
    coverage.coveringTests target.classFile.name mutation.line ≠ [] ∧
      ∃ mutant guard, materialize target.classFile policies mutation.id = .ok mutant ∧
        (ArtifactGuard.install host target.artifact mutant.artifact (host.cancelled s).2).1 =
          .ok guard

end Mutation

variable {policies : List Policy} {coverage : CoverageMap} {target : MutationTarget}
  {mutation : Mutation} {result : MutantResult} {installed : Bool}

/-- Tests find a mutant alive or dead, but always one that could be tried. -/
theorem Judged.status_ne (h : Judged host config options tests verdict s s') :
    verdict.1 ≠ .noCoverage ∧ verdict.1 ≠ .unviable := by
  cases h <;> exact ⟨nofun, nofun⟩

/-- A mutation whose mutant cannot be set up has that as its result. -/
theorem accounted_of_unviable (hgoes : (host.cancelled s).1 = false)
    (htests : coverage.coveringTests target.classFile.name mutation.line ≠ []) {failure : Failure}
    (hfails : (setUp host options policies target mutation (host.cancelled s).2).1 =
      .error failure)
    (hinstalled : installed = true ↔
      ∃ mutant guard, materialize target.classFile policies mutation.id = .ok mutant ∧
        (ArtifactGuard.install host target.artifact mutant.artifact (host.cancelled s).2).1 =
          .ok guard) (durationMs : Nat) (diff : String) :
    Accounted host config options policies coverage target mutation
      ⟨mutation, .unviable, durationMs, diff, some failure.message⟩ installed s s' where
  mutation_eq := rfl
  goes := hgoes
  noCoverage_iff := ⟨nofun, fun h => absurd h htests⟩
  untried h := absurd h htests
  unviable_iff _ := ⟨fun _ => ⟨failure, hfails⟩, fun _ => rfl⟩
  reason _ failure' h := by rw [Except.error.inj (hfails.symm.trans h)]
  tried _ guard s₁ h := by
    rw [h] at hfails
    cases hfails
  installed_iff := hinstalled.trans (and_iff_right htests).symm

/-- A mutation whose mutant can be set up has the verdict of the tests as its result. -/
theorem accounted_of_judged (hgoes : (host.cancelled s).1 = false)
    (htests : coverage.coveringTests target.classFile.name mutation.line ≠ [])
    {guard : ArtifactGuard} {status : MutantStatus} {detail : Option String}
    (hsetUp : setUp host options policies target mutation (host.cancelled s).2 = (.ok guard, s₁))
    (hjudged : Judged host config options
      (coverage.coveringTests target.classFile.name mutation.line) (status, detail) s₁ s₂)
    (hrestore : guard.restore host s₂ = (.ok (), s'))
    (hinstalled : ∃ mutant guard, materialize target.classFile policies mutation.id = .ok mutant ∧
      (ArtifactGuard.install host target.artifact mutant.artifact (host.cancelled s).2).1 =
        .ok guard) (durationMs : Nat) (diff : String) :
    Accounted host config options policies coverage target mutation
      ⟨mutation, status, durationMs, diff, detail⟩ true s s' where
  mutation_eq := rfl
  goes := hgoes
  noCoverage_iff := iff_of_false hjudged.status_ne.1 htests
  untried h := absurd h htests
  unviable_iff _ := by
    refine iff_of_false hjudged.status_ne.2 ?_
    rintro ⟨failure, hfails⟩
    rw [hsetUp] at hfails
    cases hfails
  reason _ failure hfails := by
    rw [hsetUp] at hfails
    cases hfails
  tried _ guard' s₃ hsetUp' := by
    cases hsetUp.symm.trans hsetUp'
    exact ⟨s₂, hjudged, hrestore⟩
  installed_iff := iff_of_true rfl ⟨htests, hinstalled⟩

/-- A mutant that is in place has the verdict that it is given, if it can be taken away. -/
theorem judge_of_evaluateMutant {artifact : Path} {mutant : Mutant} {guard : ArtifactGuard}
    {start : Nat} (hinstall : ArtifactGuard.install host artifact mutant.artifact s₁ =
      (.ok guard, s₂))
    (h : evaluateMutant host config options tests artifact mutation mutant start s₁ =
      (⟨.ok result, installed⟩, s')) :
    ∃ status detail s₃, judge host config options tests s₂ = (.ok (status, detail), s₃) ∧
      guard.restore host s₃ = (.ok (), s') ∧ installed = true ∧
      result = ⟨mutation, status, host.now s' - start, mutant.diff, detail⟩ := by
  rw [evaluateMutant, bind_of_eq hinstall] at h
  rcases hjudge : judge host config options tests s₂ with ⟨verdict, s₃⟩
  rcases hrestore : guard.restore host s₃ with ⟨_ | ⟨⟩, s₄⟩ <;>
    simp only [bind_of_eq hjudge, bind_of_eq hrestore] at h
  · cases h
  · rcases verdict with _ | ⟨status, detail⟩
    · cases h
    · cases h
      exact ⟨status, detail, s₃, rfl, hrestore, rfl, rfl⟩

/-- What a deployment that fails means for a mutant. -/
theorem verdict_of_deploy_error {failure : Failure} {s₃ : σ}
    (hdeploy : deploy host options true s = (.error failure, s₁))
    (h : judge host config options tests s = (.ok verdict, s₃)) :
    verdict = (.unviable, some failure.message) := by
  rw [judge, bind_of_eq hdeploy] at h
  cases failure <;> cases h <;> rfl

/-- A mutant that is made has the result that its tests give, or the first step before them that
fails. -/
theorem accounted_of_evaluateMutant (hgoes : host.cancelled s = (false, s₁))
    (htests : coverage.coveringTests target.classFile.name mutation.line ≠ []) {mutant : Mutant}
    (hmade : materialize target.classFile policies mutation.id = .ok mutant) {start : Nat}
    (h : evaluateMutant host config options
      (coverage.coveringTests target.classFile.name mutation.line) target.artifact mutation mutant
      start s₁ = (⟨.ok result, installed⟩, s')) :
    Accounted host config options policies coverage target mutation result installed s s' := by
  have hgoes₁ : (host.cancelled s).1 = false := by rw [hgoes]
  have hgoes₂ : (host.cancelled s).2 = s₁ := by rw [hgoes]
  rcases hinstall : ArtifactGuard.install host target.artifact mutant.artifact s₁
    with ⟨failure | guard, s₂⟩
  · rw [evaluateMutant, bind_of_eq hinstall] at h
    cases h
    refine accounted_of_unviable hgoes₁ htests ?_ ?_ _ _
    · simp only [setUp, hmade, hgoes₂, bind_of_eq hinstall]
      rfl
    · simp [hmade, hgoes₂, hinstall]
  · have hinstalled : ∃ mutant guard,
        materialize target.classFile policies mutation.id = .ok mutant ∧
          (ArtifactGuard.install host target.artifact mutant.artifact (host.cancelled s).2).1 =
            .ok guard :=
      ⟨mutant, guard, hmade, by rw [hgoes₂, hinstall]⟩
    obtain ⟨status, detail, s₃, hjudge, hrestore, rfl, rfl⟩ := judge_of_evaluateMutant hinstall h
    rcases hdeploy : deploy host options true s₂ with ⟨failure | ⟨⟩, s₄⟩
    · obtain ⟨rfl, rfl⟩ := Prod.mk.inj (verdict_of_deploy_error hdeploy hjudge)
      refine accounted_of_unviable hgoes₁ htests ?_ (iff_of_true rfl hinstalled) _ _
      simp only [setUp, hmade, hgoes₂, bind_of_eq hinstall, bind_of_eq hdeploy]
      rfl
    · have hsetUp : setUp host options policies target mutation (host.cancelled s).2 =
          (.ok guard, s₄) := by
        simp only [setUp, hmade, hgoes₂, bind_of_eq hinstall, bind_of_eq hdeploy]
        rfl
      rw [judge, bind_of_eq hdeploy] at hjudge
      exact accounted_of_judged hgoes₁ htests hsetUp (judged_of_runCoveringTests hjudge) hrestore
        hinstalled _ _

/-- **The result of a mutation** accounts for what was done for it. -/
theorem accounted_of_evaluate
    (h : evaluate host config policies coverage options target mutation s =
      (⟨.ok result, installed⟩, s')) :
    Accounted host config options policies coverage target mutation result installed s s' := by
  rcases hgoes : host.cancelled s with ⟨_ | _, s₁⟩ <;> rw [evaluate, bind_of_eq hgoes] at h
  case true => cases h
  have hgoes₁ : (host.cancelled s).1 = false := by rw [hgoes]
  have hgoes₂ : (host.cancelled s).2 = s₁ := by rw [hgoes]
  simp only [Bool.false_eq_true, if_false, get_bind] at h
  cases htests : coverage.coveringTests target.classFile.name mutation.line with
  | nil =>
    rw [htests] at h
    cases h
    constructor
    case mutation_eq => rfl
    case goes => exact hgoes₁
    case noCoverage_iff => exact iff_of_true rfl htests
    case untried => exact fun _ => ⟨rfl, hgoes₂.symm⟩
    case unviable_iff => exact fun hsome => absurd htests hsome
    case reason => exact fun hsome => absurd htests hsome
    case tried => exact fun hsome => absurd htests hsome
    case installed_iff => exact iff_of_false nofun fun hsome => hsome.1 htests
  | cons test tests =>
    have hsome : coverage.coveringTests target.classFile.name mutation.line ≠ [] := by
      rw [htests]
      exact nofun
    cases hmade : materialize target.classFile policies mutation.id with
    | error failure =>
      simp only [htests, hmade] at h
      have hsetUp : (setUp host options policies target mutation (host.cancelled s).2).1 =
          .error failure := by
        simp only [setUp, hmade]
        rfl
      -- a mutant that breaks an invariant would have ended the run
      cases failure <;> cases h <;>
        exact accounted_of_unviable hgoes₁ hsome hsetUp (by simp [hmade]) _ _
    | ok mutant =>
      simp only [htests, hmade] at h
      exact accounted_of_evaluateMutant hgoes hsome hmade (htests ▸ h)

/-! ### All mutations -/

section Run

variable (host config options policies coverage)

/-- The results of mutations, each with the states before and after its evaluation, and whether any
mutant was in place. -/
inductive AccountedAll :
    List (MutationTarget × Mutation) → List MutantResult → Bool → σ → σ → Prop where
  | nil (s : σ) : AccountedAll [] [] false s s
  | cons {target : MutationTarget} {mutation : Mutation} {rest : List (MutationTarget × Mutation)}
      {result : MutantResult} {results : List MutantResult} {installed installed' : Bool}
      {s s₁ s₂ : σ}
      (first : Accounted host config options policies coverage target mutation result installed
        s s₁)
      (further : AccountedAll rest results installed' s₁ s₂) :
      AccountedAll ((target, mutation) :: rest) (result :: results) (installed || installed') s s₂

end Run

variable {pairs : List (MutationTarget × Mutation)} {results : List MutantResult}

theorem AccountedAll.map_mutation
    (h : AccountedAll host config options policies coverage pairs results installed s s') :
    results.map (·.mutation) = pairs.map (·.2) := by
  induction h with
  | nil => rfl
  | cons first further ih => rw [List.map_cons, List.map_cons, first.mutation_eq, ih]

theorem accountedAll_of_evaluateAll
    (h : evaluateAll host config policies coverage options pairs s =
      ((.ok results, installed), s')) :
    AccountedAll host config options policies coverage pairs results installed s s' := by
  induction pairs generalizing results installed s with
  | nil =>
    cases h
    exact .nil _
  | cons pair rest ih =>
    obtain ⟨target, mutation⟩ := pair
    rcases hfirst : evaluate host config policies coverage options target mutation s
      with ⟨⟨_ | result, installed₁⟩, s₁⟩ <;> rw [evaluateAll, bind_of_eq hfirst] at h
    · cases h
    · rcases hrest : evaluateAll host config policies coverage options rest s₁
        with ⟨⟨_ | results₁, installed₂⟩, s₂⟩ <;> simp only [bind_of_eq hrest] at h
      · cases h
      · cases h
        exact .cons (accounted_of_evaluate hfirst) (ih hrest)

theorem MutationTarget.map_allMutations (targets : List MutationTarget) :
    (allMutations targets).map (·.2) = targets.flatMap (·.mutations) := by
  simp [allMutations, List.map_flatMap, Function.comp_def]

/-- **A run has one result for every mutation** of its targets, in order. Each of them accounts for
what was done for its mutation, and nothing is done besides, but that the application is deployed
again if a mutant was in place. -/
theorem results_account_for_mutations (host : Host σ) (config : DeviceConfig)
    (policies : List Policy) (targets : List MutationTarget) (coverage : CoverageMap)
    (options : RunOptions) (s s' : σ) (results : List MutantResult)
    (h : runMutations host config policies targets coverage options s = (.ok results, s')) :
    results.map (·.mutation) = targets.flatMap (·.mutations) ∧
      ∃ installed s₁, AccountedAll host config options policies coverage
          (MutationTarget.allMutations targets) results installed s s₁ ∧
        s' = if installed then (deploy host options false s₁).2 else s₁ := by
  rcases hall : evaluateAll host config policies coverage options
    (MutationTarget.allMutations targets) s with ⟨⟨result, installed⟩, s₁⟩
  obtain ⟨rfl, rfl⟩ : result = .ok results ∧
      s' = if installed then (deploy host options false s₁).2 else s₁ := by
    rw [runMutations, bind_of_eq hall] at h
    cases installed <;> cases h <;> exact ⟨rfl, rfl⟩
  have haccounted := accountedAll_of_evaluateAll hall
  exact ⟨haccounted.map_mutation.trans (MutationTarget.map_allMutations targets), installed, s₁,
    haccounted, rfl⟩

/-- A run over two artifacts, one of which is missing. At line 7 the second test fails, line 6 is
reached by no test, and at line 8 the first test takes too long. -/
theorem five_results_account_for_mutations :
    let code (line : UInt32) : List Instruction :=
      [.line line 0, .loadText "https://a", .simple .pop]
    let classOf (name : String) (lines : List UInt32) : ClassFile := { ClassFile.empty name with
      methods := [.plain "m" "()V" publicFlag (lines.flatMap code)] }
    let targets : List MutationTarget :=
      [.ofClass Policy.defaults ['B'] (classOf "a/B" [7, 6, 9]),
        .ofClass Policy.defaults ['C'] (classOf "a/C" [4]),
        .ofClass Policy.defaults ['B'] (classOf "a/B" [8])]
    let coverage : CoverageMap :=
      [(⟨"a.T", "m"⟩, some [("a/B", [7, 8, 9]), ("a/C", [4])]), (⟨"a.T", "n"⟩, some [("a/B", [7])])]
    let output (ending : ProcessEnd) (text : String) : ProcessOutput :=
      ⟨ending, false, text.toList.map fun c => UInt8.ofNat c.toNat, [], 5⟩
    let ended (code : String) : ProcessOutput := output (.exited 0)
      ("INSTRUMENTATION_STATUS_CODE: 1\n" ++ "INSTRUMENTATION_STATUS_CODE: " ++ code ++ "\n")
    let E : Outside (List ProcessOutput) := ⟨fun _ => 0, fun _ _ => true, fun _ => pure true,
      pure false, fun _ _ _ _ => fun outputs => (outputs.head?, outputs.tail)⟩
    let config : DeviceConfig := ⟨[], "a.test", "a", "Runner", [], "bridge"⟩
    let options : RunOptions := ⟨none, 1000⟩
    let w : World (List ProcessOutput) :=
      ⟨[ended "0", ended "-2", ended "0", output .killed ""],
        fun path => if path = ['B'] then some [1, 2] else none, []⟩
    ∃ results w', runMutations E.host config Policy.defaults targets coverage options w =
        (.ok results, w') ∧
      results.map (fun r => (r.mutation.line, r.status, r.detail)) =
        [(7, .killed, some "a.T#n"), (6, .noCoverage, none), (9, .survived, none),
          (4, .unviable, some "I/O error on C"), (8, .timeout, some "a.T#m")] ∧
      ∃ installed w₁, AccountedAll E.host config options Policy.defaults coverage
        (MutationTarget.allMutations targets) results installed w w₁ := by
  intro code classOf targets coverage output ended E config options w
  have hshown : (runMutations E.host config Policy.defaults targets coverage options
      w).1.toOption.map (·.map fun r => (r.mutation.line, r.status, r.detail)) =
        some [(7, .killed, some "a.T#n"), (6, .noCoverage, none), (9, .survived, none),
          (4, .unviable, some "I/O error on C"), (8, .timeout, some "a.T#m")] := by
    subst code classOf targets coverage output ended E config options w
    decide +kernel
  rcases hrun : runMutations E.host config Policy.defaults targets coverage options w
    with ⟨_ | results, w'⟩ <;> rw [hrun] at hshown
  · cases hshown
  · obtain ⟨-, installed, w₁, haccounted, -⟩ := results_account_for_mutations E.host config
      Policy.defaults targets coverage options w w' results hrun
    exact ⟨results, w', rfl, Option.some.inj hshown, installed, w₁, haccounted⟩

end MutationTesting
