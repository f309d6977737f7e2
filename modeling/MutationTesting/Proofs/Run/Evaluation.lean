import MutationTesting.Proofs.Host.Watched
import MutationTesting.Proofs.Run.Quiet
/-!
# The evaluation of a mutation

While a mutant is judged nothing touches a file: a deployment and tests only start processes. So
the evaluation of a mutation touches files in two places, when the guard puts the mutant in place
and when it takes it away, and the steps of an evaluation have one of two forms.

## Main definitions

* `CancelsOnly` — steps that fail only if the run is asked to stop
* `Visit` — the steps of an evaluation

## Main results

* `isIdle_judge`, `cancelsOnly_judge`
* `install_cases`, `restore_of_withMutant` — what a guard does to files
* `evaluate_visit`
-/

namespace MutationTesting

variable {ε : Type} (E : Outside ε) (config : DeviceConfig) (options : RunOptions)

/-! ### Steps that touch no file -/

theorem quiet_isIdle : Quiet E.host fun _ x => IsIdle x where
  pure := isIdle_pure
  bind := IsIdle.bind
  get := World.Idles.refl
  cancelled := isIdle_cancelled E
  run := isIdle_run E

theorem isIdle_judge (tests : List TestUnit) : IsIdle (judge E.host config options tests) :=
  (quiet_isIdle E).judge config options tests

/-- Without a command nothing is deployed. -/
theorem deploy_of_none {heed : Bool} (h : options.packageCommand.bind parseCommand? = none)
    (w : World ε) : deploy E.host options heed w = (.ok (), w) := by
  rw [deploy, h]
  rfl

/-- A deployment starts its command and does nothing else. -/
theorem deploy_of_some {heed : Bool} {program : String} {args : List String}
    (h : options.packageCommand.bind parseCommand? = some (program, args)) (w : World ε) :
    ∃ result outside, deploy E.host options heed w =
      (result, { w with outside }.noted (.started ⟨program, args⟩ heed)) := by
  rcases hrun : E.run w.files ⟨program, args⟩ (options.timeoutMs * deploymentFactor) heed w.outside
    with ⟨output, outside⟩
  have hstarted : E.host.run ⟨program, args⟩ (options.timeoutMs * deploymentFactor) heed w =
      (output, { w with outside }.noted (.started ⟨program, args⟩ heed)) := by
    simp only [Outside.host, hrun]
  rw [deploy, h]
  dsimp only
  rw [bind_of_eq hstarted]
  cases output <;> exact ⟨_, outside, rfl⟩

/-! ### Steps that fail only if the run is asked to stop -/

/-- Steps whose only failure is that the run is asked to stop. -/
def CancelsOnly {α : Type} (x : StateM (World ε) (Except Failure α)) : Prop :=
  ∀ w failure, (x w).1 = .error failure → failure = .cancelled

theorem cancelsOnly_ok {α : Type} (a : α) :
    CancelsOnly (pure (.ok a) : StateM (World ε) (Except Failure α)) :=
  fun _ _ h => nomatch h

theorem cancelsOnly_cancelled {α : Type} :
    CancelsOnly (pure (.error .cancelled) : StateM (World ε) (Except Failure α)) :=
  fun _ _ h => (Except.error.inj h).symm

theorem CancelsOnly.bind {α β : Type} {x : StateM (World ε) α}
    {f : α → StateM (World ε) (Except Failure β)} (hf : ∀ a, CancelsOnly (f a)) :
    CancelsOnly (x >>= f) :=
  fun w => hf (x w).1 (x w).2

theorem cancelsOnly_runCoveringTests (tests : List TestUnit) :
    CancelsOnly (runCoveringTests E.host config options tests) := by
  induction tests with
  | nil =>
    rw [runCoveringTests]
    refine .bind fun cancelled => ?_
    split
    · exact cancelsOnly_cancelled
    · exact cancelsOnly_ok _
  | cons test tests ih =>
    rw [runCoveringTests]
    refine .bind fun cancelled => ?_
    split
    · exact cancelsOnly_cancelled
    · refine .bind fun run => ?_
      cases run.outcome with
      | passed => exact ih
      | failed _ => exact cancelsOnly_ok _
      | notExecuted _ => exact cancelsOnly_ok _
      | timedOut => exact cancelsOnly_ok _
      | cancelled => exact cancelsOnly_cancelled

theorem cancelsOnly_judge (tests : List TestUnit) :
    CancelsOnly (judge E.host config options tests) := by
  rw [judge]
  refine .bind fun deployed => ?_
  split
  · exact cancelsOnly_runCoveringTests E config options tests
  · exact cancelsOnly_cancelled
  · exact cancelsOnly_ok _

/-! ### The guard of an artifact -/

namespace Files

/-- The files while a mutant is in the place of an artifact. -/
def withMutant (files : Files) (artifact : Path) (saved mutant : Bytes) : Files :=
  Function.update (Function.update files (backupPath artifact) (some saved)) artifact (some mutant)

/-- The steps that put a mutant in the place of an artifact. -/
def installSteps (files : Files) (artifact : Path) (saved mutant : Bytes) : List Snapshot :=
  [⟨.wrote (backupPath artifact), Function.update files (backupPath artifact) (some saved)⟩,
    ⟨.replaced artifact, files.withMutant artifact saved mutant⟩]

/-- The steps that take it away again. -/
def restoreSteps (files : Files) (artifact : Path) (saved : Bytes) : List Snapshot :=
  [⟨.replaced artifact, files.withMutant artifact saved saved⟩,
    ⟨.removed (backupPath artifact), files⟩]

theorem withMutant_of_ne {files : Files} {artifact path : Path} {saved mutant : Bytes}
    (h : path ≠ artifact) (h' : path ≠ backupPath artifact) :
    files.withMutant artifact saved mutant path = files path := by
  rw [withMutant, Function.update_of_ne h, Function.update_of_ne h']

/-- Another mutant takes the place of a mutant. -/
theorem update_withMutant (files : Files) (artifact : Path) (saved mutant mutant' : Bytes) :
    Function.update (files.withMutant artifact saved mutant) artifact (some mutant') =
      files.withMutant artifact saved mutant' :=
  Function.update_idem ..

/-- Without its backup an artifact with the saved bytes is as it was. -/
theorem update_withMutant_saved {files : Files} {artifact : Path} {saved : Bytes}
    (hsaved : files artifact = some saved) (hbackup : files (backupPath artifact) = none) :
    Function.update (files.withMutant artifact saved saved) (backupPath artifact) none = files := by
  have hne : artifact ≠ backupPath artifact := fun h => by
    rw [← h, hsaved] at hbackup
    cases hbackup
  rw [withMutant, Function.update_comm hne.symm, Function.update_idem, ← hbackup, ← hsaved,
    Function.update_comm hne, Function.update_eq_self, Function.update_eq_self]

end Files

/-- A mutant is put in place, or nothing is touched. -/
theorem install_cases (path : Path) (mutant : Bytes) (w : World ε) :
    (∃ failure outside,
      ArtifactGuard.install E.host path mutant w = (.error failure, { w with outside })) ∨
    ∃ saved w', w.files path = some saved ∧
      ArtifactGuard.install E.host path mutant w = (.ok ⟨path, backupPath path, saved⟩, w') ∧
      w'.files = w.files.withMutant path saved mutant ∧
      w'.log = w.log ++ w.files.installSteps path saved mutant := by
  rw [ArtifactGuard.install, get_bind]
  cases hread : E.host.read w path with
  | none => exact .inl ⟨.io path, w.outside, rfl⟩
  | some saved =>
    dsimp only
    obtain ⟨outside, hwrite⟩ | ⟨outside, hwrite⟩ := E.write_cases (backupPath path) saved w
    · rw [bind_of_eq hwrite]
      exact .inl ⟨_, outside, rfl⟩
    · rw [bind_of_eq hwrite]
      exact .inr ⟨saved, _, E.files_of_read hread, rfl, rfl, List.append_assoc w.log [_] [_]⟩

/-- A guard takes a mutant away again, and nothing of it stays. -/
theorem restore_of_withMutant {files : Files} {path : Path} {saved mutant : Bytes}
    (hsaved : files path = some saved) (hbackup : files (backupPath path) = none) {w : World ε}
    (hfiles : w.files = files.withMutant path saved mutant) :
    ∃ w', ArtifactGuard.restore E.host ⟨path, backupPath path, saved⟩ w = (.ok (), w') ∧
      w'.files = files ∧ w'.log = w.log ++ files.restoreSteps path saved := by
  refine ⟨(w.put path (some saved) (.replaced path)).put (backupPath path) none
    (.removed (backupPath path)), rfl, ?_, ?_⟩
  · rw [World.files_put, World.files_put, hfiles, Files.update_withMutant,
      Files.update_withMutant_saved hsaved hbackup]
  · rw [World.log_put, World.log_put, World.files_put, hfiles, Files.update_withMutant,
      Files.update_withMutant_saved hsaved hbackup, List.append_assoc]
    rfl

/-! ### Visits -/

/-- The steps of the evaluation of a mutation of a target, when the files are as given before and
after it. Either nothing is touched, or the mutant is put in place and taken away again, and in
between no file is touched. -/
inductive Visit (policies : List Policy) (files : Files) (target : MutationTarget)
    (mutation : Mutation) : Bool → List Snapshot → Prop where
  | skipped : Visit policies files target mutation false [⟨.asked, files⟩]
  | tried {mutant : Mutant} {saved : Bytes} {tests : List Snapshot}
      (mutated : materialize target.classFile policies mutation.id = .ok mutant)
      (idle : ∀ s ∈ tests,
        s.files = files.withMutant target.artifact saved mutant.artifact ∧ s.event.isIdle = true) :
      Visit policies files target mutation true
        ([⟨.asked, files⟩] ++ (files.installSteps target.artifact saved mutant.artifact ++ tests ++
          files.restoreSteps target.artifact saved))

variable {config options} {tests : List TestUnit} {artifact : Path} {mutation : Mutation}
  {mutant : Mutant} {start : Nat}

/-- A mutant that is in place is judged, taken away again, and has a result unless the run is asked
to stop. -/
theorem evaluateMutant_of_installed {w w₁ : World ε} {saved : Bytes}
    (hsaved : w.files artifact = some saved) (hbackup : w.files (backupPath artifact) = none)
    (hinstall : ArtifactGuard.install E.host artifact mutant.artifact w =
      (.ok ⟨artifact, backupPath artifact, saved⟩, w₁))
    (hfiles₁ : w₁.files = w.files.withMutant artifact saved mutant.artifact) :
    ∃ result w' steps,
      evaluateMutant E.host config options tests artifact mutation mutant start w =
        (⟨result, true⟩, w') ∧
      (∀ failure, result = .error failure → failure = .cancelled) ∧
      w'.files = w.files ∧
      w'.log = w₁.log ++ (steps ++ w.files.restoreSteps artifact saved) ∧
      ∀ s ∈ steps, s.files = w.files.withMutant artifact saved mutant.artifact ∧
        s.event.isIdle = true := by
  rcases hjudge : judge E.host config options tests w₁ with ⟨verdict, w₂⟩
  have hidles : w₁.Idles w₂ := by
    simpa [hjudge] using isIdle_judge E config options tests w₁
  have hfails : ∀ failure, verdict = .error failure → failure = .cancelled := by
    simpa [hjudge] using cancelsOnly_judge E config options tests w₁
  obtain ⟨hfiles₂, steps, hlog₂, hsteps⟩ := hidles
  rw [hfiles₁] at hfiles₂ hsteps
  obtain ⟨w₃, hrestore, hfiles₃, hlog₃⟩ := restore_of_withMutant E hsaved hbackup hfiles₂
  have hlog : w₃.log = w₁.log ++ (steps ++ w.files.restoreSteps artifact saved) := by
    rw [hlog₃, hlog₂, List.append_assoc]
  rw [evaluateMutant, bind_of_eq hinstall]
  dsimp only
  rw [bind_of_eq hjudge, bind_of_eq hrestore]
  cases verdict with
  | error failure =>
    refine ⟨.error failure, w₃, steps, rfl, fun failure' h => ?_, hfiles₃, hlog, hsteps⟩
    exact Except.error.inj h ▸ hfails failure rfl
  | ok verdict => exact ⟨.ok _, w₃, steps, rfl, nofun, hfiles₃, hlog, hsteps⟩

/-- The failures by which an evaluation ends the run while files do what they are told. -/
def Failure.EndsRun (failure : Failure) : Prop :=
  failure = .cancelled ∨ ∃ what, failure = .invariantViolated what

theorem Failure.endsRun_of_ok {α : Type} (a : α) (failure : Failure)
    (h : Except.ok a = Except.error failure) : failure.EndsRun := by
  cases h

/-- **The evaluation of a mutation** is a visit that leaves the files as they were. -/
theorem evaluate_visit (config : DeviceConfig) (policies : List Policy) (coverage : CoverageMap)
    (options : RunOptions) (target : MutationTarget) (mutation : Mutation) (w : World ε)
    (hbackup : w.files (backupPath target.artifact) = none) :
    ∃ e w' steps,
      evaluate E.host config policies coverage options target mutation w = (e, w') ∧
      w'.files = w.files ∧ w'.log = w.log ++ steps ∧
      Visit policies w.files target mutation e.installed steps ∧
      ∀ failure, e.result = .error failure → failure.EndsRun := by
  rcases hasked : E.cancelled w.outside with ⟨answer, outside⟩
  have hcancelled : E.host.cancelled w = (answer, { w with outside }.noted .asked) := by
    simp only [Outside.host, hasked]
  generalize hw₁ : World.noted { w with outside } .asked = w₁ at hcancelled
  have hfiles₁ : w₁.files = w.files := by rw [← hw₁]; rfl
  have hlog₁ : w₁.log = w.log ++ [⟨.asked, w.files⟩] := by rw [← hw₁]; rfl
  rw [evaluate, bind_of_eq hcancelled]
  cases answer with
  | true =>
    exact ⟨_, w₁, _, rfl, hfiles₁, hlog₁, .skipped, fun _ h => .inl (Except.error.inj h).symm⟩
  | false =>
    simp only [Bool.false_eq_true, if_false, get_bind]
    cases coverage.coveringTests target.classFile.name mutation.line with
    | nil => exact ⟨_, w₁, _, rfl, hfiles₁, hlog₁, .skipped, Failure.endsRun_of_ok _⟩
    | cons test tests =>
      dsimp only
      cases hmutated : materialize target.classFile policies mutation.id with
      | error failure =>
        cases failure with
        | invariantViolated what =>
          exact ⟨_, w₁, _, rfl, hfiles₁, hlog₁, .skipped,
            fun _ h => .inr ⟨what, (Except.error.inj h).symm⟩⟩
        | _ => exact ⟨_, w₁, _, rfl, hfiles₁, hlog₁, .skipped, Failure.endsRun_of_ok _⟩
      | ok mutant =>
        dsimp only
        obtain ⟨failure, outside', hinstall⟩ | ⟨saved, w₂, hsaved, hinstall, hfiles₂, hlog₂⟩ :=
          install_cases E target.artifact mutant.artifact w₁
        · rw [evaluateMutant, bind_of_eq hinstall]
          exact ⟨_, _, _, rfl, hfiles₁, hlog₁, .skipped, Failure.endsRun_of_ok _⟩
        · obtain ⟨result, w₃, steps, hresult, honly, hfiles₃, hlog₃, hsteps⟩ :=
            evaluateMutant_of_installed E hsaved (hfiles₁ ▸ hbackup) hinstall hfiles₂
          rw [hresult]
          rw [hfiles₁] at hfiles₃ hlog₂ hlog₃ hsteps
          refine ⟨_, w₃, _, rfl, hfiles₃, ?_, .tried hmutated hsteps,
            fun failure h => .inl (honly failure h)⟩
          rw [hlog₃, hlog₂, hlog₁]
          simp only [List.append_assoc]

end MutationTesting
