import MutationTesting.Proofs.Run.Evaluation
/-!
# What a mutation run leaves behind

A run visits the mutations of its targets one after the other and then, if a mutant was in place,
deploys the application again. Each visit leaves the files as they were, so the run does; a mutant
is in the place of its own artifact while it is visited, and of no other.

## Main definitions

* `visits` — the mutations that a run comes to, with the steps taken

## Main results

* `Visit.artifact_of_started`, `Visit.files_of_ne`, `Visit.installed_iff`
* `evaluateAll_visits`
* `run_restores_and_redeploys`
-/

namespace MutationTesting

/-! ### What a visit does to files -/

section Visit

variable {policies : List Policy} {files : Files} {target : MutationTarget} {mutation : Mutation}
  {installed : Bool} {steps : List Snapshot}

/-- A process that is started during a visit finds the mutant in the place of the artifact. -/
theorem Visit.artifact_of_started (h : Visit policies files target mutation installed steps)
    {s : Snapshot} (hs : s ∈ steps) {command : Command} {heeds : Bool}
    (hstarted : s.event = .started command heeds) :
    ∃ mutant, materialize target.classFile policies mutation.id = .ok mutant ∧
      s.files target.artifact = some mutant.artifact := by
  cases h with
  | skipped =>
    obtain rfl := List.mem_singleton.mp hs
    cases hstarted
  | @tried mutant saved tests mutated idle =>
    simp only [Files.installSteps, Files.restoreSteps, List.mem_append, List.mem_cons,
      List.not_mem_nil, or_false] at hs
    obtain rfl | ((rfl | rfl) | hs) | (rfl | rfl) := hs
    case inr.inl.inr =>
      refine ⟨mutant, mutated, ?_⟩
      rw [(idle s hs).1, Files.withMutant, Function.update_self]
    -- the other steps start nothing
    all_goals cases hstarted

/-- A visit leaves all files alone but the artifact and its backup. -/
theorem Visit.files_of_ne (h : Visit policies files target mutation installed steps)
    {s : Snapshot} (hs : s ∈ steps) {path : Path} (hpath : path ≠ target.artifact)
    (hbackup : path ≠ backupPath target.artifact) : s.files path = files path := by
  cases h with
  | skipped =>
    obtain rfl := List.mem_singleton.mp hs
    rfl
  | tried mutated idle =>
    simp only [Files.installSteps, Files.restoreSteps, List.mem_append, List.mem_cons,
      List.not_mem_nil, or_false] at hs
    obtain rfl | ((rfl | rfl) | hs) | (rfl | rfl) := hs
    · rfl
    · exact Function.update_of_ne hbackup ..
    · exact Files.withMutant_of_ne hpath hbackup
    · rw [(idle s hs).1, Files.withMutant_of_ne hpath hbackup]
    · exact Files.withMutant_of_ne hpath hbackup
    · rfl

/-- A mutant was in place iff a file was put in the place of another. -/
theorem Visit.installed_iff (h : Visit policies files target mutation installed steps) :
    installed = true ↔ ∃ s ∈ steps, ∃ path, s.event = .replaced path := by
  cases h with
  | skipped => simp
  | tried mutated idle => simp [Files.installSteps]

end Visit

/-! ### All visits of a run -/

theorem MutationTarget.target_mem {targets : List MutationTarget}
    {pair : MutationTarget × Mutation} (h : pair ∈ allMutations targets) : pair.1 ∈ targets := by
  obtain ⟨t, ht, hpair⟩ := List.mem_flatMap.mp h
  obtain ⟨mutation, -, rfl⟩ := List.mem_map.mp hpair
  exact ht

variable {ε : Type} (E : Outside ε) (config : DeviceConfig) (policies : List Policy)
  (coverage : CoverageMap) (options : RunOptions)

/-- The mutations that a run comes to, each with the steps that its evaluation takes. -/
def visits : List (MutationTarget × Mutation) → World ε →
    List ((MutationTarget × Mutation) × List Snapshot)
  | [], _ => []
  | (target, mutation) :: rest, w =>
    let (e, w') := evaluate E.host config policies coverage options target mutation w
    ((target, mutation), w'.log.drop w.log.length) ::
      match e.result with
      | .error _ => []
      | .ok _ => visits rest w'

/-- **The evaluation of mutations** is one visit after the other. -/
theorem evaluateAll_visits (pairs : List (MutationTarget × Mutation)) (w : World ε)
    (hbackups : ∀ pair ∈ pairs, w.files (backupPath pair.1.artifact) = none) :
    ∃ result installed w',
      evaluateAll E.host config policies coverage options pairs w = ((result, installed), w') ∧
      w'.files = w.files ∧
      w'.log = w.log ++ (visits E config policies coverage options pairs w).flatMap (·.2) ∧
      (∀ visit ∈ visits E config policies coverage options pairs w, visit.1 ∈ pairs ∧
        ∃ installed', Visit policies w.files visit.1.1 visit.1.2 installed' visit.2) ∧
      (installed = true ↔ ∃ s ∈ (visits E config policies coverage options pairs w).flatMap (·.2),
        ∃ path, s.event = .replaced path) ∧
      ∀ failure, result = .error failure → failure.EndsRun := by
  induction pairs generalizing w with
  | nil => exact ⟨.ok [], false, w, rfl, rfl, by simp [visits], nofun, by simp [visits], nofun⟩
  | cons pair rest ih =>
    obtain ⟨target, mutation⟩ := pair
    obtain ⟨e, w₁, steps, hevaluate, hfiles, hlog, hvisit, hends⟩ :=
      evaluate_visit E config policies coverage options target mutation w
        (hbackups (target, mutation) (List.mem_cons_self ..))
    have hsteps : w₁.log.drop w.log.length = steps := by rw [hlog, List.drop_left]
    rw [evaluateAll, bind_of_eq hevaluate, visits, hevaluate]
    dsimp only
    rw [hsteps]
    cases hresult : e.result with
    | error failure =>
      refine ⟨_, _, w₁, rfl, hfiles, by simp [hlog], ?_, ?_, ?_⟩
      · intro visit hmem
        obtain rfl := List.mem_singleton.mp hmem
        exact ⟨List.mem_cons_self .., e.installed, hvisit⟩
      · simpa using hvisit.installed_iff
      · intro failure' h
        exact hends failure' (hresult.trans (congrArg _ (Except.error.inj h)))
    | ok result =>
      obtain ⟨results, installed, w₂, hrest, hfiles₂, hlog₂, hvisits, hinstalled, hends₂⟩ :=
        ih w₁ fun pair hpair => hfiles ▸ hbackups pair (List.mem_cons_of_mem _ hpair)
      dsimp only
      rw [bind_of_eq hrest]
      refine ⟨_, _, w₂, rfl, hfiles₂.trans hfiles, by simp [hlog₂, hlog], ?_, ?_, ?_⟩
      · intro visit hmem
        obtain rfl | hmem := List.mem_cons.mp hmem
        · exact ⟨List.mem_cons_self .., e.installed, hvisit⟩
        · rw [hfiles] at hvisits
          obtain ⟨hpair, hvisit'⟩ := hvisits visit hmem
          exact ⟨List.mem_cons_of_mem _ hpair, hvisit'⟩
      · rw [Bool.or_eq_true, hinstalled, hvisit.installed_iff]
        simp only [List.flatMap_cons, List.mem_append, or_and_right, exists_or]
      · intro failure h
        cases results with
        | error failure' => exact hends₂ failure (congrArg _ (Except.error.inj h))
        | ok results => cases h

/-- A run ends with a deployment if a mutant was in place and there is a command for it, and else
with the last of its visits. -/
theorem runMutations_of_evaluateAll {targets : List MutationTarget} {w₀ w₁ : World ε}
    {result : Except Failure (List MutantResult)} {installed : Bool}
    (h : evaluateAll E.host config policies coverage options
      (MutationTarget.allMutations targets) w₀ = ((result, installed), w₁)) :
    ∃ w redeployment,
      runMutations E.host config policies targets coverage options w₀ = (result, w) ∧
      w.files = w₁.files ∧ w.log = w₁.log ++ redeployment ∧
      (∀ s ∈ redeployment, s.files = w₁.files ∧ s.event.isIdle = true) ∧
      (∀ program args, options.packageCommand.bind parseCommand? = some (program, args) →
        installed = true → redeployment = [⟨.started ⟨program, args⟩ false, w₁.files⟩]) ∧
      (options.packageCommand.bind parseCommand? = none ∨ installed = false →
        redeployment = []) := by
  rw [runMutations, bind_of_eq h]
  cases installed with
  | false => exact ⟨w₁, [], rfl, rfl, by simp, by simp, nofun, fun _ => rfl⟩
  | true =>
    dsimp only
    rw [if_pos rfl]
    cases hcommand : options.packageCommand.bind parseCommand? with
    | none =>
      rw [bind_of_eq (deploy_of_none E options hcommand w₁)]
      exact ⟨w₁, [], rfl, rfl, by simp, by simp, nofun, fun _ => rfl⟩
    | some command =>
      obtain ⟨deployed, outside, hdeployed⟩ := deploy_of_some E options hcommand w₁
      rw [bind_of_eq hdeployed]
      refine ⟨_, _, rfl, rfl, rfl, ?_, ?_, nofun⟩
      · simp [Event.isIdle]
      · rintro program args hsome -
        rw [Option.some.inj hsome]

/-- Artifacts that are there from the start differ from their originals only while they are
visited. -/
theorem Visit.artifact_eq_of_differs {policies : List Policy} {files : Files}
    {target : MutationTarget} {mutation : Mutation} {installed : Bool} {steps : List Snapshot}
    (h : Visit policies files target mutation installed steps)
    (hbackup : files (backupPath target.artifact) = none) {s : Snapshot} (hs : s ∈ steps)
    {path : Path} {bytes : Bytes} (hpath : files path = some bytes)
    (hdiffers : s.files path ≠ files path) : path = target.artifact := by
  by_contra hne
  refine hdiffers (h.files_of_ne hs hne ?_)
  rintro rfl
  rw [hbackup] at hpath
  cases hpath

/-- **A run restores and deploys the originals.** Whatever processes answer, whenever the run is
asked to stop and whichever artifacts cannot be saved: a run that starts without backups ends with
all files as they were, and with results, because it was asked to stop or because an invariant is
violated. Meanwhile at most one artifact differs from its original, and each process that is started
while a mutation is visited finds just its mutant in the place of the artifact. If a mutant was in
place, a command that deploys is the last thing that is started, after the last file was touched,
and is carried out also when the run is asked to stop. -/
theorem run_restores_and_redeploys (targets : List MutationTarget) (outside : ε) (files : Files)
    (hfiles : ∀ t ∈ targets, (∃ bytes, files t.artifact = some bytes) ∧
      files (backupPath t.artifact) = none) :
    ∃ result w redeployment,
      runMutations E.host config policies targets coverage options ⟨outside, files, []⟩ =
        (result, w) ∧
      ((∃ results, result = .ok results) ∨ result = .error .cancelled ∨
        ∃ what, result = .error (.invariantViolated what)) ∧
      w.files = files ∧
      w.log = (visits E config policies coverage options (MutationTarget.allMutations targets)
        ⟨outside, files, []⟩).flatMap (·.2) ++ redeployment ∧
      (∀ s ∈ w.log, ∀ t ∈ targets, ∀ t' ∈ targets, s.files t.artifact ≠ files t.artifact →
        s.files t'.artifact ≠ files t'.artifact → t.artifact = t'.artifact) ∧
      (∀ visit ∈ visits E config policies coverage options (MutationTarget.allMutations targets)
          ⟨outside, files, []⟩,
        ∀ s ∈ visit.2, ∀ command heeds, s.event = .started command heeds →
          ∃ mutant, materialize visit.1.1.classFile policies visit.1.2.id = .ok mutant ∧
            s.files visit.1.1.artifact = some mutant.artifact) ∧
      (∀ program args, options.packageCommand.bind parseCommand? = some (program, args) →
        (∃ s ∈ w.log, ∃ path, s.event = .replaced path) →
          redeployment = [⟨.started ⟨program, args⟩ false, files⟩]) ∧
      (options.packageCommand.bind parseCommand? = none ∨
        (∀ s ∈ w.log, ∀ path, s.event ≠ .replaced path) → redeployment = []) := by
  obtain ⟨result, installed, w₁, hall, hfiles₁, hlog₁, hvisits, hinstalled, hends⟩ :=
    evaluateAll_visits E config policies coverage options (MutationTarget.allMutations targets)
      ⟨outside, files, []⟩ fun pair hpair => (hfiles pair.1 (MutationTarget.target_mem hpair)).2
  generalize visits E config policies coverage options (MutationTarget.allMutations targets)
    ⟨outside, files, []⟩ = all at hlog₁ hvisits hinstalled ⊢
  obtain ⟨w, redeployment, hrun, hfiles₂, hlog₂, hidle, hredeployed, hnothing⟩ :=
    runMutations_of_evaluateAll E config policies coverage options hall
  rw [List.nil_append] at hlog₁
  rw [hlog₁] at hlog₂
  rw [hfiles₁] at hfiles₂ hidle hredeployed
  have hreplaced : installed = true ↔ ∃ s ∈ w.log, ∃ path, s.event = .replaced path := by
    rw [hinstalled, hlog₂]
    constructor
    · rintro ⟨s, hs, hpath⟩
      exact ⟨s, List.mem_append_left _ hs, hpath⟩
    · rintro ⟨s, hs, path, hpath⟩
      obtain hs | hs := List.mem_append.mp hs
      · exact ⟨s, hs, path, hpath⟩
      · have hevent := (hidle s hs).2
        rw [hpath] at hevent
        cases hevent
  refine ⟨result, w, redeployment, hrun, ?_, hfiles₂, hlog₂, ?_, ?_,
    fun program args hcommand h => hredeployed program args hcommand (hreplaced.mpr h), ?_⟩
  · cases result with
    | ok results => exact .inl ⟨results, rfl⟩
    | error failure =>
      obtain rfl | ⟨what, rfl⟩ := hends failure rfl
      · exact .inr (.inl rfl)
      · exact .inr (.inr ⟨what, rfl⟩)
  · intro s hs t ht t' ht' hdiffers hdiffers'
    obtain ⟨⟨bytes, hbytes⟩, -⟩ := hfiles t ht
    obtain ⟨⟨bytes', hbytes'⟩, -⟩ := hfiles t' ht'
    rw [hlog₂] at hs
    obtain hs | hs := List.mem_append.mp hs
    · obtain ⟨visit, hvisit, hs⟩ := List.mem_flatMap.mp hs
      obtain ⟨hpair, installed', hvisit⟩ := hvisits visit hvisit
      have hbackup := (hfiles _ (MutationTarget.target_mem hpair)).2
      rw [hvisit.artifact_eq_of_differs hbackup hs hbytes hdiffers,
        hvisit.artifact_eq_of_differs hbackup hs hbytes' hdiffers']
    · exact absurd (congrFun (hidle s hs).1 _) hdiffers
  · intro visit hvisit s hs command heeds hstarted
    obtain ⟨-, installed', hvisit⟩ := hvisits visit hvisit
    exact hvisit.artifact_of_started hs hstarted
  · rintro (hcommand | hnone)
    · exact hnothing (.inl hcommand)
    · refine hnothing (.inr (Bool.eq_false_iff.mpr fun h => ?_))
      obtain ⟨s, hs, path, hpath⟩ := hreplaced.mp h
      exact hnone s hs path hpath

/-- A run over one artifact whose only test cannot be read: the mutant is put in place and taken
away, and the original is deployed. -/
theorem run_with_unreadable_test_restores :
    let c : ClassFile := { ClassFile.empty "a/B" with
      methods := [.plain "m" "()V" publicFlag [.line 7 0, .loadText "https://a", .simple .pop]] }
    let artifact : Path := ['B']
    let files : Files := fun path => if path = artifact then some [1, 2] else none
    let targets : List MutationTarget := [.ofClass Policy.defaults artifact c]
    let coverage : CoverageMap := [(⟨"a.BTest", "m"⟩, none)]
    let options : RunOptions := ⟨some "./deploy", 1000⟩
    let E : Outside Unit := ⟨fun _ => 0, fun _ _ => true, fun _ => pure true, pure false,
      fun _ _ _ _ => pure (some ⟨.exited 0, false, [], [], 0⟩)⟩
    let config : DeviceConfig := ⟨[], "a.test", "a", "Runner", [], "bridge"⟩
    (∀ t ∈ targets, (∃ bytes, files t.artifact = some bytes) ∧
        files (backupPath t.artifact) = none) ∧
      ∃ result w, runMutations E.host config Policy.defaults targets coverage options
          ⟨(), files, []⟩ = (result, w) ∧
        w.files = files ∧
        (∃ steps, w.log = steps ++ [⟨.started ⟨"./deploy", []⟩ false, files⟩]) := by
  intro c artifact files targets coverage options E config
  have hfiles : ∀ t ∈ targets, (∃ bytes, files t.artifact = some bytes) ∧
      files (backupPath t.artifact) = none := by
    intro t ht
    obtain rfl := List.mem_singleton.mp ht
    exact ⟨⟨[1, 2], rfl⟩, by decide +kernel⟩
  obtain ⟨result, w, redeployment, hrun, -, hrestored, hlog, -, -, hredeployed, -⟩ :=
    run_restores_and_redeploys E config Policy.defaults coverage options targets () files hfiles
  have hreplaced : Event.replaced artifact ∈ (runMutations E.host config Policy.defaults targets
      coverage options ⟨(), files, []⟩).2.log.map (·.event) := by
    subst c artifact files targets coverage options E config
    decide +kernel
  rw [hrun] at hreplaced
  obtain ⟨s, hs, hevent⟩ := List.mem_map.mp hreplaced
  rw [hredeployed "./deploy" [] rfl ⟨s, hs, artifact, hevent⟩] at hlog
  exact ⟨hfiles, result, w, hrun, hrestored, _, hlog⟩

end MutationTesting
