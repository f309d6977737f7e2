import MutationTesting.CommandLine.Execution
import MutationTesting.Proofs.Host.Script
import MutationTesting.Proofs.Host.Watched
import MutationTesting.Proofs.Run.Backup
import MutationTesting.Proofs.Run.Quiet
/-!
# Sessions

What a mutation run does to a directory while the directory is claimed, step by step. A run that is
refused does nothing. One that is granted its claim finds the originals in the artifacts or beside
them, and keeps them there with each single step, until it gives its claim up; the claim file is
left alone in between.

## Main definitions

* `claimLocation` — the file by which a directory is claimed
* `Disk.Guarded` — a claimed directory with originals that can be had back
* `IsSession` — the steps of a run

## Main results

* `contract_restoreFromBackup`, `contract_install`, `contract_restore`
* `contract_runClaimed` — a run keeps the originals
* `isSession_executeRun` — a run does nothing without its claim
-/

namespace MutationTesting

/-! ### The claim file -/

/-- The location of the file by which a directory is claimed. -/
def claimLocation (dir : Path) : Location := dir.steps ++ [.name claimFile.toList]

theorem steps_claimPath (dir : Path) :
    (Path.join dir claimFile.toList).steps = claimLocation dir :=
  Path.steps_join_name dir (by decide)

/-- A location below a directory that is not named like the claim file. -/
theorem Location.NamedBelow.ne_claimLocation {kind : Octets → Bool} {dir dir' : Path}
    {place : Location} (h : NamedBelow kind dir place) (hkind : kind claimFile.toList = false) :
    place ≠ claimLocation dir' := by
  rintro rfl
  rw [h.kind_of_lastName? (Path.lastName?_concat _ _)] at hkind
  cases hkind

theorem Location.IsArtifact.ne_claimLocation {dir dir' : Path} {a : Location}
    (ha : a.IsArtifact dir) : a ≠ claimLocation dir' :=
  NamedBelow.ne_claimLocation ha (by decide)

theorem Location.IsBackup.ne_claimLocation {dir dir' : Path} {b : Location}
    (hb : b.IsBackup dir) : b ≠ claimLocation dir' :=
  NamedBelow.ne_claimLocation hb (by decide)

/-! ### Claimed directories -/

/-- A directory whose originals can be had back, and which is claimed for a session. -/
structure Disk.Guarded (originals : Location → Option Bytes) (dir : Path) (session : String)
    (d : Disk) : Prop where
  keeps : d.Keeps originals dir
  claimed : d.lookup (claimLocation dir) = some (Utf8.encode session)

/-- Every artifact holds its original, but one possibly. -/
def Disk.WholeBut (originals : Location → Option Bytes) (dir : Path) (a : Location)
    (d : Disk) : Prop :=
  ∀ a' o, a'.IsArtifact dir → a' ≠ a → originals a' = some o → d.lookup a' = some o

/-- Every artifact holds its original. -/
def Disk.Whole (originals : Location → Option Bytes) (dir : Path) (d : Disk) : Prop :=
  ∀ a o, a.IsArtifact dir → originals a = some o → d.lookup a = some o

/-- A guard over an artifact that has saved its original. -/
structure ArtifactGuard.Saves (originals : Location → Option Bytes) (dir : Path)
    (g : ArtifactGuard) : Prop where
  artifact : Location.IsArtifact dir g.path.steps
  saved : originals g.path.steps = some g.saved
  backup : g.backup.steps = Location.backup g.path.steps

namespace Disk

variable {originals : Location → Option Bytes} {dir : Path} {session : String} {d : Disk}
  {a place : Location} {content o : Bytes}

theorem Guarded.insert (h : d.Guarded originals dir session) (hplace : place ≠ claimLocation dir)
    (hkeeps : Keeps originals dir (AList.insert place content d)) :
    Guarded originals dir session (AList.insert place content d) :=
  ⟨hkeeps, (AList.lookup_insert_ne hplace.symm).trans h.claimed⟩

theorem Guarded.erase (h : d.Guarded originals dir session) (hplace : place ≠ claimLocation dir)
    (hkeeps : Keeps originals dir (AList.erase place d)) :
    Guarded originals dir session (AList.erase place d) :=
  ⟨hkeeps, (AList.lookup_erase_ne hplace.symm).trans h.claimed⟩

theorem Whole.wholeBut (h : d.Whole originals dir) (a : Location) : d.WholeBut originals dir a :=
  fun a' o ha' _ ho => h a' o ha' ho

/-- What is written beside the artifacts leaves them whole. -/
theorem Whole.insert_backup (h : d.Whole originals dir) (hplace : place.IsBackup dir) :
    Whole originals dir (AList.insert place content d) := by
  intro a o ha ho
  rw [AList.lookup_insert_ne fun heq : a = place => ha.not_isBackup (heq ▸ hplace)]
  exact h a o ha ho

theorem Whole.erase_backup (h : d.Whole originals dir) (hplace : place.IsBackup dir) :
    Whole originals dir (AList.erase place d) := by
  intro a o ha ho
  rw [AList.lookup_erase_ne fun heq : a = place => ha.not_isBackup (heq ▸ hplace)]
  exact h a o ha ho

/-- One artifact is changed. -/
theorem WholeBut.insert (h : d.WholeBut originals dir a) (content : Bytes) :
    WholeBut originals dir a (AList.insert a content d) := by
  intro a' o ha' hne ho
  rw [AList.lookup_insert_ne hne]
  exact h a' o ha' hne ho

/-- The artifact that possibly did not hold its original is given it. -/
theorem WholeBut.whole (h : d.WholeBut originals dir a) (ho : originals a = some o) :
    Whole originals dir (AList.insert a o d) := by
  intro a' o' ha' ho'
  by_cases heq : a' = a
  · subst heq
    rw [AList.lookup_insert, ← ho, ho']
  · rw [AList.lookup_insert_ne heq]
    exact h a' o' ha' heq ho'

/-- An original may be saved once more. -/
theorem Keeps.save_original (h : d.Keeps originals dir) (ha : a.IsArtifact dir)
    (ho : originals a = some o) : Keeps originals dir (AList.insert a.backup o d) := by
  have hsave := h.save ha (by rw [ho]; exact Option.some_ne_none o) o
  rwa [← ho, Function.update_eq_self] at hsave

end Disk

/-- What is read from an artifact that holds its original is what has to be saved. -/
theorem ArtifactGuard.saves_of_read {originals : Location → Option Bytes} {dir path : Path}
    {d : Disk} {saved : Bytes} (hkeeps : d.Keeps originals dir)
    (ha : Location.IsArtifact dir path.steps) (hwhole : d.Whole originals dir)
    (hread : d.read path = some saved) :
    ArtifactGuard.Saves originals dir ⟨path, backupPath path, saved⟩ := by
  have hmem : path.steps ∈ d := AList.lookup_isSome.mp (by rw [← Disk.read, hread]; rfl)
  obtain ⟨o, ho⟩ := Option.ne_none_iff_exists'.mp (hkeeps.artifact _ hmem ha)
  have hsaved : some o = some saved := (hwhole _ _ ha ho).symm.trans hread
  exact ⟨ha, ho.trans hsaved, steps_backupPath ha⟩

/-! ### Backups and guards -/

section

variable {oracle : Oracle} {originals : Location → Option Bytes} {dir : Path} {session : String}

/-- **A leftover is put back**, or its artifact can still be had back from it. -/
theorem contract_restoreFromBackup (artifact backup : Path) :
    Contract (Disk.Guarded originals dir session)
      (fun _ => Disk.IsPair originals dir (artifact, backup))
      (restoreFromBackup (Script.host oracle) artifact backup) fun _ _ => True := by
  rw [restoreFromBackup]
  refine Contract.bind (Q := fun copied d => copied = true →
    Disk.IsPair originals dir (artifact, backup) ∧
      d.lookup artifact.steps = originals artifact.steps) (Contract.copy ?_) fun copied => ?_
  · rintro d hd ⟨ha, horiginal, hbackup⟩
    obtain ⟨o, ho⟩ := Option.ne_none_iff_exists'.mp horiginal
    refine ⟨fun held hheld => ?_, nofun⟩
    rw [Disk.read, hbackup] at hheld
    obtain rfl := hd.keeps.lookup_backup ha ho hheld
    refine ⟨hd.insert ha.ne_claimLocation (hd.keeps.putBack ha ho), fun _ => ?_⟩
    exact ⟨⟨ha, horiginal, hbackup⟩, (AList.lookup_insert d).trans ho.symm⟩
  · cases copied with
    | false => exact .pure fun _ _ _ => trivial
    | true =>
      refine Contract.bind (Q := fun _ _ => True) (Contract.remove ?_) fun removed => ?_
      · intro d hd hcopied
        obtain ⟨⟨ha, horiginal, hbackup⟩, hlookup⟩ := hcopied rfl
        obtain ⟨o, ho⟩ := Option.ne_none_iff_exists'.mp horiginal
        have hkeeps := hd.keeps.tidy ha ho (hlookup.trans ho)
        refine ⟨⟨?_, trivial⟩, trivial⟩
        rw [hbackup]
        exact hd.erase ha.isBackup_backup.ne_claimLocation hkeeps
      · cases removed <;> exact .pure fun _ _ _ => trivial

theorem contract_putBackAll (pairs : List (Path × Path)) :
    Contract (Disk.Guarded originals dir session)
      (fun _ => ∀ pair ∈ pairs, Disk.IsPair originals dir pair)
      (CommandLine.putBackAll (Script.host oracle) pairs) fun _ _ => True := by
  induction pairs with
  | nil => exact .pure fun _ _ _ => trivial
  | cons pair pairs ih =>
    obtain ⟨artifact, backup⟩ := pair
    rw [CommandLine.putBackAll]
    refine Contract.bind (Q := fun _ _ => ∀ pair ∈ pairs, Disk.IsPair originals dir pair)
      ?_ fun complaint => ?_
    · refine (contract_restoreFromBackup artifact backup).keep.mono ?_ fun _ _ _ h => h.1
      intro d _ hpairs
      obtain ⟨hpair, hpairs⟩ := List.forall_mem_cons.mp hpairs
      exact ⟨hpairs, hpair⟩
    · refine ih.bind fun complaints => ?_
      cases complaint <;> exact .pure fun _ _ _ => trivial

/-- Either something came out and one property holds, or another one does. -/
def Settled {α : Type} (Q : α → Disk → Prop) (R : Disk → Prop) : Except Failure α → Disk → Prop
  | .ok a, d => Q a d
  | .error _, d => R d

variable {g : ArtifactGuard}

/-- A guard puts its artifact back, or nothing changes. -/
theorem contract_putBack {P : Disk → Prop}
    (hP : ∀ d, P d → g.Saves originals dir ∧ d.WholeBut originals dir g.path.steps) :
    Contract (Disk.Guarded originals dir session) P (g.putBack (Script.host oracle))
      (Settled (fun _ d => d.Whole originals dir) P) := by
  rw [ArtifactGuard.putBack]
  refine Contract.bind (Q := fun blamed d => (blamed = none →
      g.Saves originals dir ∧ d.Whole originals dir) ∧ (blamed ≠ none → P d))
    (Contract.replace ?_) fun blamed => ?_
  · intro d hd hPd
    obtain ⟨hsaves, hwhole⟩ := hP d hPd
    have hguarded := hd.insert hsaves.artifact.ne_claimLocation
      (hd.keeps.putBack hsaves.artifact hsaves.saved)
    exact ⟨⟨hguarded, fun _ => ⟨hsaves, hwhole.whole hsaves.saved⟩, fun h => absurd rfl h⟩,
      fun _ => ⟨nofun, fun _ => hPd⟩⟩
  · cases blamed with
    | some path => exact .pure fun d _ h => h.2 nofun
    | none =>
      refine Contract.bind (Q := fun _ d => d.Whole originals dir) (Contract.remove ?_)
        fun _ => .pure fun _ _ h => h
      intro d hd h
      obtain ⟨hsaves, hwhole⟩ := h.1 rfl
      have hkeeps := hd.keeps.tidy hsaves.artifact hsaves.saved
        (hwhole _ _ hsaves.artifact hsaves.saved)
      have hbackup := hsaves.artifact.isBackup_backup
      rw [hsaves.backup]
      exact ⟨⟨hd.erase hbackup.ne_claimLocation hkeeps, hwhole.erase_backup hbackup⟩, hwhole⟩

theorem contract_drop : Contract (Disk.Guarded originals dir session)
    (fun d => g.Saves originals dir ∧ d.Whole originals dir) (g.drop (Script.host oracle))
    fun _ d => d.Whole originals dir := by
  rw [ArtifactGuard.drop]
  refine (contract_putBack fun d h => ⟨h.1, h.2.wholeBut _⟩).bind fun result => ?_
  cases result with
  | ok _ => exact .pure fun _ _ h => h
  | error e => exact .pure fun _ _ h => h.2

/-- **A mutant is taken away**, or the run is over. -/
theorem contract_restore : Contract (Disk.Guarded originals dir session)
    (fun d => g.Saves originals dir ∧ d.WholeBut originals dir g.path.steps)
    (g.restore (Script.host oracle))
    (Settled (fun _ d => d.Whole originals dir) fun _ => True) := by
  rw [ArtifactGuard.restore]
  refine (contract_putBack fun d h => h).bind fun result => ?_
  cases result with
  | ok _ => exact .pure fun _ _ h => h
  | error e =>
    -- nothing is promised but what every step keeps: the mutant may be in place with its backup
    rw [ArtifactGuard.drop]
    refine Contract.bind (Q := fun _ _ => True) ?_ fun _ => .pure fun _ _ _ => trivial
    exact (contract_putBack fun d h => h).bind fun _ => .pure fun _ _ _ => trivial

/-- **A mutant is put in place** of an artifact whose original was saved, or nothing changes. -/
theorem contract_install (path : Path) (mutant : Bytes) :
    Contract (Disk.Guarded originals dir session)
      (fun d => Location.IsArtifact dir path.steps ∧ d.Whole originals dir)
      (ArtifactGuard.install (Script.host oracle) path mutant)
      (Settled (fun g d => g.Saves originals dir ∧ d.WholeBut originals dir g.path.steps)
        fun d => d.Whole originals dir) := by
  rw [ArtifactGuard.install]
  refine Contract.get.bind fun s => ?_
  cases hread : (Script.host oracle).read s path with
  | none => exact .pure fun _ _ h => h.2.2
  | some saved =>
    dsimp only
    -- the artifact may be anything once its backup is written, and not before
    refine Contract.bind (Q := fun written d =>
        ArtifactGuard.Saves originals dir ⟨path, backupPath path, saved⟩ ∧ d.Whole originals dir ∧
          (written = true → d.lookup (Location.backup path.steps) = some saved))
      (Contract.write ?_) fun written => ?_
    · rintro d hd ⟨hshows, ha, hwhole⟩
      have hsaves := ArtifactGuard.saves_of_read hd.keeps ha hwhole (hshows.read _ _ hread)
      have hbackup := ha.isBackup_backup
      rw [steps_backupPath ha]
      exact ⟨⟨hd.insert hbackup.ne_claimLocation (hd.keeps.save_original ha hsaves.saved), hsaves,
        hwhole.insert_backup hbackup, fun _ => AList.lookup_insert d⟩, hsaves, hwhole, nofun⟩
    · cases written with
      | false => exact .pure fun _ _ h => h.2.1
      | true =>
        refine Contract.bind (Q := fun blamed d =>
            ArtifactGuard.Saves originals dir ⟨path, backupPath path, saved⟩ ∧
              d.WholeBut originals dir path.steps ∧ (blamed ≠ none → d.Whole originals dir))
          (Contract.replace ?_) fun blamed => ?_
        · rintro d hd ⟨hsaves, hwhole, hbackup⟩
          have hkeeps := hd.keeps.change hsaves.artifact hsaves.saved (hbackup rfl) mutant
          exact ⟨⟨hd.insert hsaves.artifact.ne_claimLocation hkeeps, hsaves,
            (hwhole.wholeBut _).insert mutant, fun h => absurd rfl h⟩,
            fun _ => ⟨hsaves, hwhole.wholeBut _, fun _ => hwhole⟩⟩
        · cases blamed with
          | none => exact .pure fun _ _ h => ⟨h.1, h.2.1⟩
          | some failed =>
            refine Contract.bind (Q := fun _ d => d.Whole originals dir) ?_
              fun _ => .pure fun _ _ h => h
            exact contract_drop.weaken fun _ _ h => ⟨h.1, h.2.2 nofun⟩

/-! ### Mutants and runs -/

/-- Quiet steps keep whatever holds of a disk. -/
theorem quiet_contract : Quiet (Script.host oracle) fun _ x =>
    ∀ I P : Disk → Prop, Contract I P x fun _ => P where
  pure _ _ _ := .pure fun _ _ h => h
  bind hx hf I P := (hx I P).bind fun a => hf a I P
  get _ _ := Contract.get.mono (fun _ _ h => h) fun _ _ _ h => h.2
  cancelled _ _ := .cancelled
  run command timeoutMs heed _ _ := .run command timeoutMs heed

/-- What holds after an evaluation: if the run goes on, every artifact holds its original. -/
def Evaluated (originals : Location → Option Bytes) (dir : Path) (e : Evaluation)
    (d : Disk) : Prop :=
  (∃ result, e.result = .ok result) → d.Whole originals dir

theorem contract_evaluateMutant (config : DeviceConfig) (options : RunOptions)
    (tests : List TestUnit) (artifact : Path) (mutation : Mutation) (mutant : Mutant)
    (start : Nat) :
    Contract (Disk.Guarded originals dir session)
      (fun d => Location.IsArtifact dir artifact.steps ∧ d.Whole originals dir)
      (evaluateMutant (Script.host oracle) config options tests artifact mutation mutant start)
      (Evaluated originals dir) := by
  rw [evaluateMutant]
  refine (contract_install artifact mutant.artifact).bind fun installed => ?_
  cases installed with
  | error e =>
    exact Contract.get.bind fun s => .pure fun _ _ h _ => h.2
  | ok guard =>
    dsimp only
    refine (quiet_contract.judge config options tests _ _).bind fun verdict => ?_
    refine contract_restore.bind fun restored => ?_
    cases restored with
    | error e => exact .pure fun _ _ _ h => nomatch h
    | ok _ =>
      cases verdict with
      | error e => exact .pure fun _ _ _ h => nomatch h
      | ok verdict => exact Contract.get.bind fun s => .pure fun _ _ h _ => h.2

theorem contract_evaluate (config : DeviceConfig) (policies : List Policy)
    (coverage : CoverageMap) (options : RunOptions) (target : MutationTarget)
    (mutation : Mutation) :
    Contract (Disk.Guarded originals dir session)
      (fun d => Location.IsArtifact dir target.artifact.steps ∧ d.Whole originals dir)
      (evaluate (Script.host oracle) config policies coverage options target mutation)
      (Evaluated originals dir) := by
  rw [evaluate]
  refine Contract.cancelled.bind fun cancelled => ?_
  cases cancelled with
  | true => exact .pure fun _ _ h _ => h.2
  | false =>
    refine Contract.get.bind fun s => ?_
    dsimp only
    split
    · exact .pure fun _ _ h _ => h.2.2
    · split
      · exact .pure fun _ _ _ h => nomatch h
      · exact Contract.get.bind fun s => .pure fun _ _ h _ => h.2.2.2
      · exact (contract_evaluateMutant config options _ _ mutation _ _).weaken fun _ _ h => h.2

/-- Mutants are evaluated as long as every artifact holds its original. -/
theorem contract_evaluateAll (config : DeviceConfig) (policies : List Policy)
    (coverage : CoverageMap) (options : RunOptions) (pairs : List (MutationTarget × Mutation)) :
    Contract (Disk.Guarded originals dir session)
      (fun d => (∀ pair ∈ pairs, Location.IsArtifact dir pair.1.artifact.steps) ∧
        d.Whole originals dir)
      (evaluateAll (Script.host oracle) config policies coverage options pairs)
      fun _ _ => True := by
  induction pairs with
  | nil => exact .pure fun _ _ _ => trivial
  | cons pair pairs ih =>
    obtain ⟨target, mutation⟩ := pair
    rw [evaluateAll]
    refine Contract.bind (Q := fun e d =>
      (∀ pair ∈ pairs, Location.IsArtifact dir pair.1.artifact.steps) ∧
        Evaluated originals dir e d) ?_ fun e => ?_
    · refine (contract_evaluate config policies coverage options target mutation).keep.weaken ?_
      rintro d _ ⟨hpairs, hwhole⟩
      obtain ⟨hpair, hpairs⟩ := List.forall_mem_cons.mp hpairs
      exact ⟨hpairs, hpair, hwhole⟩
    · cases hresult : e.result with
      | error failure => exact .pure fun _ _ _ => trivial
      | ok result =>
        refine (ih.weaken fun d _ h => ⟨h.1, h.2 ⟨result, hresult⟩⟩).bind fun results => ?_
        exact .pure fun _ _ _ => trivial

theorem contract_runMutations (config : DeviceConfig) (policies : List Policy)
    (targets : List MutationTarget) (coverage : CoverageMap) (options : RunOptions) :
    Contract (Disk.Guarded originals dir session)
      (fun d => (∀ t ∈ targets, Location.IsArtifact dir t.artifact.steps) ∧ d.Whole originals dir)
      (runMutations (Script.host oracle) config policies targets coverage options)
      fun _ _ => True := by
  rw [runMutations]
  refine Contract.bind (Q := fun _ _ => True) ?_ fun results => ?_
  · refine (contract_evaluateAll config policies coverage options _).weaken fun d _ h => ?_
    refine ⟨fun pair hpair => ?_, h.2⟩
    obtain ⟨t, ht, hpair⟩ := List.mem_flatMap.mp hpair
    obtain ⟨mutation, -, rfl⟩ := List.mem_map.mp hpair
    exact h.1 t ht
  · obtain ⟨results, installed⟩ := results
    cases installed with
    | false => exact .pure fun _ _ h => h
    | true => exact (quiet_contract.deploy options false _ _).bind fun _ => .pure fun _ _ h => h

/-- The summary is neither an artifact nor a backup nor the file of a claim. -/
theorem contract_saveSummary (summary : RunSummary) :
    Contract (Disk.Guarded originals dir session) (fun _ => True)
      (CommandLine.saveSummary (Script.host oracle) summary) fun _ _ => True := by
  have hname : Path.lastName? CommandLine.summaryFile.steps =
      some ".droidmut-state.json".toList := by decide
  rw [CommandLine.saveSummary]
  refine Contract.bind (Q := fun _ _ => True) (Contract.write fun d hd _ => ?_)
    fun _ => .pure fun _ _ h => h
  refine ⟨⟨hd.insert ?_ (hd.keeps.idle ?_ ?_ _), trivial⟩, trivial⟩
  · intro h
    rw [h, claimLocation, Path.lastName?_concat] at hname
    exact absurd hname (by decide)
  · intro ha
    exact absurd (ha.kind_of_lastName? hname) (by decide)
  · intro hb
    exact absurd (hb.kind_of_lastName? hname) (by decide)

theorem contract_finishRun (r : CommandLine.RunRequest) (policies : List Policy)
    (targets : List MutationTarget) (coverage : CoverageMap) :
    Contract (Disk.Guarded originals dir session)
      (fun d => (∀ t ∈ targets, Location.IsArtifact dir t.artifact.steps) ∧ d.Whole originals dir)
      (CommandLine.finishRun (Script.host oracle) r policies targets coverage)
      fun _ _ => True := by
  rw [CommandLine.finishRun]
  refine (contract_runMutations r.device policies targets coverage r.options).bind fun results => ?_
  split
  · exact (contract_saveSummary _).bind fun _ => .pure fun _ _ h => h
  · exact .pure fun _ _ h => h
  · exact .pure fun _ _ h => h

theorem contract_startRun (r : CommandLine.RunRequest) (policies : List Policy)
    (targets : List MutationTarget) :
    Contract (Disk.Guarded originals dir session)
      (fun d => (∀ t ∈ targets, Location.IsArtifact dir t.artifact.steps) ∧ d.Whole originals dir)
      (CommandLine.startRun (Script.host oracle) r policies targets) fun _ _ => True := by
  rw [CommandLine.startRun]
  refine Contract.get.bind fun s => ?_
  split
  · exact .pure fun _ _ _ => trivial
  · exact .pure fun _ _ _ => trivial
  · split
    · exact .pure fun _ _ _ => trivial
    · refine (quiet_contract.runBaseline r.device r.options _ _ _ _ _).bind fun result => ?_
      split
      · exact .pure fun _ _ _ => trivial
      · exact .pure fun _ _ _ => trivial
      · exact (contract_finishRun r policies targets _).weaken fun _ _ h => h.2

/-- What is made of the elements of a list is made of one of them each. -/
theorem exists_of_mem_mapM {ε α β : Type} {f : α → Except ε β} {as : List α} {bs : List β}
    (h : as.mapM f = .ok bs) {b : β} (hb : b ∈ bs) : ∃ a ∈ as, f a = .ok b := by
  induction as generalizing bs with
  | nil =>
    obtain rfl := Except.ok.inj h
    cases hb
  | cons a as ih =>
    rw [List.mapM_cons] at h
    cases hfirst : f a with
    | error e =>
      rw [hfirst] at h
      cases h
    | ok first =>
      cases hrest : as.mapM f with
      | error e =>
        rw [hfirst, hrest] at h
        cases h
      | ok rest =>
        rw [hfirst, hrest] at h
        obtain rfl := Except.ok.inj h
        obtain rfl | hb := List.mem_cons.mp hb
        · exact ⟨a, List.mem_cons_self .., hfirst⟩
        · obtain ⟨a', ha', hb⟩ := ih hrest hb
          exact ⟨a', List.mem_cons_of_mem _ ha', hb⟩

section Targets

variable {σ : Type} {host : Host σ} {s : σ}

/-- A class is read from a listed file with the name of an artifact. -/
theorem exists_of_mem_readClasses {classes : List (Path × ClassFile)}
    (h : readClasses host s dir = .ok classes) {path : Path} {c : ClassFile}
    (hc : (path, c) ∈ classes) :
    ∃ paths, host.filesBelow s dir = some paths ∧ path ∈ paths ∧
      (Path.fileName? path).any isArtifactName = true := by
  cases hfiles : host.filesBelow s dir with
  | none =>
    simp only [readClasses, scanArtifacts, hfiles] at h
    cases h
  | some paths =>
    simp only [readClasses, scanArtifacts, hfiles] at h
    obtain ⟨path', hpath', hread⟩ := exists_of_mem_mapM h hc
    rw [Path.sort, List.mem_mergeSort, List.mem_filter] at hpath'
    cases hc : readClass host s path' with
    | error e =>
      rw [hc] at hread
      cases hread
    | ok c' =>
      rw [hc] at hread
      obtain ⟨rfl, -⟩ := Prod.mk.inj (Except.ok.inj hread)
      exact ⟨paths, rfl, hpath'⟩

/-- The artifact of a target is a listed file with the name of an artifact. -/
theorem exists_of_mem_findTargets {policies : List Policy} {filter : Option String}
    {targets : List MutationTarget} (h : findTargets host s dir policies filter = .ok targets)
    {t : MutationTarget} (ht : t ∈ targets) :
    ∃ paths, host.filesBelow s dir = some paths ∧ t.artifact ∈ paths ∧
      (Path.fileName? t.artifact).any isArtifactName = true := by
  rw [findTargets] at h
  cases hclasses : readClasses host s dir with
  | error e =>
    rw [hclasses] at h
    cases h
  | ok classes =>
    rw [hclasses] at h
    obtain rfl := Except.ok.inj h
    obtain ⟨⟨path, c⟩, hclass, rfl⟩ := List.mem_map.mp (List.mem_filter.mp ht).1
    exact exists_of_mem_readClasses hclasses hclass

end Targets

/-- If no leftover is seen, every artifact holds its original. -/
theorem whole_of_interruptedRuns {d : Disk} (hd : d.Keeps originals dir) {s : Script}
    (hshows : s.view.Shows d) (h : interruptedRuns (Script.host oracle) s dir = []) :
    d.Whole originals dir := by
  have hno : ∀ b ∈ d, ¬ b.IsBackup dir := by
    intro b hb hbackup
    obtain ⟨pair, hleaf, hartifact, -⟩ := hd.exists_leaf_of_backup hb hbackup
    have hfound : pair ∈ interruptedRuns (Script.host oracle) s dir :=
      mem_interruptedRuns.mpr ⟨(hshows.leavesBelow dir pair.2).mpr hleaf, hartifact⟩
    rw [h] at hfound
    cases hfound
  exact fun a o ha ho => hd.lookup_of_no_backup hno ha ho

/-- **A run in a claimed directory** keeps the originals with each of its steps. -/
theorem contract_runClaimed (r : CommandLine.RunRequest) (policies : List Policy)
    (hdir : r.device.classesDir = dir) :
    Contract (Disk.Guarded originals dir session) (fun _ => True)
      (CommandLine.runClaimed (Script.host oracle) r policies) fun _ _ => True := by
  subst hdir
  rw [CommandLine.runClaimed]
  -- the leftovers are listed under the claim, so they are those of runs that are over
  refine Contract.get.bind fun s => ?_
  generalize hfound : interruptedRuns (Script.host oracle) s r.device.classesDir = leftovers
  cases leftovers with
  | nil =>
    refine Contract.get.bind fun s' => ?_
    split
    · exact .pure fun _ _ _ => trivial
    · exact .pure fun _ _ _ => trivial
    · next targets _ htargets =>
      refine (contract_startRun r policies targets).weaken fun d hd h => ⟨fun t ht => ?_, ?_⟩
      · obtain ⟨paths, hpaths, hpath, hname⟩ := exists_of_mem_findTargets htargets ht
        exact Disk.isArtifact_of_leaf (h.1.filesBelow _ _ hpaths _ hpath) hname
      · exact whole_of_interruptedRuns hd.keeps h.2.1 hfound
  | cons leftover leftovers =>
    refine Contract.bind (Q := fun _ _ => True) ?_ fun complaints => .pure fun _ _ h => h
    refine (contract_putBackAll (leftover :: leftovers)).weaken fun d hd h pair hpair => ?_
    obtain ⟨hleaf, hartifact⟩ := mem_interruptedRuns.mp (hfound ▸ hpair)
    exact hd.keeps.isPair_of_leaf ((h.1.leavesBelow _ _).mp hleaf) hartifact

end

/-! ### The steps of a run -/

/-- The steps of a run: it does nothing, or is refused its claim, or it is granted its claim, keeps
the originals of any disk and the file of its claim with each step, and gives its claim up. -/
inductive IsSession (dir : Path) (session : String) : List Turn → Prop
  | idle : IsSession dir session []
  | refused {view : View} {path : Path} {answer : ClaimResult}
      (isClaimed : path.steps = claimLocation dir) (isRefused : ∀ n, answer ≠ .granted n) :
      IsSession dir session [⟨view, .claim path session, answer⟩]
  | granted {view last : View} {path : Path} {n : Nat} {body : List Turn}
      (isClaimed : path.steps = claimLocation dir)
      (endures : ∀ originals d, Disk.Guarded originals dir session d →
        Disk.Endures (Disk.Guarded originals dir session) (fun _ => True) body d) :
      IsSession dir session
        (⟨view, .claim path session, .granted n⟩ :: (body ++ [⟨last, .release n, ()⟩]))

/-- What is done under a claim is done by a session, which begins with the claim. -/
theorem underClaim_turns {oracle : Oracle} {dir : Path} {session : String} {first : View}
    {action : StateM Script CommandLine.Reply}
    (haction : ∀ originals, Contract (Disk.Guarded originals dir session) (fun _ => True) action
      fun _ _ => True) {turns : List Turn}
    (hturns : (CommandLine.underClaim (Script.host oracle) dir session action
      ⟨first, []⟩).2.turns = turns) :
    IsSession dir session turns ∧ ∃ rest,
      turns = ⟨first, .claim (Path.join dir claimFile.toList) session,
        (oracle 0 (.claim (Path.join dir claimFile.toList) session)).1⟩ :: rest := by
  generalize hanswer : oracle 0 (.claim (Path.join dir claimFile.toList) session) = answer
  obtain ⟨answer, view⟩ := answer
  have hclaim : (Script.host oracle).claim (Path.join dir claimFile.toList) session ⟨first, []⟩ =
      (answer, ⟨view, [⟨first, .claim (Path.join dir claimFile.toList) session, answer⟩]⟩) := by
    simp only [Script.host, Script.take, List.length_nil, hanswer, List.nil_append]
  rw [CommandLine.underClaim] at hturns
  cases answer with
  | busy =>
    have hclaimed : claimDirectory (Script.host oracle) dir session ⟨first, []⟩ =
        (.error (.locked dir), _) := bind_of_eq hclaim
    rw [bind_of_eq hclaimed] at hturns
    obtain rfl := hturns
    exact ⟨.refused (steps_claimPath dir) nofun, [], rfl⟩
  | unavailable =>
    have hclaimed : claimDirectory (Script.host oracle) dir session ⟨first, []⟩ =
        (.error (.io (Path.join dir claimFile.toList)), _) := bind_of_eq hclaim
    rw [bind_of_eq hclaimed] at hturns
    obtain rfl := hturns
    exact ⟨.refused (steps_claimPath dir) nofun, [], rfl⟩
  | granted n =>
    have hclaimed : claimDirectory (Script.host oracle) dir session ⟨first, []⟩ = (.ok n, _) :=
      bind_of_eq hclaim
    rw [bind_of_eq hclaimed] at hturns
    -- which steps are taken does not depend on the originals
    obtain ⟨body, hbody, -, -⟩ := haction (fun _ => none) ⟨view,
      [⟨first, .claim (Path.join dir claimFile.toList) session, .granted n⟩]⟩
    change (action _).2.turns ++ [⟨_, .release n, ()⟩] = turns at hturns
    rw [hbody, List.append_assoc] at hturns
    obtain rfl := hturns
    refine ⟨.granted (steps_claimPath dir) fun originals d hd => ?_, _, rfl⟩
    obtain ⟨ts, hts, hleads, hendures⟩ := haction originals ⟨view,
      [⟨first, .claim (Path.join dir claimFile.toList) session, .granted n⟩]⟩
    obtain rfl : ts = body := List.append_cancel_left (hts.symm.trans hbody)
    exact (hleads.endures fun hshows => hendures d hd hshows trivial).mono hd fun _ _ _ => trivial

section

variable (oracle : Oracle) (name : String) (r : CommandLine.RunRequest) (first : View)

/-- The policies are known and the directories are there. -/
def CommandLine.RunRequest.isReady (r : RunRequest) (v : View) : Bool :=
  (selectPolicies r.policies).isOk && v.isDirectory r.device.classesDir &&
    v.isDirectory r.testClasses

/-- A run does nothing, or it does everything under its claim. -/
theorem executeRun_cases :
    (r.isReady first = false ∧
      (CommandLine.executeRun (Script.host oracle) name r ⟨first, []⟩).2.turns = []) ∨
    ∃ policies, CommandLine.executeRun (Script.host oracle) name r ⟨first, []⟩ =
      CommandLine.underClaim (Script.host oracle) r.device.classesDir (r.session.getD name)
        (CommandLine.runClaimed (Script.host oracle) r policies) ⟨first, []⟩ := by
  rw [CommandLine.executeRun, CommandLine.RunRequest.isReady]
  cases CommandLine.selectPolicies r.policies with
  | error reply => exact .inl ⟨rfl, rfl⟩
  | ok policies =>
    dsimp only
    rw [get_bind]
    cases hclasses : (Script.host oracle).isDirectory ⟨first, []⟩ r.device.classesDir with
    | false => exact .inl ⟨by rw [show first.isDirectory _ = false from hclasses]; rfl, rfl⟩
    | true =>
      rw [Bool.not_true, if_neg Bool.false_ne_true, get_bind]
      cases htests : (Script.host oracle).isDirectory ⟨first, []⟩ r.testClasses with
      | false =>
        refine .inl ⟨?_, rfl⟩
        rw [show first.isDirectory r.testClasses = false from htests, Bool.and_false]
      | true => exact .inr ⟨policies, rfl⟩

/-- **The steps of a mutation run** are those of a session. -/
theorem isSession_executeRun : IsSession r.device.classesDir (r.session.getD name)
    (CommandLine.executeRun (Script.host oracle) name r ⟨first, []⟩).2.turns := by
  obtain ⟨-, h⟩ | ⟨policies, h⟩ := executeRun_cases oracle name r first
  · rw [h]
    exact .idle
  · rw [h]
    exact (underClaim_turns (fun originals => contract_runClaimed r policies rfl) rfl).1

/-- A run that can begin begins with its claim. -/
theorem exists_claim_executeRun (h : r.isReady first = true) :
    let path := Path.join r.device.classesDir claimFile.toList
    let text := r.session.getD name
    ∃ rest, (CommandLine.executeRun (Script.host oracle) name r ⟨first, []⟩).2.turns =
      ⟨first, .claim path text, (oracle 0 (.claim path text)).1⟩ :: rest := by
  obtain ⟨hnot, -⟩ | ⟨policies, hrun⟩ := executeRun_cases oracle name r first
  · rw [h] at hnot
    cases hnot
  · rw [hrun]
    exact (underClaim_turns (fun originals => contract_runClaimed r policies rfl) rfl).2

end

/-! ### Spellings of a directory -/

section

variable {dir dir' : Path} (h : dir'.steps = dir.steps)

include h

theorem Location.namedBelow_congr {kind : Octets → Bool} {place : Location} :
    NamedBelow kind dir' place ↔ NamedBelow kind dir place := by
  rw [NamedBelow, NamedBelow, h]

theorem claimLocation_congr : claimLocation dir' = claimLocation dir := by
  rw [claimLocation, claimLocation, h]

theorem Disk.guarded_congr {originals : Location → Option Bytes} {session : String} {d : Disk} :
    d.Guarded originals dir' session ↔ d.Guarded originals dir session := by
  have himp : ∀ {dir dir' : Path}, dir'.steps = dir.steps → d.Guarded originals dir' session →
      d.Guarded originals dir session := by
    intro dir dir' h hd
    have hartifact : ∀ a : Location, a.IsArtifact dir → a.IsArtifact dir' :=
      fun a => (Location.namedBelow_congr h).mpr
    refine ⟨⟨fun a o ha => hd.keeps.original a o (hartifact a ha),
      fun a hmem ha => hd.keeps.artifact a hmem (hartifact a ha), fun b hmem hb => ?_⟩, ?_⟩
    · obtain ⟨a, ha, ho, hbackup⟩ :=
        hd.keeps.backup b hmem ((Location.namedBelow_congr h).mpr hb)
      exact ⟨a, (Location.namedBelow_congr h).mp ha, ho, hbackup⟩
    · rw [← claimLocation_congr h]
      exact hd.claimed
  exact ⟨himp h, himp h.symm⟩

/-- The steps of a session do not depend on how the directory is spelled. -/
theorem IsSession.of_steps {session : String} {turns : List Turn}
    (hturns : IsSession dir' session turns) : IsSession dir session turns := by
  cases hturns with
  | idle => exact .idle
  | refused isClaimed isRefused =>
    exact .refused (isClaimed.trans (claimLocation_congr h)) isRefused
  | granted isClaimed endures =>
    refine .granted (isClaimed.trans (claimLocation_congr h)) fun originals d hd => ?_
    have heq : Disk.Guarded originals dir' session = Disk.Guarded originals dir session :=
      funext fun d => propext (Disk.guarded_congr h)
    exact heq ▸ endures originals d ((Disk.guarded_congr h).mpr hd)

end

end MutationTesting
