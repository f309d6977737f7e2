import MutationTesting.CommandLine.Execution
import MutationTesting.Proofs.Host.Mortal
import MutationTesting.Proofs.Host.Watched
import MutationTesting.Proofs.Run.Backup
/-!
# Swaps that break off

A mutant is put in the place of an artifact and the artifact is put back, on a host on which every
step may break off and the process may die. Afterwards the artifacts of the directory are put back
from their backups. The artifact then holds what it held before, with one exception: the backup is
written in place, so if this very step breaks off, the backup holds a beginning of the artifact, and
it is this beginning that the artifact is given although it was still whole.

## Main definitions

* `ArtifactGuard.swap` — a mutant is put in place and taken away
* `Disk.putBackPair` — an artifact is put back from its backup
* `savedBytes` — what the backup holds

## Main results

* `Mortal.keeps_putBackAll` — originals that can be had back are had back
* `ArtifactGuard.keeps_swap` — what a swap that breaks off keeps
* `artifact_after_broken_swap`
-/

namespace MutationTesting

/-- Puts a mutant in the place of an artifact and puts the artifact back. -/
def ArtifactGuard.swap {σ : Type} (host : Host σ) (path : Path) (mutant : Bytes) :
    StateM σ (Except Failure Unit) := do
  match ← ArtifactGuard.install host path mutant with
  | .error e => pure (.error e)
  | .ok g => g.restore host

/-! ### Putting back from backups -/

/-- The disk on which an artifact was put back from its backup, if there is one. -/
def Disk.putBackPair (d : Disk) (pair : Path × Path) : Disk :=
  match d.read pair.2 with
  | some content => AList.erase pair.2.steps (AList.insert pair.1.steps content d)
  | none => d

namespace Disk

variable {originals : Location → Option Bytes} {dir : Path} {d : Disk}

theorem Keeps.putBackPair {pair : Path × Path} (h : d.Keeps originals dir)
    (hpair : IsPair originals dir pair) : (d.putBackPair pair).Keeps originals dir := by
  obtain ⟨ha, horiginal, hbackup⟩ := hpair
  obtain ⟨o, ho⟩ := Option.ne_none_iff_exists'.mp horiginal
  rw [Disk.putBackPair]
  split
  · next content hcontent =>
    rw [Disk.read, hbackup] at hcontent
    obtain rfl := h.lookup_backup ha ho hcontent
    rw [hbackup]
    exact (h.putBack ha ho).tidy ha ho (AList.lookup_insert d)
  · exact h

/-- A backup that was put back is gone, and no file appears but its artifact. -/
theorem of_mem_putBackPair {pair : Path × Path} {place : Location}
    (h : place ∈ d.putBackPair pair) :
    place ≠ pair.2.steps ∧ (place = pair.1.steps ∨ place ∈ d) := by
  rw [Disk.putBackPair] at h
  split at h
  · obtain ⟨hne, hmem⟩ := AList.mem_erase.mp h
    exact ⟨hne, (AList.mem_insert d).mp hmem⟩
  · next hnone =>
    refine ⟨?_, .inr h⟩
    rintro rfl
    exact AList.lookup_eq_none.mp hnone h

/-- Originals that can be had back are had back: if all backups are put back, none is left. -/
theorem Keeps.putBackPairs (h : d.Keeps originals dir) {pairs : List (Path × Path)}
    (hpairs : ∀ pair ∈ pairs, IsPair originals dir pair)
    (hall : ∀ b ∈ d, b.IsBackup dir → ∃ pair ∈ pairs, pair.2.steps = b) :
    (pairs.foldl Disk.putBackPair d).Keeps originals dir ∧
      ∀ b ∈ pairs.foldl Disk.putBackPair d, ¬ b.IsBackup dir := by
  induction pairs generalizing d with
  | nil =>
    refine ⟨h, fun b hb hbackup => ?_⟩
    obtain ⟨pair, hpair, -⟩ := hall b hb hbackup
    cases hpair
  | cons pair pairs ih =>
    obtain ⟨hpair, hpairs⟩ := List.forall_mem_cons.mp hpairs
    refine ih (h.putBackPair hpair) hpairs fun b hb hbackup => ?_
    obtain ⟨hne, rfl | hb⟩ := of_mem_putBackPair hb
    · exact absurd hbackup hpair.1.not_isBackup
    · obtain ⟨pair', hpair', rfl⟩ := hall b hb hbackup
      obtain rfl | hpair' := List.mem_cons.mp hpair'
      · exact absurd rfl hne
      · exact ⟨pair', hpair', rfl⟩

end Disk

/-! ### Putting back on a host -/

namespace Mortal

variable {originals : Location → Option Bytes} {dir : Path}

/-- An artifact is put back from its backup. -/
theorem restoreFromBackup_of_read {d : Disk} {pair : Path × Path} {content : Bytes}
    (h : d.read pair.2 = some content) :
    restoreFromBackup host pair.1 pair.2 (sound d) = (.ok (), sound (d.putBackPair pair)) := by
  have hcopy : host.copy pair.2 pair.1 (sound d) =
      (true, sound (AList.insert pair.1.steps content d)) := by
    simp only [host, sound, h]
    rfl
  have hmem : pair.2.steps ∈ AList.insert pair.1.steps content d :=
    (AList.mem_insert d).mpr (.inr (AList.lookup_isSome.mp (by rw [← Disk.read, h]; rfl)))
  have hremove : host.remove pair.2 (sound (AList.insert pair.1.steps content d)) =
      (true, sound (AList.erase pair.2.steps (AList.insert pair.1.steps content d))) := by
    simp only [host, sound, if_pos hmem]
    rfl
  rw [restoreFromBackup, bind_of_eq hcopy, if_pos rfl, bind_of_eq hremove, Disk.putBackPair, h]
  rfl

theorem restoreFromBackup_sound (d : Disk) (pair : Path × Path) :
    (restoreFromBackup host pair.1 pair.2 (sound d)).2 = sound (d.putBackPair pair) := by
  cases hread : d.read pair.2 with
  | none =>
    have hcopy : host.copy pair.2 pair.1 (sound d) = (false, sound d) := by
      simp only [host, sound, hread]
    rw [restoreFromBackup, bind_of_eq hcopy, Disk.putBackPair, hread]
    rfl
  | some content => rw [restoreFromBackup_of_read hread]

theorem putBackAll_sound (d : Disk) (pairs : List (Path × Path)) :
    (CommandLine.putBackAll host pairs (sound d)).2 = sound (pairs.foldl Disk.putBackPair d) := by
  induction pairs generalizing d with
  | nil => rfl
  | cons pair pairs ih =>
    obtain ⟨artifact, backup⟩ := pair
    rcases hrestore : restoreFromBackup host artifact backup (sound d) with ⟨complaint, m⟩
    obtain rfl : m = sound (d.putBackPair (artifact, backup)) :=
      (congrArg Prod.snd hrestore).symm.trans (restoreFromBackup_sound d (artifact, backup))
    rcases hrest : CommandLine.putBackAll host pairs
      (sound (d.putBackPair (artifact, backup))) with ⟨complaints, m⟩
    obtain rfl := (congrArg Prod.snd hrest).symm.trans (ih _)
    rw [CommandLine.putBackAll, bind_of_eq hrestore, bind_of_eq hrest]
    cases complaint <;> rfl

/-- **Originals that can be had back are had back** from the backups that are found. -/
theorem keeps_putBackAll {d : Disk} (h : d.Keeps originals dir) :
    let after := (CommandLine.putBackAll host (interruptedRuns host (sound d) dir) (sound d)).2.disk
    after.Keeps originals dir ∧ ∀ b ∈ after, ¬ b.IsBackup dir := by
  intro after
  have hpairs : ∀ pair ∈ interruptedRuns host (sound d) dir, Disk.IsPair originals dir pair := by
    intro pair hpair
    obtain ⟨hpath, hartifact⟩ := mem_interruptedRuns.mp hpair
    exact h.isPair_of_leaf hpath hartifact
  have hall : ∀ b ∈ d, b.IsBackup dir →
      ∃ pair ∈ interruptedRuns host (sound d) dir, pair.2.steps = b := by
    intro b hb hbackup
    obtain ⟨pair, hpath, hartifact, hsteps⟩ := h.exists_leaf_of_backup hb hbackup
    exact ⟨pair, mem_interruptedRuns.mpr ⟨hpath, hartifact⟩, hsteps⟩
  have hafter : after = (interruptedRuns host (sound d) dir).foldl Disk.putBackPair d :=
    congrArg Mortal.disk (putBackAll_sound d _)
  rw [hafter]
  exact h.putBackPairs hpairs hall

/-- The name of a new file is neither that of an artifact nor that of a backup. -/
theorem artifactName?_letters (letters : Letters) : artifactName? letters.name = none := by
  change (if _ then _ else none) = none
  refine if_neg fun h => ?_
  have hsuffix : backupSuffix.toList <:+ "tmp".toList ++ letters.val :=
    List.isSuffixOf_iff_suffix.mp (Bool.and_eq_true_iff.mp h).2
  have hdot : '.' ∈ "tmp".toList ++ letters.val := hsuffix.subset (by decide)
  obtain hdot | hdot := List.mem_append.mp hdot
  · exact absurd hdot (by decide)
  · exact absurd (List.all_eq_true.mp letters.property _ hdot) (by decide)

theorem isArtifactName_letters (letters : Letters) : isArtifactName letters.name = false := by
  refine Bool.eq_false_iff.mpr fun h => ?_
  exact (isArtifactName_iff.mp h).2.2 rfl

theorem keeps_littered {d : Disk} (h : d.Keeps originals dir) (place : Location) (content : Bytes)
    (written : Option Nat) (litter : Option Letters) :
    (littered d place content written litter).Keeps originals dir := by
  cases litter with
  | none => exact h
  | some letters =>
    have hlast := Path.lastName?_sibling place letters.name
    refine h.idle (fun ha => ?_) (fun hb => ?_) _
    · have hkind := ha.kind_of_lastName? hlast
      rw [isArtifactName_letters] at hkind
      cases hkind
    · have hkind := hb.kind_of_lastName? hlast
      rw [artifactName?_letters] at hkind
      cases hkind

/-- A new file does not take the place of an artifact. -/
theorem lookup_littered {a : Location} (ha : a.IsArtifact dir) (d : Disk) (place : Location)
    (content : Bytes) (written : Option Nat) (litter : Option Letters) :
    (littered d place content written litter).lookup a = d.lookup a := by
  cases litter with
  | none => rfl
  | some letters =>
    refine AList.lookup_insert_ne fun h => ?_
    have hkind := ha.kind_of_lastName? (h ▸ Path.lastName?_sibling place letters.name)
    rw [isArtifactName_letters] at hkind
    cases hkind

end Mortal

/-! ### Swaps -/

namespace ArtifactGuard

/-- A property of disks that stays when an artifact is put back by its guard. -/
structure IsKept (g : ArtifactGuard) (P : Disk → Prop) : Prop where
  putBack : ∀ d, P d → P (AList.insert g.path.steps g.saved d)
  tidy : ∀ d, P d → d.lookup g.path.steps = some g.saved → P (AList.erase g.backup.steps d)
  litter : ∀ d content written litter, P d →
    P (Mortal.littered d g.path.steps content written litter)

namespace IsKept

variable {g : ArtifactGuard} {P : Disk → Prop} {m : Mortal}

theorem of_putBack (hP : g.IsKept P) (h : P m.disk) : P (g.putBack Mortal.host m).2.disk := by
  obtain ⟨m', hreplace, hdisk⟩ | ⟨written, litter, m', hreplace, hdisk⟩ :=
    Mortal.replace_cases g.path g.saved m
  · have hm' : P m'.disk := by
      rw [hdisk]
      exact hP.putBack _ h
    have hlookup : m'.disk.lookup g.path.steps = some g.saved := by
      rw [hdisk, AList.lookup_insert]
    obtain ⟨removed, m'', hremove, hdisk'⟩ := Mortal.remove_cases g.backup m'
    have hrun : g.putBack Mortal.host m = (.ok (), m'') := by
      rw [ArtifactGuard.putBack, bind_of_eq hreplace]
      exact bind_of_eq hremove
    rw [hrun]
    obtain hdisk' | hdisk' := hdisk' <;> rw [hdisk']
    · exact hP.tidy _ hm' hlookup
    · exact hm'
  · rw [ArtifactGuard.putBack, bind_of_eq hreplace]
    change P m'.disk
    rw [hdisk]
    exact hP.litter _ _ _ _ h

theorem of_drop (hP : g.IsKept P) (h : P m.disk) : P (g.drop Mortal.host m).2.disk :=
  hP.of_putBack h

theorem of_restore (hP : g.IsKept P) (h : P m.disk) : P (g.restore Mortal.host m).2.disk := by
  have hfirst : P (g.putBack Mortal.host m).2.disk := hP.of_putBack h
  rcases hresult : g.putBack Mortal.host m with ⟨result, m'⟩
  rw [hresult] at hfirst
  rw [ArtifactGuard.restore, bind_of_eq hresult]
  cases result with
  | ok _ => exact hfirst
  | error e => exact hP.of_drop hfirst

end IsKept

variable {originals : Location → Option Bytes} {dir path : Path} {o : Bytes}

/-- The guard of an artifact with its original. -/
def whole (path : Path) (o : Bytes) : ArtifactGuard := ⟨path, backupPath path, o⟩

theorem isKept_keeps (ha : Location.IsArtifact dir path.steps)
    (ho : originals path.steps = some o) : (whole path o).IsKept (·.Keeps originals dir) where
  putBack _ h := h.putBack ha ho
  tidy d h hd := by
    change Disk.Keeps originals dir (AList.erase (backupPath path).steps d)
    rw [steps_backupPath ha]
    exact h.tidy ha ho hd
  litter _ _ _ _ h := Mortal.keeps_littered h _ _ _ _

theorem isKept_lookup (ha : Location.IsArtifact dir path.steps) :
    (whole path o).IsKept (·.lookup path.steps = some o) where
  putBack d _ := AList.lookup_insert d
  tidy d h _ := by
    have hne : path.steps ≠ (backupPath path).steps := by
      rw [steps_backupPath ha]
      exact (ha.backup_ne ha).symm
    exact (AList.lookup_erase_ne hne).trans h
  litter _ _ _ _ h := (Mortal.lookup_littered ha _ _ _ _ _).trans h

/-- What the backup of an artifact holds after the first steps of a swap. -/
def savedBytes (fates : List Fate) (o : Bytes) : Bytes :=
  match fates with
  | .broken _ (some n) _ :: _ => o.take n
  | _ => o

variable {d : Disk} {fates : List Fate}

/-- A swap saves the artifact, or its backup breaks off. -/
theorem write_backup_cases (d : Disk) (fates : List Fate) (place : Path) (o : Bytes) :
    (∃ m, Mortal.host.write place o ⟨d, fates, true⟩ = (true, m) ∧
        m.disk = AList.insert place.steps o d ∧ savedBytes fates o = o) ∨
      ∃ m, Mortal.host.write place o ⟨d, fates, true⟩ = (false, m) ∧
        ((m.disk = d ∧ savedBytes fates o = o) ∨
          m.disk = AList.insert place.steps (savedBytes fates o) d) := by
  cases fates with
  | nil => exact .inl ⟨_, rfl, rfl, rfl⟩
  | cons fate fates =>
    cases fate with
    | done => exact .inl ⟨_, rfl, rfl, rfl⟩
    | broken dies written litter =>
      cases written with
      | none => exact .inr ⟨_, rfl, .inl ⟨rfl, rfl⟩⟩
      | some n => exact .inr ⟨_, rfl, .inr rfl⟩

/-- The installation of a mutant: with a guard it is in place behind a whole backup, and without
one the artifact is as it was. -/
theorem install_keeps (hclean : ∀ place ∈ d, ¬ place.IsBackup dir)
    (ha : Location.IsArtifact dir path.steps) (ho : d.read path = some o) (mutant : Bytes)
    (fates : List Fate) :
    ∃ result m, install Mortal.host path mutant ⟨d, fates, true⟩ = (result, m) ∧
      m.disk.Keeps (Function.update (d.lookup ·) path.steps (some (savedBytes fates o))) dir ∧
      ((result = .ok (whole path o) ∧ savedBytes fates o = o) ∨
        ∃ e, result = .error e ∧ m.disk.read path = some o) := by
  have hkeeps : d.Keeps (d.lookup ·) dir := Disk.keeps_lookup hclean
  have ho' : d.lookup path.steps = some o := ho
  have hself : Function.update (d.lookup ·) path.steps (some o) = (d.lookup ·) := by
    rw [← ho', Function.update_eq_self]
  have hbackup : (backupPath path).steps = Location.backup path.steps := steps_backupPath ha
  have hne : path.steps ≠ Location.backup path.steps := (ha.backup_ne ha).symm
  have hread : Mortal.host.read ⟨d, fates, true⟩ path = some o := ho
  rw [install, get_bind, hread]
  obtain ⟨m, hwrite, hdisk, hsaved⟩ | ⟨m, hwrite, hdisk⟩ :=
    write_backup_cases d fates (backupPath path) o
  · rw [hsaved, hself]
    have hm : m.disk.Keeps (d.lookup ·) dir := by
      rw [hdisk, hbackup, ← hself]
      exact hkeeps.save ha (by simp [ho']) o
    have hlookup : m.disk.lookup path.steps = some o := by
      rw [hdisk, hbackup, AList.lookup_insert_ne hne, ho']
    have hlookup' : m.disk.lookup (Location.backup path.steps) = some o := by
      rw [hdisk, hbackup, AList.lookup_insert]
    obtain ⟨m', hreplace, hdisk'⟩ | ⟨written, litter, m', hreplace, hdisk'⟩ :=
      Mortal.replace_cases path mutant m
    · refine ⟨.ok (whole path o), m', ?_, ?_, .inl ⟨rfl, rfl⟩⟩
      · exact (bind_of_eq hwrite).trans (bind_of_eq hreplace)
      · rw [hdisk']
        exact hm.change ha ho' hlookup' mutant
    · have hm' : m'.disk.Keeps (d.lookup ·) dir := by
        rw [hdisk']
        exact Mortal.keeps_littered hm _ _ _ _
      have hlookup' : m'.disk.lookup path.steps = some o := by
        rw [hdisk', Mortal.lookup_littered ha, hlookup]
      refine ⟨.error (.io path), ((whole path o).drop Mortal.host m').2, ?_, ?_, .inr ⟨_, rfl, ?_⟩⟩
      · exact (bind_of_eq hwrite).trans (bind_of_eq hreplace)
      · exact (isKept_keeps ha ho').of_drop hm'
      · exact (isKept_lookup ha).of_drop hlookup'
  · refine ⟨.error (.io (backupPath path)), m, ?_, ?_, .inr ⟨_, rfl, ?_⟩⟩
    · exact bind_of_eq hwrite
    · obtain ⟨hdisk, hsaved⟩ | hdisk := hdisk <;> rw [hdisk]
      · rwa [hsaved, hself]
      · rw [hbackup]
        exact hkeeps.save ha (by simp [ho']) _
    · change m.disk.lookup path.steps = some o
      obtain ⟨hdisk, -⟩ | hdisk := hdisk <;> rw [hdisk]
      · exact ho'
      · rw [hbackup, AList.lookup_insert_ne hne, ho']

/-- A swap that breaks off keeps what the backup holds. -/
theorem keeps_swap (hclean : ∀ place ∈ d, ¬ place.IsBackup dir)
    (ha : Location.IsArtifact dir path.steps) (ho : d.read path = some o) (mutant : Bytes)
    (fates : List Fate) :
    (swap Mortal.host path mutant ⟨d, fates, true⟩).2.disk.Keeps
      (Function.update (d.lookup ·) path.steps (some (savedBytes fates o))) dir := by
  obtain ⟨result, m, hinstall, hm, hresult⟩ := install_keeps hclean ha ho mutant fates
  rw [swap, bind_of_eq hinstall]
  obtain ⟨rfl, hsaved⟩ | ⟨e, rfl, -⟩ := hresult
  · rw [hsaved] at hm ⊢
    exact (isKept_keeps ha (Function.update_self ..)).of_restore hm
  · exact hm

end ArtifactGuard

/-- **An artifact after a swap that broke off**, and after everything was put back from backups: it
holds what its backup held, other artifacts hold what they held before, and no backup is left. Where
the installation failed, the artifact was as before in the first place. -/
theorem artifact_after_broken_swap {d : Disk} {dir path : Path}
    (hclean : ∀ leaf ∈ d.leaves dir, artifactOfBackup? leaf = none)
    (hleaf : path ∈ d.leaves dir) (hname : (Path.fileName? path).any isArtifactName = true)
    {o : Bytes} (ho : d.read path = some o) (mutant : Bytes) (fates : List Fate) :
    let installed := ArtifactGuard.install Mortal.host path mutant ⟨d, fates, true⟩
    let broken := (ArtifactGuard.swap Mortal.host path mutant ⟨d, fates, true⟩).2.disk
    let after := (CommandLine.putBackAll Mortal.host
      (interruptedRuns Mortal.host (.sound broken) dir) (.sound broken)).2.disk
    (after.read path = some (ArtifactGuard.savedBytes fates o)) ∧
      (∀ other ∈ d.leaves dir, (Path.fileName? other).any isArtifactName = true →
        other.steps ≠ path.steps → after.read other = d.read other) ∧
      (∀ leaf ∈ after.leaves dir, artifactOfBackup? leaf = none) ∧
      ∀ e, installed.1 = .error e → installed.2.disk.read path = some o := by
  intro installed broken after
  have hclean' : ∀ place ∈ d, ¬ place.IsBackup dir :=
    fun place hplace => Disk.not_isBackup_of_leaves hclean hplace
  have ha : Location.IsArtifact dir path.steps := Disk.isArtifact_of_leaf hleaf hname
  have hbroken : broken.Keeps _ dir := ArtifactGuard.keeps_swap hclean' ha ho mutant fates
  obtain ⟨hkeeps, hno⟩ := Mortal.keeps_putBackAll hbroken
  refine ⟨?_, fun other hother hkind hne => ?_, fun leaf hpath => ?_, fun e he => ?_⟩
  · exact hkeeps.lookup_of_no_backup hno ha (Function.update_self ..)
  · obtain ⟨content, hcontent⟩ :=
      Option.isSome_iff_exists.mp (AList.lookup_isSome.mpr (Disk.leaves_sound hother).1)
    have hread : d.read other = some content := hcontent
    rw [hread]
    refine hkeeps.lookup_of_no_backup hno (Disk.isArtifact_of_leaf hother hkind) ?_
    rw [Function.update_of_ne hne]
    exact hcontent
  · cases hbackup : artifactOfBackup? leaf with
    | none => rfl
    | some artifact =>
      exact absurd (Disk.isBackup_of_leaf hpath hbackup) (hno _ (Disk.leaves_sound hpath).1)
  · obtain ⟨result, m, hinstall, -, ⟨rfl, -⟩ | ⟨_, -, hread⟩⟩ :=
      ArtifactGuard.install_keeps hclean' ha ho mutant fates
    · have hok : installed.1 = .ok (ArtifactGuard.whole path o) := congrArg Prod.fst hinstall
      rw [hok] at he
      cases he
    · have hdisk : installed.2 = m := congrArg Prod.snd hinstall
      rwa [hdisk]

/-- The process dies while it replaces the artifact, and leaves a new file. -/
theorem artifact_after_broken_replacement :
    let dir : Path := ['c']
    let path : Path := "c/A.class".toList
    let d : Disk := AList.insert path.steps [1, 2, 3] ∅
    let fates : List Fate := [.done, .broken true (some 2) (some ⟨['x', '7'], rfl⟩)]
    let broken := (ArtifactGuard.swap Mortal.host path [4] ⟨d, fates, true⟩).2.disk
    let after := (CommandLine.putBackAll Mortal.host
      (interruptedRuns Mortal.host (.sound broken) dir) (.sound broken)).2.disk
    broken.leaves dir = ["c/.tmpx7".toList, "c/.A.class.droidmut.bak".toList, path] ∧
      after.read path = some [1, 2, 3] := by
  intro dir path d fates broken after
  have hclean : ∀ leaf ∈ d.leaves dir, artifactOfBackup? leaf = none := by decide +kernel
  have hleaf : path ∈ d.leaves dir := by decide +kernel
  have hname : (Path.fileName? path).any isArtifactName = true := by decide +kernel
  have ho : d.read path = some [1, 2, 3] := AList.lookup_insert _
  have hbroken : broken.leaves dir =
      ["c/.tmpx7".toList, "c/.A.class.droidmut.bak".toList, path] := by decide +kernel
  exact ⟨hbroken, (artifact_after_broken_swap hclean hleaf hname ho [4] fates).1⟩

/-- The process dies when one byte of the backup is written. Only this byte is left of the artifact.
-/
theorem broken_backup_damages_artifact :
    let dir : Path := ['c']
    let path : Path := "c/A.class".toList
    let d : Disk := AList.insert path.steps [1, 2, 3] ∅
    let broken := (ArtifactGuard.swap Mortal.host path [4]
      ⟨d, [.broken true (some 1) none], true⟩).2.disk
    let after := (CommandLine.putBackAll Mortal.host
      (interruptedRuns Mortal.host (.sound broken) dir) (.sound broken)).2.disk
    (∀ leaf ∈ d.leaves dir, artifactOfBackup? leaf = none) ∧ path ∈ d.leaves dir ∧
      (Path.fileName? path).any isArtifactName = true ∧ d.read path = some [1, 2, 3] ∧
      broken.read path = some [1, 2, 3] ∧ after.read path = some [1] := by
  decide +kernel

end MutationTesting
