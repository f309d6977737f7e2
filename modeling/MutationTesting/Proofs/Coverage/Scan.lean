import MutationTesting.Coverage.Ingest
import MutationTesting.Machine.Host
import MutationTesting.Proofs.Class.Location
import MutationTesting.Proofs.FileSystem.Listing
import MutationTesting.Proofs.Host.Order
/-!
# The artifacts below a directory

A scan goes through the files below a directory, keeps the class artifacts among them and sorts
their paths. In a tree each file has a path of its own, so that the list is strictly sorted; it holds
the artifacts below the directory and nothing else, in whatever order the directories are listed.

## Main definitions

* `FileSystem.HoldsArtifact` — the artifacts below a directory

## Main results

* `Path.sort_pairwise_lt` — a sorted list of different files
* `exists_scan` — what a scan finds
* `scanArtifacts_eq_of_reorders`, `readClass_eq_of_reorders` — directories in another order
-/

namespace MutationTesting

/-! ### Paths below a directory -/

namespace Path

/-- **A sorted list of files** is strictly sorted if they are different. -/
theorem sort_pairwise_lt {ps : List Path} (h : (ps.map components).Nodup) :
    (sort ps).Pairwise fun a b => compareSteps (components a) (components b) = .lt := by
  have := transCmp_comap compareSteps components
  have hle : (sort ps).Pairwise fun a b =>
      (compareSteps (components a) (components b)).isLE = true := pairwise_mergeSort_isLE ps
  have hne : (sort ps).Pairwise fun a b => components a ≠ components b :=
    List.pairwise_map.mp (((List.mergeSort_perm ps le).map components).nodup_iff.mpr h)
  exact hle.imp₂ (fun _ _ => lt_of_isLE_of_ne) hne

end Path

/-! ### Artifacts -/

/-- What is listed for a way below a directory is the file at its end. -/
theorem any_isArtifactName_iff {dir : Path} {way : List Octets} {n : Octets}
    (h : ∀ m ∈ way ++ [n], Path.isName m = true) :
    (Path.fileName? (Path.join dir (Path.joined (way ++ [n])))).any isArtifactName =
      isArtifactName n := by
  rw [← Path.lastName?_steps, Path.steps_join dir (by simp) h, List.map_append,
    ← List.append_assoc, List.map_singleton, Path.lastName?_concat]
  rfl

/-- Below a directory there is an artifact, which a search from the path of the directory finds at
the location. -/
def FileSystem.HoldsArtifact (fs : FileSystem) (dir : Path) (n : Nat) (location : Path) : Prop :=
  ∃ way file, fs.HoldsFile n (way ++ [file]) ∧ isArtifactName file = true ∧
    location = Path.join dir (Path.joined (way ++ [file]))

variable {m m' : Machine} {dir : Path} {n : Nat}

/-- The files below a directory are those of the node that it leads to. -/
theorem Machine.filesBelow_of_find (hdir : m.files.find .follow m.home dir = .ok n)
    (hn : m.files.isDirectory n = true) : m.filesBelow dir =
      some ((m.files.regularBelow n).map fun way => Path.join dir (Path.joined way)) := by
  rw [filesBelow, hdir]
  simp only [hn, if_true]

/-- Each file below a directory has components of its own. -/
theorem nodup_components_below {fs : FileSystem} (htree : fs.IsTree) (dir : Path)
    (hn : fs.isDirectory n = true) : (((fs.regularBelow n).map fun way =>
      Path.join dir (Path.joined way)).map Path.components).Nodup := by
  rw [List.map_map]
  refine List.Nodup.map_on (fun way hway way' hway' heq => ?_)
    (FileSystem.nodup_regularBelow htree n)
  have h := (FileSystem.mem_regularBelow_iff htree hn).mp hway
  have h' := (FileSystem.mem_regularBelow_iff htree hn).mp hway'
  exact Path.eq_of_components_join h.ne_nil h'.ne_nil (h.isName htree) (h'.isName htree) heq

theorem scanArtifacts_of_find (hdir : m.files.find .follow m.home dir = .ok n)
    (hn : m.files.isDirectory n = true) : scanArtifacts Machine.host m dir =
      .ok (Path.sort (((m.files.regularBelow n).map fun way => Path.join dir
        (Path.joined way)).filter fun p => (Path.fileName? p).any isArtifactName)) := by
  have hfiles : Machine.host.filesBelow m dir = _ := Machine.filesBelow_of_find hdir hn
  rw [scanArtifacts, hfiles]

/-- **What a scan finds**: the artifacts below the directory, each once and in order. -/
theorem exists_scan (htree : m.files.IsTree)
    (hdir : m.files.find .follow m.home dir = .ok n) (hn : m.files.isDirectory n = true) :
    ∃ paths, scanArtifacts Machine.host m dir = .ok paths ∧
      (∀ location, location ∈ paths ↔ m.files.HoldsArtifact dir n location) ∧
      paths.Pairwise fun a b => Path.compareSteps a.components b.components = .lt := by
  refine ⟨_, scanArtifacts_of_find hdir hn, fun location => ?_, Path.sort_pairwise_lt
    ((nodup_components_below htree dir hn).sublist (List.filter_sublist.map _))⟩
  rw [Path.sort, List.mem_mergeSort, List.mem_filter, List.mem_map]
  constructor
  · rintro ⟨⟨way, hway, rfl⟩, hartifact⟩
    have hfile := (FileSystem.mem_regularBelow_iff htree hn).mp hway
    obtain ⟨init, file, rfl⟩ : ∃ init file, way = init ++ [file] :=
      way.eq_nil_or_concat'.resolve_left hfile.ne_nil
    rw [any_isArtifactName_iff (hfile.isName htree)] at hartifact
    exact ⟨init, file, hfile, hartifact, rfl⟩
  · rintro ⟨way, file, hfile, hartifact, rfl⟩
    refine ⟨⟨way ++ [file], (FileSystem.mem_regularBelow_iff htree hn).mpr hfile, rfl⟩, ?_⟩
    rwa [any_isArtifactName_iff (hfile.isName htree)]

/-! ### Directories in another order -/

/-- **Directories in another order** make no difference to a scan. -/
theorem scanArtifacts_eq_of_reorders (htree : m.files.IsTree) (hhome : m.home = m'.home)
    (h : m.files.Reorders m'.files) :
    scanArtifacts Machine.host m dir = scanArtifacts Machine.host m' dir := by
  have hfind : m'.files.find .follow m'.home dir = m.files.find .follow m.home dir := by
    rw [← hhome, h.find_eq htree]
  cases hdir : m.files.find .follow m.home dir with
  | error e =>
    have hdir' := hfind.trans hdir
    simp only [scanArtifacts, Machine.host, Machine.filesBelow, hdir, hdir']
  | ok n =>
    have hdir' := hfind.trans hdir
    by_cases hn : m.files.isDirectory n = true
    · rw [scanArtifacts_of_find hdir hn,
        scanArtifacts_of_find hdir' ((h.isDirectory_eq n).symm.trans hn)]
      have hfiles := (h.regularBelow_perm htree hn).map fun way => Path.join dir (Path.joined way)
      refine congrArg Except.ok (Path.sort_eq_of_perm (hfiles.filter _) fun p hp q hq heq => ?_)
      exact List.inj_on_of_nodup_map (nodup_components_below htree dir hn)
        (List.mem_of_mem_filter hp) (List.mem_of_mem_filter hq) heq
    · have hn' := h.isDirectory_eq n ▸ hn
      simp only [scanArtifacts, Machine.host, Machine.filesBelow, hdir, hdir', hn, hn',
        Bool.false_eq_true, if_false]

theorem readClass_eq_of_reorders (htree : m.files.IsTree) (hhome : m.home = m'.home)
    (h : m.files.Reorders m'.files) (path : Path) :
    readClass Machine.host m path = readClass Machine.host m' path := by
  have hread : Machine.host.read m path = Machine.host.read m' path :=
    congrArg Except.toOption (hhome ▸ h.read_eq htree m.home path)
  rw [readClass, hread, readClass]

end MutationTesting
