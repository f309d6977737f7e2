import MutationTesting.Proofs.Coverage.Scan
/-!
# Classes are found where they are stored

The artifacts below a directory of classes are found by going through all files there. From the path
of each the name of its class is read off. If the artifacts are where classes are stored, this leads
back to the names: there is one path for each class, the name is read off it again, and so the index
has the class under its name and nothing else. Files that are no artifacts may lie beside them,
under whatever names.

## Main results

* `LocationIndex.ofPaths_map` — the index of the paths of classes
* `classes_are_found_where_they_are_stored`
-/

namespace MutationTesting

/-- Different classes have different artifacts. -/
theorem nodup_map_artifactPath (dir : Path) {names : List String}
    (hplain : ∀ name ∈ names, IsPlainName name) (hnodup : names.Nodup) :
    (names.map (artifactPath dir)).Nodup :=
  hnodup.map_on fun name hname name' hname' =>
    artifactPath_inj (hplain name hname) (hplain name' hname')

/-- Paths of classes in some order are those of the names in some order. -/
theorem exists_ordered_names {dir : Path} {names : List String} {paths : List Path}
    (hplain : ∀ name ∈ names, IsPlainName name) (h : paths.Perm (names.map (artifactPath dir))) :
    ∃ ordered : List String, ordered.Perm names ∧ paths = ordered.map (artifactPath dir) := by
  have hback : (names.map (artifactPath dir)).filterMap (internalName? dir) = names := by
    have hread : names.filterMap (internalName? dir ∘ artifactPath dir) = names.filterMap some :=
      List.filterMap_congr fun name hname => internalName?_artifactPath dir (hplain name hname)
    rw [List.filterMap_map, hread, List.filterMap_some]
  refine ⟨paths.filterMap (internalName? dir), hback ▸ h.filterMap _, ?_⟩
  have hwritten : paths.filterMap (fun p => (internalName? dir p).map (artifactPath dir)) =
      paths.filterMap some := by
    refine List.filterMap_congr fun p hp => ?_
    obtain ⟨name, hname, rfl⟩ := List.mem_map.mp (h.mem_iff.mp hp)
    rw [internalName?_artifactPath dir (hplain name hname), Option.map_some]
  rw [List.map_filterMap, hwritten, List.filterMap_some]

/-! ### The index -/

namespace LocationIndex

variable {dir : Path} {names : List String}

/-- **The index of the paths of classes**: each class is under its name. -/
theorem ofPaths_map (dir : Path) (hplain : ∀ name ∈ names, IsPlainName name)
    (hnodup : names.Nodup) : ofPaths dir (names.map (artifactPath dir)) =
      names.map fun name => (name, artifactPath dir name) := by
  induction names using List.reverseRecOn with
  | nil => rfl
  | append_singleton names name ih =>
    obtain ⟨hnames, hname⟩ := List.forall_mem_append.mp hplain
    have hfresh : name ∉ names := fun hmem =>
      List.disjoint_of_nodup_append hnodup hmem (List.mem_singleton_self name)
    rw [ofPaths] at ih ⊢
    rw [List.map_append, List.foldl_append, ih hnames (List.Nodup.of_append_left hnodup),
      List.map_singleton, List.foldl_cons, List.foldl_nil,
      internalName?_artifactPath dir (hname name (List.mem_singleton_self name)),
      List.map_append, List.map_singleton]
    refine congrArg (· ++ _) (List.filter_eq_self.mpr fun e he => ?_)
    obtain ⟨other, hother, rfl⟩ := List.mem_map.mp he
    exact bne_iff_ne.mpr fun heq => hfresh (heq ▸ hother)

/-- A class is found iff it is in the index. -/
theorem locate?_map (f : String → Path) (name : String) :
    locate? (names.map fun name => (name, f name)) name =
      if name ∈ names then some (f name) else none := by
  rw [locate?]
  induction names with
  | nil => rfl
  | cons first names ih =>
    rw [List.map_cons, List.lookup_cons, ih]
    by_cases h : name = first
    · simp [h]
    · rw [beq_eq_false_iff_ne.mpr h]
      simp [h]

end LocationIndex

/-! ### Artifacts of a tree -/

variable {m : Machine} {dir : Path} {n : Nat} {names : List String}

/-- **The artifacts that are found** below a directory, if they are where classes are stored. -/
theorem exists_scanArtifacts (htree : m.files.IsTree)
    (hdir : m.files.find .follow m.home dir = .ok n) (hn : m.files.isDirectory n = true)
    (hplain : ∀ name ∈ names, IsPlainName name) (hnodup : names.Nodup)
    (hstored : ∀ name ∈ names, ∃ way, m.files.HoldsFile n way ∧
      Path.join dir (Path.joined way) = artifactPath dir name)
    (honly : ∀ way file, m.files.HoldsFile n (way ++ [file]) → isArtifactName file = true →
      ∃ name ∈ names, Path.join dir (Path.joined (way ++ [file])) = artifactPath dir name) :
    ∃ paths, scanArtifacts Machine.host m dir = .ok paths ∧
      paths.Perm (names.map (artifactPath dir)) ∧
      paths.Pairwise fun a b => Path.compareSteps a.components b.components = .lt := by
  obtain ⟨paths, hscan, hpaths, hsorted⟩ := exists_scan htree hdir hn
  have hself (p : Path) : Path.compareSteps p.components p.components = .eq :=
    Std.ReflCmp.compare_self
  have hdistinct : paths.Nodup := hsorted.imp fun {p q} hlt heq => by
    rw [heq, hself] at hlt
    cases hlt
  refine ⟨paths, hscan, ?_, hsorted⟩
  refine (List.perm_ext_iff_of_nodup hdistinct
    (nodup_map_artifactPath dir hplain hnodup)).mpr fun p => ?_
  rw [hpaths, List.mem_map]
  constructor
  · rintro ⟨way, file, hfile, hartifact, rfl⟩
    obtain ⟨name, hname, heq⟩ := honly way file hfile hartifact
    exact ⟨name, hname, heq.symm⟩
  · rintro ⟨name, hname, rfl⟩
    obtain ⟨way, hfile, heq⟩ := hstored name hname
    obtain ⟨init, file, rfl⟩ : ∃ init file, way = init ++ [file] :=
      way.eq_nil_or_concat'.resolve_left hfile.ne_nil
    have hartifact := fileName?_artifactPath dir (hplain name hname)
    rw [← heq, any_isArtifactName_iff (hfile.isName htree)] at hartifact
    exact ⟨init, file, hfile, hartifact, heq.symm⟩

/-- **Classes are found where they are stored.** Below a directory the classes of some names, and no
other ones, have their artifacts; besides there are files with other names, hidden ones among them.
Then the scan lists the paths of these artifacts, each once and in order; the name of its class is
read off each of them; and the index has an entry for each class, finds it at the path of its
artifact, and finds nothing else. -/
theorem classes_are_found_where_they_are_stored (htree : m.files.IsTree)
    (hdir : m.files.find .follow m.home dir = .ok n) (hn : m.files.isDirectory n = true)
    (hplain : ∀ name ∈ names, IsPlainName name) (hnodup : names.Nodup)
    (hstored : ∀ name ∈ names, ∃ way, m.files.HoldsFile n way ∧
      Path.join dir (Path.joined way) = artifactPath dir name)
    (honly : ∀ way file, m.files.HoldsFile n (way ++ [file]) → isArtifactName file = true →
      ∃ name ∈ names, Path.join dir (Path.joined (way ++ [file])) = artifactPath dir name) :
    (∃ paths, scanArtifacts Machine.host m dir = .ok paths ∧
      paths.Perm (names.map (artifactPath dir)) ∧
      paths.Pairwise fun a b => Path.compareSteps a.components b.components = .lt) ∧
    (∀ name ∈ names, internalName? dir (artifactPath dir name) = some name) ∧
    ∃ index, LocationIndex.build Machine.host m dir = .ok index ∧ index.length = names.length ∧
      (∀ name ∈ names, index.locate? name = some (artifactPath dir name)) ∧
      ∀ name ∉ names, index.locate? name = none := by
  obtain ⟨paths, hscan, hperm, hsorted⟩ :=
    exists_scanArtifacts htree hdir hn hplain hnodup hstored honly
  refine ⟨⟨paths, hscan, hperm, hsorted⟩, fun name hname =>
    internalName?_artifactPath dir (hplain name hname), ?_⟩
  -- the names in the order of the paths
  obtain ⟨ordered, hordered, rfl⟩ := exists_ordered_names hplain hperm
  have hplain' : ∀ name ∈ ordered, IsPlainName name := fun name hname =>
    hplain name (hordered.mem_iff.mp hname)
  refine ⟨ordered.map fun name => (name, artifactPath dir name), ?_, ?_, fun name hname => ?_,
    fun name hname => ?_⟩
  · rw [LocationIndex.build, hscan, Except.map,
      LocationIndex.ofPaths_map dir hplain' (hordered.nodup_iff.mpr hnodup)]
  · rw [List.length_map, hordered.length_eq]
  · rw [LocationIndex.locate?_map, if_pos (hordered.mem_iff.mpr hname)]
  · rw [LocationIndex.locate?_map, if_neg (mt hordered.mem_iff.mp hname)]

/-- A directory of two classes, one of them in a package. A backup, the file of a claim, a hidden
class and notes lie beside them. -/
def storedClasses : FileSystem where
  nodes := [
    (0, ⟨.directory 0 [("classes".toList, 1)], FileSystem.directoryMode, 0⟩),
    (1, ⟨.directory 0 [("A.class".toList, 2), ("com".toList, 3),
      (".A.class.droidmut.bak".toList, 5), (".droidmut.lock".toList, 6), (".H.class".toList, 7)],
      FileSystem.directoryMode, 0⟩),
    (3, ⟨.directory 1 [("B.class".toList, 4), ("notes.txt".toList, 8)],
      FileSystem.directoryMode, 0⟩)] ++
    [2, 4, 5, 6, 7, 8].map fun n => (n, ⟨.file [], Machine.fileMode, 0⟩)
  issued := 9
  clock := 0

theorem classes_beside_other_files_are_found :
    (∃ paths, scanArtifacts Machine.host (Machine.ofFiles storedClasses 0) "classes".toList =
        .ok paths ∧
      paths.Perm (["A", "com/B"].map (artifactPath "classes".toList)) ∧
      paths.Pairwise fun a b => Path.compareSteps a.components b.components = .lt) ∧
    (∀ name ∈ ["A", "com/B"],
      internalName? "classes".toList (artifactPath "classes".toList name) = some name) ∧
    ∃ index, LocationIndex.build Machine.host (Machine.ofFiles storedClasses 0)
        "classes".toList = .ok index ∧ index.length = ["A", "com/B"].length ∧
      (∀ name ∈ ["A", "com/B"],
        index.locate? name = some (artifactPath "classes".toList name)) ∧
      ∀ name ∉ ["A", "com/B"], index.locate? name = none := by
  have htree : storedClasses.IsTree := FileSystem.IsOrdered.isTree (by decide)
  have hwalk : storedClasses.walk .follow FileSystem.linkLimit 0 ["classes".toList] =
      .ok ⟨0, some "classes".toList, some 1⟩ := by
    rw [FileSystem.walk]
    rfl
  have hfind : storedClasses.find .follow 0 "classes".toList = .ok 1 := by
    change (storedClasses.walk .follow FileSystem.linkLimit 0 ["classes".toList] >>= _) >>= _ = _
    rw [hwalk]
    rfl
  have hartifacts : ∀ way ∈ storedClasses.regularBelow 1, way.getLast?.any isArtifactName = true →
      ∃ name ∈ ["A", "com/B"], Path.join "classes".toList (Path.joined way) =
        artifactPath "classes".toList name := by
    decide
  refine classes_are_found_where_they_are_stored (n := 1) htree hfind rfl ?_ (by decide) ?_ ?_
  · decide
  · refine List.forall_mem_cons.mpr ⟨⟨["A.class".toList], .here (k := 2) ?_ rfl, ?_⟩,
      List.forall_mem_singleton.mpr ⟨["com".toList, "B.class".toList],
        .through (k := 3) ?_ rfl (.here (k := 4) ?_ rfl), ?_⟩⟩
    all_goals decide
  · intro way file hfile hartifact
    have hlisted := (FileSystem.mem_regularBelow_iff htree rfl).mpr hfile
    refine hartifacts (way ++ [file]) hlisted ?_
    rw [List.getLast?_concat, Option.any_some, hartifact]

end MutationTesting
