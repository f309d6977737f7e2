import MutationTesting.Proofs.Run.Guards
/-!
# What is found of guards that are live

A search for backups goes over links to directories. It finds the backup of a live guard once for
each path of its directory that it comes to, and nothing else. Putting back what is found brings the
first tree back with the first path of each guard, and fails with every further one. If no link
below the directory leads to a directory, each guard is found once.

## Main definitions

* `LiveGuard.IsFound` — what is found of a guard
* `Machine.NoLinkToDirectory`

## Main results

* `LiveGuards.Holds.mem_interruptedRuns_iff` — what is found
* `LiveGuards.Holds.putBackAll` — what putting back does
* `LiveGuards.Holds.map_interruptedRuns` — what is found without links to directories
* `live_guards_are_found_and_put_back`
-/

namespace MutationTesting

open FileSystem

/-! ### Pairs of paths -/

/-- The artifact of a guard and its backup. -/
def ArtifactGuard.pair (g : ArtifactGuard) : Path × Path := (g.path, g.backup)

theorem pairwise_interruptedRuns {σ : Type} (host : Host σ) (s : σ) (dir : Path) :
    (interruptedRuns host s dir).Pairwise (pairLe · · = true) :=
  pairwise_mergeSort_pairLe _

/-- What is found of a guard: a backup behind the path of its directory, to which a search comes,
and the artifact beside it. -/
def LiveGuard.IsFound (l : LiveGuard) (m₀ : Machine) (dir : Path) (pair : Path × Path) : Prop :=
  ∃ above, m₀.files.Opens m₀.home (pathLimit - 1) dir above ∧
    m₀.files.LeadsTo m₀.home above (l.slot m₀).1 ∧
    pair.2 = Path.join above (l.slot m₀).backup.2 ∧
    pair.1 = Path.withFileName pair.2 (l.slot m₀).2

/-- The artifact of a backup whose name is known. -/
theorem artifactOfBackup?_join (above : Path) {name : Octets} (h : Path.isName name = true) :
    artifactOfBackup? (Path.join above name) =
      (artifactName? name).map (Path.withFileName (Path.join above name)) := by
  rw [artifactOfBackup?, Path.fileName?_join above h, Option.bind_some]

/-- No link below the directory leads to a directory. -/
def Machine.NoLinkToDirectory (m : Machine) (dir : Path) : Prop :=
  ∀ n, m.files.LeadsTo m.home dir n → m.files.NoLinkToDirectory m.home dir n

namespace Machine

variable {m : Machine} {dir p q : Path} {slot : Slot}

theorem mem_leavesBelow_iff (htree : m.files.IsTree) : q ∈ m.leavesBelow dir ↔
    ∃ above n name, m.files.Opens m.home (pathLimit - 1) dir above ∧
      m.files.LeadsTo m.home above n ∧ (m.files.entry? n name).isSome = true ∧
      m.files.leadsToDirectory m.home (Path.join above name) = false ∧
      q = Path.join above name :=
  mem_leavesFrom_iff htree

/-- A backup is found once. -/
theorem nodup_interruptedRuns (htree : m.files.IsTree) (dir : Path) :
    (interruptedRuns host m dir).Nodup := by
  have hleaves : (host.leavesBelow m dir).Nodup := nodup_leavesFrom htree m.home pathLimit dir
  refine (List.mergeSort_perm _ _).nodup_iff.mpr
    (hleaves.filterMap fun path path' pair hpath hpath' => ?_)
  obtain ⟨artifact, -, rfl⟩ := Option.map_eq_some_iff.mp hpath
  obtain ⟨artifact', -, heq⟩ := Option.map_eq_some_iff.mp hpath'
  exact (Prod.mk.inj heq).2.symm

end Machine

section

variable {artifacts : List Path} {dir p : Path} {m₀ m : Machine} {live : LiveGuards}
  {l : LiveGuard} {slot : Slot} {pair : Path × Path}

namespace LiveGuard.IsFound

/-- The backup that is found has the name in which its path ends. -/
theorem backup_eq {place : List Path.Component} {name : Octets} {links k : Nat}
    (h : l.IsFound m₀ dir pair) (hslot : (l.slot m₀).IsArtifact)
    (hsteps : Path.steps pair.2 = place ++ [.name name])
    (hreach : m₀.files.Reaches m₀.home place links k) : (l.slot m₀).backup = (k, name) := by
  obtain ⟨above, -, ⟨-, -, links', hreach'⟩, hback, -⟩ := h
  rw [hback, Path.steps_join_name above hslot.isName_backup] at hsteps
  obtain ⟨rfl, hname⟩ := List.append_inj' hsteps rfl
  exact Prod.ext (hreach'.unique hreach) (Path.Component.name.inj (List.cons.inj hname).1)

/-- A pair is found of one guard only. -/
theorem slot_eq {l' : LiveGuard} (h : l.IsFound m₀ dir pair) (h' : l'.IsFound m₀ dir pair)
    (hslot : (l.slot m₀).IsArtifact) (hslot' : (l'.slot m₀).IsArtifact) :
    l.slot m₀ = l'.slot m₀ := by
  obtain ⟨above, -, ⟨-, -, links, hreach⟩, hback, -⟩ := id h'
  have hsteps := Path.steps_join_name above hslot'.isName_backup
  exact hslot.backup_inj hslot' (h.backup_eq hslot (hback ▸ hsteps) hreach)

/-- **A pair that can be followed** ends in the artifact of the guard and in its backup. -/
theorem endsIn (h : l.IsFound m₀ dir pair) (hguards : l.Guards artifacts dir m₀)
    (hshort : pair.2.length < pathLimit) :
    m₀.EndsIn pair.1 (l.slot m₀) ∧ m₀.EndsIn pair.2 (l.slot m₀).backup := by
  obtain ⟨above, -, ⟨habove, -, links, hreach⟩, hback, hpath⟩ := h
  have hslot := hguards.isArtifact
  have hname : Path.fileName? pair.2 = some (l.slot m₀).backup.2 := by
    rw [hback, Path.fileName?_join above hslot.isName_backup]
  have hsteps : Path.steps pair.2 = Path.steps above ++ [.name (l.slot m₀).backup.2] := by
    rw [hback, Path.steps_join_name above hslot.isName_backup]
  have hsteps' : Path.steps pair.1 = Path.steps above ++ [.name (l.slot m₀).2] := by
    rw [hpath, Path.steps_withFileName (by rw [hname]; exact nofun) hslot.1, hsteps,
      Path.sibling_concat]
  have hIsPath : IsPath pair.2 := by
    rw [hback] at hshort ⊢
    exact isPath_leading_append habove.plain hslot.isName_backup hguards.beside.plain hshort
  refine ⟨⟨?_, ?_, hguards.endsIn.admits, Path.steps above, links, hsteps', hreach⟩,
    ⟨hIsPath, ?_, hguards.beside.admits, Path.steps above, links, hsteps, hreach⟩⟩
  · rw [hpath]
    exact hIsPath.withFileName hname hslot.1 hguards.endsIn.plain hslot.length_lt_backup
  · rw [hpath]
    exact Machine.meansDirectory_withFileName hname hslot.1
  · rw [hback]
    exact Path.meansDirectory_join above hslot.isName_backup

end LiveGuard.IsFound

namespace LiveGuards.Holds

variable (h : Holds artifacts dir m₀ live m)

include h

/-- A backup that was not found in the beginning is that of a live guard. -/
theorem exists_guard_of_backup (hsound₀ : m₀.files.IsSound)
    (hclean : interruptedRuns Machine.host m₀ dir = []) {above : Path} {k : Nat}
    {name artifact : Octets} (hopens : m₀.files.Opens m₀.home (pathLimit - 1) dir above)
    (hlead : m₀.files.LeadsTo m₀.home above k)
    (hinner : m₀.files.leadsToDirectory m₀.home (Path.join above name) = false)
    (hname : Path.isName name = true) (hartifact : artifactName? name = some artifact)
    (hlook : m.files.look (k, name) ≠ none) : ∃ l ∈ live, (k, name) = (l.slot m₀).backup := by
  by_contra hno
  push Not at hno
  have hrest : m.files.look (k, name) = m₀.files.look (k, name) := by
    refine h.rest (k, name) fun l hl => ⟨fun heq => ?_, hno l hl⟩
    have hnone := artifactName?_of_isArtifactName (h.guards l hl).isArtifact.2
    rw [← heq, hartifact] at hnone
    cases hnone
  have hentry : (m₀.files.entry? k name).isSome = true :=
    Option.isSome_iff_ne_none.mpr fun hnone => hlook (hrest.trans (look_eq_none_iff.mpr hnone))
  have hleaf : Path.join above name ∈ Machine.host.leavesBelow m₀ dir :=
    (Machine.mem_leavesBelow_iff hsound₀.toIsTree).mpr
      ⟨above, k, name, hopens, hlead, hentry, hinner, rfl⟩
  have hpair : (Path.withFileName (Path.join above name) artifact, Path.join above name) ∈
      interruptedRuns Machine.host m₀ dir := by
    refine mem_interruptedRuns.mpr ⟨hleaf, ?_⟩
    rw [artifactOfBackup?_join above hname, hartifact, Option.map_some]
  rw [hclean] at hpair
  cases hpair

/-- **What is found** are the live guards, once for each path of their directories to which the
search comes. -/
theorem mem_interruptedRuns_iff (hsound₀ : m₀.files.IsSound)
    (hclean : interruptedRuns Machine.host m₀ dir = []) :
    pair ∈ interruptedRuns Machine.host m dir ↔ ∃ l ∈ live, l.IsFound m₀ dir pair := by
  have htree := h.sound.toIsTree
  rw [mem_interruptedRuns]
  constructor
  · rintro ⟨hleaf, hartifact⟩
    obtain ⟨above, k, name, hopens, hlead, hentry, hinner, hback⟩ :=
      (Machine.mem_leavesBelow_iff htree).mp hleaf
    obtain ⟨i, hi⟩ := Option.isSome_iff_exists.mp hentry
    have hname := htree.isName hi
    have hlook : m.files.look (k, name) ≠ none := by
      rw [look, show m.files.entry? (k, name).1 (k, name).2 = some i from hi]
      exact Option.some_ne_none _
    rw [hback, artifactOfBackup?_join above hname] at hartifact
    obtain ⟨artifact, hsome, hpath⟩ := Option.map_eq_some_iff.mp hartifact
    rw [h.opens_iff hsound₀] at hopens
    rw [h.leadsTo_iff] at hlead
    rw [h.leadsToDirectory_eq] at hinner
    obtain ⟨l, hl, hslot⟩ :=
      h.exists_guard_of_backup hsound₀ hclean hopens hlead hinner hname hsome hlook
    obtain ⟨rfl, rfl⟩ := Prod.mk.inj hslot
    obtain rfl := Option.some.inj
      (hsome.symm.trans (h.guards l hl).isArtifact.artifactName?_backup)
    exact ⟨l, hl, above, hopens, hlead, hback, by rw [hback, hpath]⟩
  · rintro ⟨l, hl, above, hopens, hlead, hback, hpath⟩
    have hslot := (h.guards l hl).isArtifact
    obtain ⟨i, hentry, hform⟩ := look_eq_file_iff.mp (h.inPlace l hl).saved
    rw [← h.opens_iff hsound₀] at hopens
    rw [← h.leadsTo_iff] at hlead
    refine ⟨(Machine.mem_leavesBelow_iff htree).mpr ⟨above, (l.slot m₀).backup.1,
      (l.slot m₀).backup.2, hopens, hlead, by rw [hentry]; rfl, ?_, hback⟩, ?_⟩
    · rw [← Bool.not_eq_true]
      intro hinner
      exact hlead.ne_file hslot.isName_backup hentry hinner _ hform
    · rw [hpath, hback, artifactOfBackup?_join above hslot.isName_backup,
        hslot.artifactName?_backup, Option.map_some]

/-- A backup is a file. -/
theorem not_enters (hl : l ∈ live) : ¬ m.files.Enters (l.slot m₀).backup := by
  rintro ⟨links, links', k, hlead, -⟩
  obtain ⟨i, hentry, hform⟩ := look_eq_file_iff.mp (h.inPlace l hl).saved
  exact hlead.ne_file (h.guards l hl).isArtifact.isName_backup hentry _ hform

/-- **Each live guard is found** behind the path of the directory in which it is listed. -/
theorem exists_isFound (hsound₀ : m₀.files.IsSound)
    (hclean : interruptedRuns Machine.host m₀ dir = []) (hl : l ∈ live) :
    ∃ p pair, m₀.Lists dir p (l.slot m₀) ∧ l.IsFound m₀ dir pair ∧
      pair.1.components = p.components ∧
      pair.2.components = Path.sibling p.components (l.slot m₀).backup.2 := by
  have hslot := (h.guards l hl).isArtifact
  obtain ⟨p, -, hends, hlists⟩ := (h.guards l hl).listed
  obtain ⟨n, way, hlead, hway, rfl, hall, hsteps⟩ := hlists.exists_way hsound₀.toIsTree
  obtain ⟨-, links, hreach⟩ := hends.reaches_of_steps hsteps
  have hpath : way ≠ [] → IsPath (Path.join dir (Path.joined way)) :=
    hends.isPath.above (List.forall_mem_append.mpr ⟨hall, List.forall_mem_singleton.mpr hslot.1⟩)
  have hback : ∀ m ∈ way ++ [(l.slot m₀).backup.2], Path.isName m = true :=
    List.forall_mem_append.mpr ⟨hall, List.forall_mem_singleton.mpr hslot.isName_backup⟩
  have hreach' : m.files.Reaches m.home (dir.steps ++ way.map .name) links (l.slot m₀).1 := by
    rw [h.home]
    exact h.ways.leads hreach
  have hlook : m.files.look (l.slot m₀).backup ≠ none := by
    rw [(h.inPlace l hl).saved]
    exact nofun
  have hleaf := (Machine.mem_leavesBelow_or_enters h.sound.toIsTree hlook
    (h.leadsTo_iff.mpr hlead) (h.ways.descends hway) hreach' hpath).resolve_right (h.not_enters hl)
  have hfile := Machine.fileName?_join_joined dir hback
  obtain ⟨pair, hpair, hpath₁, hpath₂⟩ : ∃ pair ∈ interruptedRuns Machine.host m dir,
      pair.1 = Path.withFileName pair.2 (l.slot m₀).2 ∧
        pair.2 = Path.join dir (Path.joined (way ++ [(l.slot m₀).backup.2])) :=
    ⟨(_, _), mem_interruptedRuns.mpr
      ⟨hleaf, Machine.artifactOfBackup?_of_fileName hslot hfile⟩, rfl, rfl⟩
  obtain ⟨l', hl', hfound⟩ := (h.mem_interruptedRuns_iff hsound₀ hclean).mp hpair
  have hslot' := (h.guards l' hl').isArtifact
  have hend : Path.steps pair.2 =
      (dir.steps ++ way.map .name) ++ [.name (l.slot m₀).backup.2] := by
    rw [hpath₂, Path.steps_join dir (by simp) hback, List.map_append, List.append_assoc]
    rfl
  obtain rfl := h.eq_of_slot hl' hl
    (hslot'.backup_inj hslot (hfound.backup_eq hslot' hend hreach))
  have hlast : pair.2.components =
      (way.foldl Path.join dir).components ++ [.name (l'.slot m₀).backup.2] := by
    rw [hpath₂, Path.join_joined_concat dir hall hslot.isName_backup,
      Path.components_join_name _ hslot.isName_backup]
  refine ⟨_, pair, hlists, hfound, ?_, ?_⟩
  · rw [hpath₁, Path.components_withFileName (by rw [hpath₂, hfile]; exact nofun) hslot.1, hlast,
      Path.join_joined_concat dir hall hslot.1, Path.components_join_name _ hslot.1,
      Path.sibling_concat]
  · rw [hlast, Path.join_joined_concat dir hall hslot.1, Path.components_join_name _ hslot.1,
      Path.sibling_concat]

/-- The components of a guard for an artifact that is named as it is listed. -/
theorem pairComponents_eq (hsound₀ : m₀.files.IsSound)
    (hscan : scanArtifacts Machine.host m₀ dir = .ok artifacts) (hl : l ∈ live) {q : Path}
    (hlists : m₀.Lists dir p (l.slot m₀)) (hq : q ∈ artifacts)
    (hcomponents : q.components = l.guard.path.components) :
    pairComponents l.guard.pair =
      (p.components, Path.sibling p.components (l.slot m₀).backup.2) := by
  have htree₀ := hsound₀.toIsTree
  have hguards := h.guards l hl
  obtain ⟨slot, hlists'⟩ := (Machine.mem_scan_iff htree₀ hscan).mp hq
  obtain ⟨n, way, hlead, hway, -, -, hsteps⟩ := hlists'.exists_way htree₀
  have hsame : Path.steps l.guard.path = (dir.steps ++ way.map .name) ++ [.name slot.2] := by
    rw [← hsteps, Path.steps, Path.steps, hcomponents]
  obtain ⟨hname, links, hreach⟩ := hguards.endsIn.reaches_of_steps hsame
  obtain rfl : l.slot m₀ = slot := Prod.ext (hway.leads htree₀ hlead hreach).1 hname.symm
  obtain rfl := hlists.unique hlists' hsound₀
  have hfile := Stands.fileName? hguards.endsIn
  refine Prod.ext hcomponents.symm ?_
  change l.guard.backup.components = _
  rw [hguards.backup, Machine.backupPath_of_fileName hfile, Path.components_withFileName
    (by simp [hfile]) hguards.isArtifact.isName_backup, hcomponents]

/-! ### What is listed and read -/

theorem lists_iff : m.Lists dir p slot ↔ m₀.Lists dir p slot := by
  have hcontent (hslot : slot.IsArtifact) : (∃ content, m.files.look slot = some (.file content)) ↔
      ∃ content, m₀.files.look slot = some (.file content) := by
    by_cases hlive : ∃ l ∈ live, l.slot m₀ = slot
    · obtain ⟨l, hl, rfl⟩ := hlive
      exact iff_of_true ⟨_, (h.inPlace l hl).mutant⟩ ⟨_, (h.guards l hl).original⟩
    · push Not at hlive
      rw [h.look_free hslot hlive]
  constructor
  · rintro ⟨hslot, hlook, n, way, hlead, hway, rfl⟩
    exact ⟨hslot, (hcontent hslot).mp hlook, n, way, h.leadsTo_iff.mp hlead,
      h.ways.symm.descends hway, rfl⟩
  · rintro ⟨hslot, hlook, n, way, hlead, hway, rfl⟩
    exact ⟨hslot, (hcontent hslot).mpr hlook, n, way, h.leadsTo_iff.mpr hlead,
      h.ways.descends hway, rfl⟩

/-- **The same artifacts are listed.** -/
theorem scanArtifacts_eq (hsound₀ : m₀.files.IsSound)
    (hscan : scanArtifacts Machine.host m₀ dir = .ok artifacts) :
    scanArtifacts Machine.host m dir = .ok artifacts := by
  have hpairwise {m : Machine} (htree : m.files.IsTree) {n : Nat}
      (hlead : m.files.LeadsTo m.home dir n) : ∃ paths,
        scanArtifacts Machine.host m dir = .ok paths ∧
          paths.Pairwise fun a b => Path.compareSteps a.components b.components = .lt := by
    obtain ⟨hfind, hn⟩ := find_directory_iff.mpr hlead
    obtain ⟨paths, hpaths, -, hsorted⟩ := exists_scan htree hfind hn
    exact ⟨paths, hpaths, hsorted⟩
  obtain ⟨n, hlead⟩ := Machine.exists_leadsTo_of_scan hscan
  obtain ⟨paths, hpaths, hsorted⟩ := hpairwise h.sound.toIsTree (h.leadsTo_iff.mpr hlead)
  obtain ⟨paths₀, hpaths₀, hsorted₀⟩ := hpairwise hsound₀.toIsTree hlead
  obtain rfl := Except.ok.inj (hscan.symm.trans hpaths₀)
  have hirrefl (a b : Path) (hab : Path.compareSteps a.components b.components = .lt) : a ≠ b := by
    rintro rfl
    have hself : Path.compareSteps a.components a.components = .eq := Std.ReflCmp.compare_self
    rw [hself] at hab
    cases hab
  have hperm : paths.Perm artifacts := by
    refine (List.perm_ext_iff_of_nodup (hsorted.imp (hirrefl _ _))
      (hsorted₀.imp (hirrefl _ _))).mpr fun p => ?_
    rw [Machine.mem_scan_iff h.sound.toIsTree hpaths, Machine.mem_scan_iff hsound₀.toIsTree hscan]
    exact exists_congr fun slot => h.lists_iff
  rw [hpaths, hperm.eq_of_pairwise (fun a b _ _ hab hba => ?_) hsorted hsorted₀]
  have hswap : Path.compareSteps b.components a.components =
      (Path.compareSteps a.components b.components).swap := Std.OrientedCmp.eq_swap
  rw [hswap, hab] at hba
  cases hba

/-- An artifact that is listed has a live guard if its name has one. -/
theorem slot_ne (hsound₀ : m₀.files.IsSound) (hlists : m₀.Lists dir p slot)
    (hfree : ∀ l ∈ live, ¬ m₀.SameEnd l.guard.path p) : ∀ l ∈ live, l.slot m₀ ≠ slot := by
  rintro l hl rfl
  obtain ⟨q, -, hends, hlists'⟩ := (h.guards l hl).listed
  obtain rfl := hlists.unique hlists' hsound₀
  exact hfree l hl ⟨_, (h.guards l hl).endsIn, hends⟩

/-- **An artifact without a live guard** is read as in the beginning and has no backup. -/
theorem read_free (hsound₀ : m₀.files.IsSound)
    (hclean : interruptedRuns Machine.host m₀ dir = []) (hlists : m₀.Lists dir p slot)
    (hfree : ∀ l ∈ live, ¬ m₀.SameEnd l.guard.path p) :
    Machine.host.read m p = Machine.host.read m₀ p ∧
      Machine.host.read m (backupPath p) = none := by
  have htree₀ := hsound₀.toIsTree
  have hslots := h.slot_ne hsound₀ hlists hfree
  refine ⟨?_, hlists.read_backupPath htree₀ hclean h.home h.ways
    (h.look_free_backup hlists.isArtifact hslots)⟩
  obtain ⟨n, way, -, -, hp, hall, hsteps⟩ := hlists.exists_way htree₀
  have hends : meansDirectory p = false := by
    rw [hp, Path.join_joined_concat dir hall hlists.isArtifact.1]
    exact Path.meansDirectory_join _ hlists.isArtifact.1
  obtain ⟨content, hcontent⟩ := hlists.content
  have hlook : m.files.look slot = some (.file content) :=
    (h.look_free hlists.isArtifact hslots).trans hcontent
  by_cases hreach : m₀.EndsIn p slot
  · have hread := Machine.read_of_stands (h.endsIn hreach) hlook
    exact hread.trans (Machine.read_of_stands hreach hcontent).symm
  · -- a path that cannot be followed is not read at all
    have hnone {m' : Machine} (hnot : ∀ other, m'.EndsIn p other → m₀.EndsIn p other) :
        Machine.host.read m' p = none := by
      rw [Option.eq_none_iff_forall_ne_some]
      intro content hread
      obtain ⟨links, k, -, hends'⟩ :=
        Machine.exists_endsIn_of_read hread hends hsteps hlists.isArtifact.1
      have hends₀ := hnot _ hends'
      exact hreach (hlists.endsIn htree₀ hends₀ ▸ hends₀)
    rw [hnone fun _ hother => h.endsIn_iff.mp hother, hnone fun _ hother => hother]

/-! ### Putting back what is found -/

/-- The artifact of a live guard is put back from its backup. -/
theorem restoreFromBackup (hl : l ∈ live) (hpath : m₀.EndsIn pair.1 (l.slot m₀))
    (hback : m₀.EndsIn pair.2 (l.slot m₀).backup) :
    ∃ m', MutationTesting.restoreFromBackup Machine.host pair.1 pair.2 m = (.ok (), m') ∧
      Holds artifacts dir m₀ (live.erase l) m' := by
  have hslot := (h.guards l hl).isArtifact
  have hplace := h.inPlace l hl
  obtain ⟨files, hcopy, hturns⟩ := Machine.copy_of_stands h.sound (h.endsIn hback) hplace.saved
    (h.endsIn hpath) hslot.1 hplace.owns (hslot.backup_ne hslot)
  obtain ⟨m', hremove, hholds⟩ := h.removeBackup hl hturns (h.endsIn hback)
  refine ⟨m', ?_, hholds⟩
  rw [MutationTesting.restoreFromBackup, bind_of_eq hcopy, if_pos rfl, bind_of_eq hremove]
  rfl

/-- **Putting back** artifacts from backups. Each guard that is live is given up with the first path
that is found of it; nothing comes of any other path. -/
theorem putBackAll {pairs : List (Path × Path)}
    (hpairs : ∀ pair ∈ pairs, ∃ slot : Slot, slot.IsArtifact ∧
      m₀.files.look slot.backup = none ∧ m₀.EndsIn pair.1 slot ∧ m₀.EndsIn pair.2 slot.backup)
    (hall : ∀ l ∈ live, ∃ pair ∈ pairs, m₀.EndsIn pair.1 (l.slot m₀)) :
    ∃ failures m', CommandLine.putBackAll Machine.host pairs m = (failures, m') ∧
      failures.length + live.length = pairs.length ∧ Holds artifacts dir m₀ [] m' := by
  induction pairs generalizing m live with
  | nil =>
    obtain rfl : live = [] := List.eq_nil_iff_forall_not_mem.mpr fun l hl => by
      obtain ⟨pair, hpair, -⟩ := hall l hl
      cases hpair
    exact ⟨[], m, rfl, rfl, h⟩
  | cons pair pairs ih =>
    obtain ⟨⟨slot, hslot, hfresh, hpath, hback⟩, hrest⟩ := List.forall_mem_cons.mp hpairs
    have hothers (k : LiveGuard) (hk : k ∈ live) (hne : k.slot m₀ ≠ slot) :
        ∃ pair ∈ pairs, m₀.EndsIn pair.1 (k.slot m₀) := by
      obtain ⟨pair', hpair', hends⟩ := hall k hk
      obtain rfl | hpair' := List.mem_cons.mp hpair'
      · exact absurd (hends.unique hpath) hne
      · exact ⟨pair', hpair', hends⟩
    by_cases hlive : ∃ l ∈ live, l.slot m₀ = slot
    · obtain ⟨l, hl, rfl⟩ := hlive
      obtain ⟨m₁, hrestore, hholds⟩ := h.restoreFromBackup hl hpath hback
      have hnodup : live.Nodup := .of_map _ h.distinct
      obtain ⟨failures, m', hput, hlength, hlast⟩ := ih hholds hrest fun k hk => by
        obtain ⟨hne, hk⟩ := hnodup.mem_erase_iff.mp hk
        exact hothers k hk fun heq => hne (h.eq_of_slot hk hl heq)
      refine ⟨failures, m', ?_, ?_, hlast⟩
      · rw [CommandLine.putBackAll, bind_of_eq hrestore, bind_of_eq hput]
        rfl
      · have hpos := List.length_pos_of_mem hl
        rw [List.length_erase_of_mem hl] at hlength
        rw [List.length_cons]
        omega
    · push Not at hlive
      have hlook := (h.look_free_backup hslot hlive).trans hfresh
      have hfail : MutationTesting.restoreFromBackup Machine.host pair.1 pair.2 m =
          (.error (.io pair.1), m) :=
        bind_of_eq (Machine.copy_of_missing (h.endsIn hback) hlook pair.1)
      obtain ⟨failures, m', hput, hlength, hlast⟩ :=
        ih h hrest fun k hk => hothers k hk (hlive k hk)
      refine ⟨("✗ Failed to restore " ++ pair.1.text ++ ": " ++ (Failure.io pair.1).message) ::
        failures, m', ?_, ?_, hlast⟩
      · rw [CommandLine.putBackAll, bind_of_eq hfail, bind_of_eq hput]
        rfl
      · rw [List.length_cons, List.length_cons]
        omega

/-- **Putting back what is found** gives up all guards, and fails with every pair beyond them. -/
theorem putBackAll_interruptedRuns (hsound₀ : m₀.files.IsSound)
    (hclean : interruptedRuns Machine.host m₀ dir = [])
    (hshort : ∀ pair ∈ interruptedRuns Machine.host m dir, pair.2.length < pathLimit) :
    ∃ failures m', CommandLine.putBackAll Machine.host (interruptedRuns Machine.host m dir) m =
        (failures, m') ∧
      failures.length + live.length = (interruptedRuns Machine.host m dir).length ∧
      Holds artifacts dir m₀ [] m' := by
  have hmem (pair : Path × Path) : pair ∈ interruptedRuns Machine.host m dir ↔
      ∃ l ∈ live, l.IsFound m₀ dir pair := h.mem_interruptedRuns_iff hsound₀ hclean
  refine h.putBackAll (fun pair hpair => ?_) fun l hl => ?_
  · obtain ⟨l, hl, hfound⟩ := (hmem pair).mp hpair
    have hguards := h.guards l hl
    obtain ⟨hpath, hback⟩ := hfound.endsIn hguards (hshort pair hpair)
    exact ⟨_, hguards.isArtifact, hguards.fresh, hpath, hback⟩
  · obtain ⟨p, pair, -, hfound, -⟩ := h.exists_isFound hsound₀ hclean hl
    have hpair := (hmem pair).mpr ⟨l, hl, hfound⟩
    exact ⟨pair, hpair, (hfound.endsIn (h.guards l hl) (hshort pair hpair)).1⟩

end LiveGuards.Holds

/-! ### Guards that are found once -/

/-- A guard is found once if no link leads to a directory. -/
theorem LiveGuard.IsFound.eq_of_noLink {pair' : Path × Path} (h : l.IsFound m₀ dir pair)
    (h' : l.IsFound m₀ dir pair') (hsound₀ : m₀.files.IsSound) {n : Nat}
    (hlead : m₀.files.LeadsTo m₀.home dir n) (hlinks : m₀.NoLinkToDirectory dir) : pair = pair' := by
  obtain ⟨above, hopens, habove, hback, hpath⟩ := h
  obtain ⟨above', hopens', habove', hback', hpath'⟩ := h'
  have htree₀ := hsound₀.toIsTree
  obtain ⟨way, hway, rfl⟩ :=
    exists_descends_of_opens htree₀ (hlinks n hlead) hlead hopens habove
  obtain ⟨way', hway', rfl⟩ :=
    exists_descends_of_opens htree₀ (hlinks n hlead) hlead hopens' habove'
  obtain rfl := hsound₀.descends_inj hway hway'
  exact Prod.ext (by rw [hpath, hpath', hback, hback']) (hback.trans hback'.symm)

namespace LiveGuards.Holds

variable (h : Holds artifacts dir m₀ live m)

include h

/-- One pair of each guard is among those that are found. -/
theorem subperm_interruptedRuns (hsound₀ : m₀.files.IsSound)
    (hclean : interruptedRuns Machine.host m₀ dir = []) {pairOf : LiveGuard → Path × Path}
    (hpairOf : ∀ l ∈ live, l.IsFound m₀ dir (pairOf l)) :
    (live.map pairOf).Subperm (interruptedRuns Machine.host m dir) := by
  have hinj : ∀ l ∈ live, ∀ k ∈ live, pairOf l = pairOf k → l = k := fun l hl k hk heq =>
    h.eq_of_slot hl hk ((hpairOf l hl).slot_eq (heq ▸ hpairOf k hk) (h.guards l hl).isArtifact
      (h.guards k hk).isArtifact)
  have hnodup : live.Nodup := .of_map _ h.distinct
  refine List.subperm_of_subset (hnodup.map_on hinj) fun pair hpair => ?_
  obtain ⟨l, hl, rfl⟩ := List.mem_map.mp hpair
  exact (h.mem_interruptedRuns_iff hsound₀ hclean).mpr ⟨l, hl, hpairOf l hl⟩

/-- **If each guard is found once**, what is found is the live guards in order, as far as their
artifacts were named as they are listed. -/
theorem map_interruptedRuns (hsound₀ : m₀.files.IsSound)
    (hscan : scanArtifacts Machine.host m₀ dir = .ok artifacts)
    (hclean : interruptedRuns Machine.host m₀ dir = [])
    (hlength : (interruptedRuns Machine.host m dir).length = live.length)
    (hlisted : ∀ l ∈ live, ∃ q ∈ artifacts, q.components = l.guard.path.components) :
    (interruptedRuns Machine.host m dir).map pairComponents =
      ((live.map (·.guard.pair)).mergeSort pairLe).map pairComponents := by
  have hexists (l : LiveGuard) : ∃ pair, l ∈ live →
      l.IsFound m₀ dir pair ∧ pairComponents pair = pairComponents l.guard.pair := by
    by_cases hl : l ∈ live
    · obtain ⟨p, pair, hlists, hfound, hfst, hsnd⟩ := h.exists_isFound hsound₀ hclean hl
      obtain ⟨q, hq, hcomponents⟩ := hlisted l hl
      refine ⟨pair, fun _ => ⟨hfound, ?_⟩⟩
      rw [h.pairComponents_eq hsound₀ hscan hl hlists hq hcomponents]
      exact Prod.ext hfst hsnd
    · exact ⟨default, fun hl' => absurd hl' hl⟩
  choose pairOf hpairOf using hexists
  have hperm : (live.map pairOf).Perm (interruptedRuns Machine.host m dir) :=
    (h.subperm_interruptedRuns hsound₀ hclean fun l hl => (hpairOf l hl).1).perm_of_length_le
      (by rw [List.length_map, hlength])
  have hcomponents : (live.map pairOf).map pairComponents =
      (live.map (·.guard.pair)).map pairComponents := by
    rw [List.map_map, List.map_map]
    exact List.map_congr_left fun l hl => (hpairOf l hl).2
  have hsorted := map_mergeSort_pairLe (hcomponents ▸ (hperm.map pairComponents).symm)
  rwa [List.mergeSort_of_pairwise (pairwise_interruptedRuns _ _ _)] at hsorted

/-- There is a path for each guard at least, and for each one only if no link leads to a
directory. -/
theorem length_interruptedRuns (hsound₀ : m₀.files.IsSound)
    (hclean : interruptedRuns Machine.host m₀ dir = []) :
    live.length ≤ (interruptedRuns Machine.host m dir).length ∧
      (∀ n, m₀.files.LeadsTo m₀.home dir n → m₀.NoLinkToDirectory dir →
        (interruptedRuns Machine.host m dir).length = live.length) := by
  have hexists (l : LiveGuard) : ∃ pair, l ∈ live → l.IsFound m₀ dir pair := by
    by_cases hl : l ∈ live
    · obtain ⟨p, pair, -, hfound, -⟩ := h.exists_isFound hsound₀ hclean hl
      exact ⟨pair, fun _ => hfound⟩
    · exact ⟨default, fun hl' => absurd hl' hl⟩
  choose pairOf hpairOf using hexists
  have hle := (h.subperm_interruptedRuns hsound₀ hclean hpairOf).length_le
  rw [List.length_map] at hle
  refine ⟨hle, fun n hlead hlinks => hle.antisymm' ?_⟩
  rw [← live.length_map pairOf]
  refine (List.subperm_of_subset (Machine.nodup_interruptedRuns h.sound.toIsTree dir)
    fun pair hpair => ?_).length_le
  obtain ⟨l, hl, hfound⟩ := (h.mem_interruptedRuns_iff hsound₀ hclean).mp hpair
  rw [hfound.eq_of_noLink (hpairOf l hl) hsound₀ hlead hlinks]
  exact List.mem_map_of_mem hl

end LiveGuards.Holds

end

/-! ### Guards that are live together -/

/-- **Guards that are live together.** Calls of guards for the artifacts of a directory in which no
backup is found leave it as follows. An artifact without a live guard holds what it held in the
beginning and has no backup; one with a live guard holds the mutant and has the beginning in its
backup. The same artifacts are listed as in the beginning.

What is found is in order and has, for each live guard and each path of its directory to which the
search comes, the backup behind that path with the artifact beside it. This is one pair at least. If
there are not more pairs than guards, they are those of the guards, as far as these were named as
they are listed; this is so if no link below the directory leads to a directory. Putting back what
is found brings the first tree back, but fails with every pair beyond the number of guards. An
artifact without a live guard can be given one if there is room for its backup, and any guard can be
given up. -/
theorem live_guards_are_found_and_put_back {m₀ m : Machine} {dir : Path} {artifacts : List Path}
    {live : LiveGuards} (hsound : m₀.files.IsSound)
    (hscan : scanArtifacts Machine.host m₀ dir = .ok artifacts)
    (hclean : interruptedRuns Machine.host m₀ dir = []) (run : GuardRun artifacts m₀ m live) :
    let found := interruptedRuns Machine.host m dir
    (∀ p ∈ artifacts, (∀ l ∈ live, ¬ m₀.SameEnd l.guard.path p) →
        Machine.host.read m p = Machine.host.read m₀ p ∧
          Machine.host.read m (backupPath p) = none) ∧
      (∀ l ∈ live, ∃ p ∈ artifacts, m₀.SameEnd l.guard.path p ∧
        Machine.host.read m p = some l.mutant ∧ l.guard.backup = backupPath l.guard.path ∧
        ∃ o, Machine.host.read m₀ p = some o ∧ Machine.host.read m l.guard.backup = some o) ∧
      scanArtifacts Machine.host m dir = .ok artifacts ∧
      found.Pairwise (pairLe · · = true) ∧ found.Nodup ∧
      (∀ pair, pair ∈ found ↔ ∃ l ∈ live, l.IsFound m₀ dir pair) ∧
      live.length ≤ found.length ∧
      (found.length = live.length →
        (∀ l ∈ live, ∃ p ∈ artifacts, p.components = l.guard.path.components) →
          found.map pairComponents =
            ((live.map (·.guard.pair)).mergeSort pairLe).map pairComponents) ∧
      (m₀.NoLinkToDirectory dir → found.length = live.length) ∧
      ((∀ pair ∈ found, pair.2.length < FileSystem.pathLimit) →
        ∃ failures m', CommandLine.putBackAll Machine.host found m = (failures, m') ∧
          failures.length + live.length = found.length ∧ m'.home = m₀.home ∧
          m₀.files.SameTree m'.files) ∧
      (∀ path mutant, (∃ p ∈ artifacts, m₀.SameEnd p path) →
        (∀ l ∈ live, ¬ m₀.SameEnd l.guard.path path) → m₀.HasRoom path →
          ∃ g m', ArtifactGuard.install Machine.host path mutant m = (.ok g, m')) ∧
      ∀ l ∈ live, ∃ m', l.guard.restore Machine.host m = (.ok (), m') ∧
        l.guard.drop Machine.host m = ((), m') := by
  intro found
  have h : live.Holds artifacts dir m₀ m := run.holds hsound hscan hclean
  have hmem (pair : Path × Path) : pair ∈ found ↔ ∃ l ∈ live, l.IsFound m₀ dir pair :=
    h.mem_interruptedRuns_iff hsound hclean
  obtain ⟨n, hlead⟩ := Machine.exists_leadsTo_of_scan hscan
  obtain ⟨hle, honce⟩ := h.length_interruptedRuns hsound hclean
  refine ⟨fun p hp hfree => ?_, fun l hl => ?_, h.scanArtifacts_eq hsound hscan,
    pairwise_interruptedRuns _ _ _, Machine.nodup_interruptedRuns h.sound.toIsTree dir, hmem, hle,
    h.map_interruptedRuns hsound hscan hclean, honce n hlead, fun hshort => ?_,
    fun path mutant hartifact hfree hroom => ?_, fun l hl => ?_⟩
  · obtain ⟨slot, hlists⟩ := (Machine.mem_scan_iff hsound.toIsTree hscan).mp hp
    exact h.read_free hsound hclean hlists hfree
  · have hguards := h.guards l hl
    have hplace := h.inPlace l hl
    obtain ⟨p, hp, hends, -⟩ := hguards.listed
    exact ⟨p, hp, ⟨_, hguards.endsIn, hends⟩, Machine.read_of_stands (h.endsIn hends) hplace.mutant,
      hguards.backup, l.guard.saved, Machine.read_of_stands hends hguards.original,
      Machine.read_of_stands (h.endsIn hguards.beside) hplace.saved⟩
  · obtain ⟨failures, m', hput, hlength, hlast⟩ := h.putBackAll_interruptedRuns hsound hclean hshort
    exact ⟨failures, m', hput, hlength, hlast.home, hlast.ways,
      funext fun slot => (hlast.rest slot nofun).symm⟩
  · obtain ⟨slot, hfree⟩ := h.exists_isFree hsound hscan hartifact hfree
    obtain ⟨saved, m', -, hcall⟩ := h.exists_install hsound hfree hroom mutant
    exact ⟨_, m', hcall⟩
  · obtain ⟨m', hput, -⟩ := h.putBack hl
    refine ⟨m', ?_, ?_⟩
    · rw [ArtifactGuard.restore, bind_of_eq hput]
      rfl
    · exact bind_of_eq hput

/-! ### Two directories with guards -/

/-- No backup is found where nothing has the name of one. -/
theorem Machine.interruptedRuns_eq_nil {m : Machine} (htree : m.files.IsTree)
    (hnames : ∀ e ∈ m.files.nodes, ∀ x ∈ m.files.entries e.1, artifactName? x.1 = none) (dir : Path) :
    interruptedRuns host m dir = [] := by
  rw [List.eq_nil_iff_forall_not_mem]
  rintro ⟨artifact, backup⟩ hpair
  obtain ⟨hleaf, hartifact⟩ := mem_interruptedRuns.mp hpair
  obtain ⟨above, n, name, -, -, hentry, -, rfl⟩ := (mem_leavesBelow_iff htree).mp hleaf
  obtain ⟨k, hk⟩ := Option.isSome_iff_exists.mp hentry
  have hmem := htree.mem_entries_iff.mpr hk
  obtain hnil | ⟨node, hnode⟩ := m.files.entries_eq_nil_or n
  · rw [hnil] at hmem
    cases hmem
  · rw [artifactOfBackup?_join above (htree.isName hk), hnames _ hnode _ hmem] at hartifact
    cases hartifact

/-- Two artifacts, one of them in a directory further down. -/
def guardedClasses : FileSystem where
  nodes := [
    (0, ⟨.directory 0 [(['c'], 1)], directoryMode, 0⟩),
    (1, ⟨.directory 0 [("A.class".toList, 2), (['d'], 3)], directoryMode, 0⟩),
    (3, ⟨.directory 1 [("B.class".toList, 4)], directoryMode, 0⟩),
    (2, ⟨.file [1], Machine.fileMode, 0⟩), (4, ⟨.file [2], Machine.fileMode, 0⟩)]
  issued := 5
  clock := 0

theorem guardedClasses_isSound : guardedClasses.IsSound :=
  IsOrdered.isSound (by decide) (by decide)

theorem guardedClasses_leadsTo : guardedClasses.LeadsTo 0 ['c'] 1 :=
  ⟨⟨by decide, by decide, by decide⟩, rfl, linkLimit,
    .down ⟨rfl, by decide, by decide⟩ rfl rfl .here⟩

theorem guardedClasses_noLinkToDirectory :
    (Machine.ofFiles guardedClasses 0).NoLinkToDirectory ['c'] := by
  intro n _ way name k j target _ _ hlink
  have hplain : ∀ e ∈ guardedClasses.nodes, (guardedClasses.form? e.1).any isSpecial = false := by
    decide
  obtain ⟨node, hnode⟩ := exists_mem_nodes hlink
  have hspecial := hplain _ hnode
  rw [show guardedClasses.form? j = some (.link target) from hlink] at hspecial
  cases hspecial

/-- Of two guards the first is given up. -/
theorem second_guard_is_found_and_put_back :
    let m₀ := Machine.ofFiles guardedClasses 0
    let b : Path := "c/d/B.class".toList
    ∃ artifacts m, m₀.files.IsSound ∧ scanArtifacts Machine.host m₀ ['c'] = .ok artifacts ∧
      interruptedRuns Machine.host m₀ ['c'] = [] ∧
      GuardRun artifacts m₀ m [⟨⟨b, backupPath b, [2]⟩, [8]⟩] ∧
      (interruptedRuns Machine.host m ['c']).map pairComponents =
        [pairComponents (b, backupPath b)] ∧
      ∃ m', CommandLine.putBackAll Machine.host (interruptedRuns Machine.host m ['c']) m =
        ([], m') ∧ Machine.host.read m' b = some [2] := by
  intro m₀ b
  let a : Path := "c/A.class".toList
  have hsound : m₀.files.IsSound := guardedClasses_isSound
  have hlead : m₀.files.LeadsTo m₀.home ['c'] 1 := guardedClasses_leadsTo
  have hdown : m₀.files.Descends 1 [['d']] 3 := .down rfl rfl .here
  have ha : m₀.EndsIn a (1, "A.class".toList) :=
    ⟨⟨by decide, by decide, by decide⟩, by decide, ⟨rfl, by decide, by decide⟩, [.name ['c']],
      linkLimit, by decide, .down ⟨rfl, by decide, by decide⟩ rfl rfl .here⟩
  have hb : m₀.EndsIn b (3, "B.class".toList) :=
    ⟨⟨by decide, by decide, by decide⟩, by decide, ⟨rfl, by decide, by decide⟩,
      [.name ['c'], .name ['d']], linkLimit, by decide,
      .down ⟨rfl, by decide, by decide⟩ rfl rfl (.down ⟨rfl, by decide, by decide⟩ rfl rfl .here)⟩
  have hroomA : m₀.HasRoom a := by
    refine ⟨⟨by decide, by decide, by decide⟩, ?_, ?_, ?_⟩ <;>
      rw [ha.slot_eq] <;> decide
  have hroomB : m₀.HasRoom b := by
    refine ⟨⟨by decide, by decide, by decide⟩, ?_, ?_, ?_⟩ <;>
      rw [hb.slot_eq] <;> decide
  have hclean : interruptedRuns Machine.host m₀ ['c'] = [] :=
    Machine.interruptedRuns_eq_nil hsound.toIsTree (by decide) _
  obtain ⟨hfind, hn⟩ := find_directory_iff.mpr hlead
  obtain ⟨artifacts, hscan, -⟩ := exists_scan hsound.toIsTree hfind hn
  have hmemA : a ∈ artifacts := (Machine.mem_scan_iff hsound.toIsTree hscan).mpr
    ⟨(1, "A.class".toList), ⟨by decide, by decide⟩, ⟨[1], rfl⟩, 1, [], hlead, .here,
      by decide⟩
  have hmemB : b ∈ artifacts := (Machine.mem_scan_iff hsound.toIsTree hscan).mpr
    ⟨(3, "B.class".toList), ⟨by decide, by decide⟩, ⟨[2], rfl⟩, 1, [['d']], hlead,
      hdown, by decide⟩
  -- both get a guard, and the first one is given up
  let la : LiveGuard := ⟨⟨a, backupPath a, [1]⟩, [7]⟩
  let lb : LiveGuard := ⟨⟨b, backupPath b, [2]⟩, [8]⟩
  obtain ⟨m₁, hfirst⟩ : ∃ m, GuardRun artifacts m₀ m [la] :=
    GuardRun.start.exists_install hsound hscan hclean hmemA ha nofun hroomA rfl [7]
  have hother : ∀ l ∈ [la], ¬ m₀.SameEnd l.guard.path b := by
    rintro _ (_ | ⟨_, ⟨⟩⟩) ⟨slot, hslot, hslot'⟩
    exact absurd ((hslot.unique ha).symm.trans (hslot'.unique hb)) (by decide)
  obtain ⟨m₂, hsecond⟩ : ∃ m, GuardRun artifacts m₀ m [lb, la] :=
    hfirst.exists_install hsound hscan hclean hmemB hb hother hroomB rfl [8]
  obtain ⟨m₃, hrun⟩ : ∃ m, GuardRun artifacts m₀ m ([lb, la].erase la) :=
    hsecond.exists_restore hsound hscan hclean (List.mem_cons_of_mem _ List.mem_cons_self)
  have hlive : [lb, la].erase la = [lb] := by decide
  rw [hlive] at hrun
  obtain ⟨-, -, -, -, -, hfound, -, hmap, honce, hput, -⟩ :=
    live_guards_are_found_and_put_back hsound hscan hclean hrun
  have hlength := honce guardedClasses_noLinkToDirectory
  have hshort : ∀ pair ∈ interruptedRuns Machine.host m₃ ['c'], pair.2.length < pathLimit := by
    intro pair hpair
    obtain ⟨l, hl, above, hopens, habove, hback, -⟩ := (hfound pair).mp hpair
    obtain rfl := List.mem_singleton.mp hl
    obtain ⟨way, hway, rfl⟩ := exists_descends_of_opens hsound.toIsTree
      (guardedClasses_noLinkToDirectory 1 hlead) hlead hopens habove
    rw [show lb.slot m₀ = (3, "B.class".toList) from hb.slot_eq] at hway hback
    obtain rfl := hsound.descends_inj hway hdown
    rw [hback]
    decide
  obtain ⟨failures, m', hputBack, hcount, hhome, htree⟩ := hput hshort
  obtain rfl : failures = [] := List.length_eq_zero_iff.mp (by rw [hlength] at hcount; omega)
  refine ⟨artifacts, m₃, hsound, hscan, hclean, hrun, ?_, m', hputBack, ?_⟩
  · have hlisted := hmap hlength fun l hl => ⟨b, hmemB, by rw [List.mem_singleton.mp hl]⟩
    rw [hlisted, List.map_singleton, List.mergeSort_singleton]
    rfl
  · have hlook : m'.files.look (3, "B.class".toList) = some (.file [2]) :=
      (congrFun htree.look _).symm
    refine Machine.read_of_stands (m := m') ?_ hlook
    rw [hhome]
    exact htree.stands hb

/-- A directory with an artifact, and a link to it beside it. -/
def linkedClasses : FileSystem where
  nodes := [
    (0, ⟨.directory 0 [(['c'], 1)], directoryMode, 0⟩),
    (1, ⟨.directory 0 [(['a'], 2), (['b'], 3)], directoryMode, 0⟩),
    (2, ⟨.directory 1 [("X.class".toList, 4)], directoryMode, 0⟩),
    (3, ⟨.link ['a'], 0o777, 0⟩), (4, ⟨.file [1], Machine.fileMode, 0⟩)]
  issued := 5
  clock := 0

theorem linkedClasses_isSound : linkedClasses.IsSound :=
  IsOrdered.isSound (by decide) (by decide)

/-- Three paths and the directories that they lead to. -/
theorem linkedClasses_leadsTo : linkedClasses.LeadsTo 0 ['c'] 1 ∧
    linkedClasses.LeadsTo 0 "c/a".toList 2 ∧ linkedClasses.LeadsTo 0 "c/b".toList 2 := by
  refine ⟨⟨⟨by decide, by decide, by decide⟩, rfl, linkLimit, ?_⟩,
    ⟨⟨by decide, by decide, by decide⟩, rfl, linkLimit, ?_⟩,
    ⟨⟨by decide, by decide, by decide⟩, rfl, linkLimit - 1, ?_⟩⟩
  · exact .down ⟨rfl, by decide, by decide⟩ rfl rfl .here
  · exact .down ⟨rfl, by decide, by decide⟩ rfl rfl (.down ⟨rfl, by decide, by decide⟩ rfl rfl .here)
  · exact .down ⟨rfl, by decide, by decide⟩ rfl rfl (.along ⟨rfl, by decide, by decide⟩ rfl rfl
      (by decide) (.down ⟨rfl, by decide, by decide⟩ rfl rfl .here))

/-- The search comes to the directory and to the link, and does not go on. -/
theorem opens_linkedClasses_iff {above : Path} (habove : linkedClasses.LeadsTo 0 above 2) :
    linkedClasses.Opens 0 (pathLimit - 1) ['c'] above ↔
      above = "c/a".toList ∨ above = "c/b".toList := by
  obtain ⟨hlead, ha, hb⟩ := linkedClasses_leadsTo
  have htree := linkedClasses_isSound.toIsTree
  have hstop {depth : Nat} {path : Path} (hpath : linkedClasses.LeadsTo 0 path 2)
      (hopens : linkedClasses.Opens 0 depth path above) : above = path := by
    cases hopens with
    | here => rfl
    | down lead entry inner _ =>
      obtain rfl := lead.unique hpath
      obtain ⟨rfl, rfl⟩ := Prod.mk.inj (List.mem_singleton.mp (htree.mem_entries_iff.mpr entry))
      exact absurd rfl (lead.ne_file (by decide) entry inner [1])
  have hopens (name : Octets) {k : Nat} (hentry : linkedClasses.entry? 1 name = some k)
      (hpath : linkedClasses.LeadsTo 0 (Path.join ['c'] name) 2) :
      linkedClasses.Opens 0 (pathLimit - 2 + 1) ['c'] (Path.join ['c'] name) :=
    .down hlead hentry (leadsToDirectory_iff.mpr ⟨2, hpath⟩) .here
  constructor
  · generalize pathLimit - 1 = depth
    intro h
    cases h with
    | here => exact absurd (habove.unique hlead) (by decide)
    | down lead entry inner later =>
      obtain rfl := lead.unique hlead
      obtain heq | hname := List.mem_cons.mp (htree.mem_entries_iff.mpr entry)
      · obtain ⟨rfl, rfl⟩ := Prod.mk.inj heq
        exact .inl (hstop ha later)
      · obtain ⟨rfl, rfl⟩ := Prod.mk.inj (List.mem_singleton.mp hname)
        exact .inr (hstop hb later)
  · rintro (rfl | rfl)
    · exact hopens ['a'] rfl ha
    · exact hopens ['b'] rfl hb

/-- **A guard may be found twice.** Its backup is found in its directory and behind a link to this
directory, so that there are two pairs for the one guard, and the second is not put back. -/
theorem guard_behind_link_is_found_twice :
    let m₀ := Machine.ofFiles linkedClasses 0
    let x : Path := "c/a/X.class".toList
    let y : Path := "c/b/X.class".toList
    ∃ artifacts m complaint m', m₀.files.IsSound ∧
      scanArtifacts Machine.host m₀ ['c'] = .ok artifacts ∧
      interruptedRuns Machine.host m₀ ['c'] = [] ∧
      GuardRun artifacts m₀ m [⟨⟨x, backupPath x, [1]⟩, [9]⟩] ∧
      interruptedRuns Machine.host m ['c'] = [(x, backupPath x), (y, backupPath y)] ∧
      CommandLine.putBackAll Machine.host (interruptedRuns Machine.host m ['c']) m =
        ([complaint], m') := by
  intro m₀ x y
  have hsound : m₀.files.IsSound := linkedClasses_isSound
  have htree := hsound.toIsTree
  obtain ⟨hlead, ha, hb⟩ := linkedClasses_leadsTo
  have hends : m₀.EndsIn x (2, "X.class".toList) := by
    obtain ⟨-, -, links, hreach⟩ := ha
    exact ⟨⟨by decide, by decide, by decide⟩, by decide, ⟨rfl, by decide, by decide⟩,
      [.name ['c'], .name ['a']], links, by decide, hreach⟩
  have hclean : interruptedRuns Machine.host m₀ ['c'] = [] :=
    Machine.interruptedRuns_eq_nil htree (by decide) _
  obtain ⟨hfind, hn⟩ := find_directory_iff.mpr hlead
  obtain ⟨artifacts, hscan, -⟩ := exists_scan (m := m₀) htree hfind hn
  have hmem : x ∈ artifacts := (Machine.mem_scan_iff htree hscan).mpr
    ⟨(2, "X.class".toList), ⟨by decide, by decide⟩, ⟨[1], rfl⟩, 1, [['a']], hlead,
      .down rfl rfl .here, by decide⟩
  have hroom : m₀.HasRoom x := by
    refine ⟨⟨by decide, by decide, by decide⟩, ?_, ?_, ?_⟩ <;>
      rw [hends.slot_eq] <;> decide
  obtain ⟨m, hrun⟩ : ∃ m, GuardRun artifacts m₀ m [⟨⟨x, backupPath x, [1]⟩, [9]⟩] :=
    GuardRun.start.exists_install hsound hscan hclean hmem hends nofun hroom rfl [9]
  have h := hrun.holds hsound hscan hclean
  have hfound (pair : Path × Path) : pair ∈ interruptedRuns Machine.host m ['c'] ↔
      pair ∈ [(x, backupPath x), (y, backupPath y)] := by
    have hslot : LiveGuard.slot m₀ ⟨⟨x, backupPath x, [1]⟩, [9]⟩ = (2, "X.class".toList) :=
      hends.slot_eq
    rw [h.mem_interruptedRuns_iff hsound hclean]
    constructor
    · rintro ⟨l, hl, above, hopens, habove, hback, hpath⟩
      obtain rfl := List.mem_singleton.mp hl
      rw [hslot] at habove hback hpath
      have hpair : pair = (Path.withFileName (Path.join above _) _, Path.join above _) :=
        Prod.ext (hback ▸ hpath) hback
      obtain rfl | rfl := (opens_linkedClasses_iff habove).mp hopens <;> rw [hpair] <;>
        decide
    · intro hpair
      refine ⟨_, List.mem_singleton_self _, ?_⟩
      rw [LiveGuard.IsFound, hslot]
      obtain rfl | hpair := List.mem_cons.mp hpair
      · exact ⟨_, (opens_linkedClasses_iff ha).mpr (.inl rfl), ha, by decide,
          by decide⟩
      · obtain rfl := List.mem_singleton.mp hpair
        exact ⟨_, (opens_linkedClasses_iff hb).mpr (.inr rfl), hb, by decide,
          by decide⟩
  have hlist : interruptedRuns Machine.host m ['c'] = [(x, backupPath x), (y, backupPath y)] := by
    have hperm := (List.perm_ext_iff_of_nodup (Machine.nodup_interruptedRuns h.sound.toIsTree ['c'])
      (by decide)).mpr hfound
    refine hperm.eq_of_pairwise (fun p q hp hq hpq hqp => ?_) (pairwise_interruptedRuns _ _ _)
      (by decide)
    have hanti : ∀ p ∈ [(x, backupPath x), (y, backupPath y)],
        ∀ q ∈ [(x, backupPath x), (y, backupPath y)],
          pairLe p q = true → pairLe q p = true → p = q := by decide
    exact hanti p ((hfound p).mp hp) q ((hfound q).mp (hperm.mem_iff.mpr hq)) hpq hqp
  have hshort : ∀ pair ∈ interruptedRuns Machine.host m ['c'], pair.2.length < pathLimit := by
    rw [hlist]
    decide
  obtain ⟨failures, m', hput, hlength, -⟩ := h.putBackAll_interruptedRuns hsound hclean hshort
  rw [hlist] at hlength
  obtain ⟨complaint, rfl⟩ := List.length_eq_one_iff.mp (Nat.succ.inj hlength)
  exact ⟨artifacts, m, complaint, m', hsound, hscan, hclean, hrun, hlist, hput⟩

end MutationTesting
