import MutationTesting.Proofs.Coverage.Scan
import MutationTesting.Proofs.Host.Files
/-!
# Artifacts and the names beside them

An artifact has a name in a directory, and its backup another one there. A path ends in such a name
wherever it comes from. Below a directory each artifact is listed under one path; if no backup is
found below the directory there is nothing in the places of the backups either, or what is there
leads to a directory and cannot be written.

## Main definitions

* `FileSystem.Slot.backup`, `FileSystem.Slot.IsArtifact` — names of artifacts and of backups
* `Machine.EndsIn`, `Machine.SameEnd` — paths that end in one name
* `Machine.Lists` — an artifact is listed under a path

## Main results

* `Machine.mem_scan_iff` — what is listed
* `Machine.Lists.look_backup` — there is nothing in the place of a backup
* `Machine.Lists.read_backupPath`, `Machine.EndsIn.beside` — backups that are read and written
-/

namespace MutationTesting

open FileSystem

/-! ### Names of backups in directories -/

/-- The name of the backup beside the name of an artifact. -/
def FileSystem.Slot.backup (slot : Slot) : Slot := (slot.1, backupName slot.2)

/-- A name that an artifact may have. -/
def FileSystem.Slot.IsArtifact (slot : Slot) : Prop :=
  Path.isName slot.2 = true ∧ isArtifactName slot.2 = true

namespace FileSystem.Slot

variable {slot other : Slot}

theorem IsArtifact.isName_backup (h : slot.IsArtifact) : Path.isName slot.backup.2 = true :=
  isName_backupName h.2 h.1

theorem IsArtifact.artifactName?_backup (h : slot.IsArtifact) :
    artifactName? slot.backup.2 = some slot.2 := artifactName?_backupName h.2 h.1

theorem IsArtifact.length_backup (h : slot.IsArtifact) :
    slot.backup.2.length = slot.2.length + 14 := by
  rw [backup, backupName_eq h.2 h.1, List.length_cons, List.length_append]
  rfl

/-- The name of a backup is longer than that of its artifact. -/
theorem IsArtifact.length_lt_backup (h : slot.IsArtifact) :
    slot.2.length < slot.backup.2.length := by
  rw [h.length_backup]
  omega

/-- It is long enough for a name that is made up. -/
theorem IsArtifact.length_temporaryName_le (h : slot.IsArtifact) :
    Machine.temporaryName.length ≤ slot.backup.2.length := by
  have htemporary : Machine.temporaryName.length = 10 := by decide
  rw [h.length_backup]
  omega

/-- A backup has no name of an artifact. -/
theorem IsArtifact.backup_ne (h : slot.IsArtifact) (hother : other.IsArtifact) :
    slot.backup ≠ other := by
  intro heq
  have hname := h.artifactName?_backup
  rw [heq, artifactName?_of_isArtifactName hother.2] at hname
  cases hname

/-- Artifacts have backups of their own. -/
theorem IsArtifact.backup_inj (h : slot.IsArtifact) (hother : other.IsArtifact)
    (heq : slot.backup = other.backup) : slot = other := by
  have hname := h.artifactName?_backup
  rw [heq, hother.artifactName?_backup] at hname
  exact Prod.ext (Prod.mk.inj heq).1 (Option.some.inj hname).symm

end FileSystem.Slot

/-! ### Ends of paths -/

namespace FileSystem

variable {fs fs' : FileSystem} {slot : Slot} {here links n j k : Nat} {name : Octets} {dir path : Path}
  {way : List Octets} {s : Spot}

/-- A name stands for a directory, or for a link that leads to one. -/
def Enters (fs : FileSystem) (slot : Slot) : Prop :=
  ∃ links links' k, fs.Leads links slot.1 [slot.2] links' k ∧ fs.isDirectory k = true

theorem SameWays.enters (h : fs.SameWays fs') (henters : fs.Enters slot) : fs'.Enters slot := by
  obtain ⟨links, links', k, hlead, hk⟩ := henters
  exact ⟨links, links', k, h.leads hlead, h.isDirectory hk⟩

/-- A path that ends in the name then leads to the directory, if it leads anywhere. -/
theorem Enters.isDirectory_of_spot (h : fs.Enters (n, name)) (hstands : fs.Stands here path n name)
    (hspot : fs.spot .follow here path = .ok s) :
    ∃ k, s.node = some k ∧ fs.isDirectory k = true := by
  obtain ⟨links, links', k, hlead, hk⟩ := h
  obtain ⟨links₀, heq⟩ : ∃ links, fs.spot .follow here path = fs.walk .follow links n [name] :=
    hstands.spot_eq
  obtain ⟨s', hwalk, hs'⟩ := hlead.exists_walk
  obtain rfl := (walks_of_walk (heq.symm.trans hspot)).unique (walks_of_walk hwalk)
  exact ⟨k, hs', hk⟩

/-- Such a path is not read. -/
theorem Enters.read_ne_ok (h : fs.Enters (n, name)) (hstands : fs.Stands here path n name)
    (content : Bytes) : fs.read here path ≠ .ok content := by
  cases hspot : fs.spot .follow here path with
  | error e =>
    rw [FileSystem.read, find, hspot]
    intro hok
    cases hok
  | ok s =>
    obtain ⟨k, hs, hk⟩ := h.isDirectory_of_spot hstands hspot
    rw [FileSystem.read, find_eq_ok_iff.mpr ⟨s, hspot, hs⟩]
    change fs.content k ≠ _
    rw [FileSystem.content, form?_of_isDirectory hk]
    intro hok
    cases hok

/-- Such a path is not written. -/
theorem Enters.write_ne_ok (h : fs.Enters (n, name)) (hstands : fs.Stands here path n name)
    (content : Bytes) (mode : Nat) : fs.write here path content mode ≠ .ok fs' := by
  cases hspot : fs.spot .follow here path with
  | error e =>
    rw [write, create, hspot]
    intro hok
    cases hok
  | ok s =>
    obtain ⟨k, hs, hk⟩ := h.isDirectory_of_spot hstands hspot
    obtain ⟨directory, last, node⟩ := s
    obtain rfl : node = some k := hs
    rw [write, create, hspot]
    change (if fs.isDirectory k then _ else _) >>= _ ≠ _
    rw [hk]
    intro hok
    cases hok

/-- The ways down from a directory are followed from its path. -/
theorem Descends.leads (h : fs.Descends n way k) (htree : fs.IsTree) (hlead : fs.LeadsTo here dir n)
    (hreach : fs.Reaches here (Path.steps dir ++ way.map .name) links j) :
    j = k ∧ ∃ links₀, fs.Reaches here (Path.steps dir) links₀ n ∧
      fs.Leads links₀ n way links k := by
  obtain ⟨-, -, links₀, hdir⟩ := hlead
  have hway := (reaches_append.mp hreach).of_append hdir
  obtain rfl := hway.eq_of_descends htree h
  exact ⟨rfl, links₀, hdir, hway⟩

/-- The path of a directory in which there is something whose path can be followed. -/
theorem IsPath.above (h : IsPath (Path.join dir (Path.joined (way ++ [name]))))
    (hnames : ∀ m ∈ way ++ [name], Path.isName m = true) (hway : way ≠ []) :
    IsPath (Path.join dir (Path.joined way)) := by
  obtain ⟨hall, hname⟩ := List.forall_mem_append.mp hnames
  obtain ⟨first, rest, rfl⟩ := List.exists_cons_of_ne_nil hway
  have hfirst := (Path.isName_iff.mp (hall first List.mem_cons_self)).1
  rw [Path.join_eq_leading_append dir (Path.isAbsolute_joined (by simp) hnames),
    Path.joined_append hway (List.cons_ne_nil name []), ← List.append_assoc] at h
  rw [Path.join_eq_leading_append dir (Path.isAbsolute_joined hway hall)]
  exact h.of_prefix (List.prefix_append _ _)
    (List.append_ne_nil_of_right_ne_nil _ (Path.joined_ne_nil hfirst))

/-- There are not more names in a path that can be followed than it is long. -/
theorem IsPath.length_lt (h : IsPath (Path.join dir (Path.joined way)))
    (hnames : ∀ m ∈ way, Path.isName m = true) (hway : way ≠ []) : way.length < pathLimit := by
  have hshort := h.short
  have hlength := Path.length_le_joined hnames
  rw [Path.join_eq_leading_append dir (Path.isAbsolute_joined hway hnames),
    List.length_append] at hshort
  omega

end FileSystem

namespace Machine

/-- The name in which a path ends, and its directory. -/
def slot (m : Machine) (path : Path) : Slot :=
  match m.files.spot .stay m.home path with
  | .ok ⟨n, some name, _⟩ => (n, name)
  | _ => (root, [])

/-- A path ends in a name in a directory. -/
def EndsIn (m : Machine) (path : Path) (slot : Slot) : Prop :=
  m.files.Stands m.home path slot.1 slot.2

/-- Two paths end in one name in one directory. -/
def SameEnd (m : Machine) (path path' : Path) : Prop :=
  ∃ slot, m.EndsIn path slot ∧ m.EndsIn path' slot

/-- There is room for a backup beside an artifact. -/
structure HasRoom (m : Machine) (path : Path) : Prop where
  isPath : IsPath (backupPath path)
  short : (m.slot path).backup.2.length ≤ nameLimit
  attached : m.files.isAttached (m.slot path).1 = true
  free : m.files.look (m.slot path).backup = none

variable {m : Machine} {dir p path : Path} {slot other : Slot}

theorem EndsIn.slot_eq (h : m.EndsIn path slot) : m.slot path = slot := by
  have hspot : m.files.spot .stay m.home path = _ := Stands.spot_stay h
  rw [Machine.slot, hspot]

theorem EndsIn.unique (h : m.EndsIn path slot) (h' : m.EndsIn path other) : slot = other :=
  h.slot_eq.symm.trans h'.slot_eq

/-- What a path to a file that can be read ends in. -/
theorem exists_endsIn_of_read {place : List Path.Component} {name : Octets} {content : Bytes}
    (hread : host.read m path = some content) (hends : meansDirectory path = false)
    (hsteps : Path.steps path = place ++ [.name name]) (hname : Path.isName name = true) :
    ∃ links n, m.files.Reaches m.home place links n ∧ m.EndsIn path (n, name) := by
  have hread' : (m.files.read m.home path).toOption = some content := hread
  cases hspot : m.files.spot .follow m.home path with
  | ok s => exact exists_stands_of_spot hspot hends hsteps hname
  | error e =>
    rw [FileSystem.read, find, hspot] at hread'
    cases hread'

/-! ### Artifacts that are listed -/

/-- A path below a directory at whose end there is an artifact. -/
structure Lists (m : Machine) (dir p : Path) (slot : Slot) : Prop where
  isArtifact : slot.IsArtifact
  content : ∃ content, m.files.look slot = some (.file content)
  below : ∃ n way, m.files.LeadsTo m.home dir n ∧ m.files.Descends n way slot.1 ∧
    p = Path.join dir (Path.joined (way ++ [slot.2]))

variable {artifacts : List Path}

theorem exists_leadsTo_of_scan (h : scanArtifacts host m dir = .ok artifacts) :
    ∃ n, m.files.LeadsTo m.home dir n := by
  have hfiles : m.filesBelow dir ≠ none := by
    intro hnone
    have hfail : host.filesBelow m dir = none := hnone
    rw [scanArtifacts, hfail] at h
    cases h
  rw [filesBelow] at hfiles
  split at hfiles
  · next n hfind =>
    by_cases hn : m.files.isDirectory n = true
    · exact ⟨n, find_directory_iff.mp ⟨hfind, hn⟩⟩
    · rw [if_neg hn] at hfiles
      exact absurd rfl hfiles
  · exact absurd rfl hfiles

/-- **What is listed** are the artifacts below the directory. -/
theorem mem_scan_iff (htree : m.files.IsTree) (h : scanArtifacts host m dir = .ok artifacts) :
    p ∈ artifacts ↔ ∃ slot, m.Lists dir p slot := by
  obtain ⟨n, hlead⟩ := exists_leadsTo_of_scan h
  obtain ⟨hfind, hn⟩ := find_directory_iff.mpr hlead
  obtain ⟨paths, hpaths, hmem, -⟩ := exists_scan htree hfind hn
  obtain rfl := Except.ok.inj (h.symm.trans hpaths)
  rw [hmem]
  constructor
  · rintro ⟨way, file, hfile, hname, rfl⟩
    have hisName := hfile.isName htree file (by simp)
    obtain ⟨k, content, hway, hlook⟩ := (holdsFile_concat_iff htree).mp hfile
    exact ⟨(k, file), ⟨hisName, hname⟩, ⟨content, hlook⟩, n, way, hlead, hway, rfl⟩
  · rintro ⟨slot, ⟨-, hname⟩, ⟨content, hlook⟩, n', way, hlead', hway, rfl⟩
    obtain rfl := hlead.unique hlead'
    exact ⟨way, slot.2, (holdsFile_concat_iff htree).mpr ⟨slot.1, content, hway, hlook⟩, hname, rfl⟩

/-! ### Leaves -/

/-- A name below a directory is found among the leaves unless it leads to a directory. -/
theorem mem_leavesBelow_or_enters {n links : Nat} {way : List Octets} (htree : m.files.IsTree)
    (hlook : m.files.look slot ≠ none) (hlead : m.files.LeadsTo m.home dir n)
    (hway : m.files.Descends n way slot.1)
    (hreach : m.files.Reaches m.home (dir.steps ++ way.map .name) links slot.1)
    (hpath : way ≠ [] → IsPath (Path.join dir (Path.joined way))) :
    Path.join dir (Path.joined (way ++ [slot.2])) ∈ m.leavesBelow dir ∨ m.files.Enters slot := by
  obtain ⟨i, hentry⟩ := Option.ne_none_iff_exists'.mp (mt look_eq_none_iff.mpr hlook)
  obtain ⟨-, links₀, hdir, hleads⟩ := hway.leads htree hlead hreach
  have hnames : ∀ m ∈ way ++ [slot.2], Path.isName m = true :=
    List.forall_mem_append.mpr
      ⟨hway.isName htree, List.forall_mem_singleton.mpr (htree.isName hentry)⟩
  cases hinner :
    m.files.leadsToDirectory m.home (Path.join dir (Path.joined (way ++ [slot.2]))) with
  | true =>
    obtain ⟨j, -, hj, links', hreach'⟩ := leadsToDirectory_iff.mp hinner
    have hsteps : Path.steps (Path.join dir (Path.joined (way ++ [slot.2]))) =
        (dir.steps ++ way.map .name) ++ [slot.2].map .name := by
      rw [Path.steps_join dir (by simp) hnames, List.map_append, List.append_assoc]
    rw [hsteps, reaches_append] at hreach'
    exact .inr ⟨links, links', j, hreach'.of_append hreach, hj⟩
  | false =>
    refine .inl (mem_leavesFrom_of_descends htree hway hlead hdir hleads hpath ?_ hentry hinner)
    by_cases hnil : way = []
    · rw [hnil]
      exact Nat.zero_le _
    · exact Nat.le_pred_of_lt ((hpath hnil).length_lt (hway.isName htree) hnil)

theorem artifactOfBackup?_of_fileName {backup : Path} (hslot : slot.IsArtifact)
    (h : Path.fileName? backup = some slot.backup.2) :
    artifactOfBackup? backup = some (Path.withFileName backup slot.2) := by
  rw [artifactOfBackup?, h, Option.bind_some, hslot.artifactName?_backup]
  rfl

theorem fileName?_join_joined (dir : Path) {way : List Octets} {name : Octets}
    (h : ∀ m ∈ way ++ [name], Path.isName m = true) :
    Path.fileName? (Path.join dir (Path.joined (way ++ [name]))) = some name := by
  rw [← Path.lastName?_steps, Path.steps_join dir (by simp) h, List.map_append,
    ← List.append_assoc]
  exact Path.lastName?_concat _ name

/-- **There is nothing in the place of a backup** where no backup is found, unless it leads to a
directory. -/
theorem look_backup_of_clean {n links : Nat} {way : List Octets} (htree : m.files.IsTree)
    (hclean : interruptedRuns host m dir = []) (hlead : m.files.LeadsTo m.home dir n)
    (hway : m.files.Descends n way slot.1) (hslot : slot.IsArtifact)
    (hreach : m.files.Reaches m.home (dir.steps ++ way.map .name) links slot.1)
    (hpath : way ≠ [] → IsPath (Path.join dir (Path.joined way))) :
    m.files.look slot.backup = none ∨ m.files.Enters slot.backup := by
  rw [or_iff_not_imp_left]
  intro hlook
  refine (mem_leavesBelow_or_enters htree hlook hlead hway hreach hpath).resolve_left fun hleaf => ?_
  have hnames : ∀ m ∈ way ++ [slot.backup.2], Path.isName m = true :=
    List.forall_mem_append.mpr
      ⟨hway.isName htree, List.forall_mem_singleton.mpr hslot.isName_backup⟩
  have hartifact := artifactOfBackup?_of_fileName hslot (fileName?_join_joined dir hnames)
  have hpair : (_, _) ∈ interruptedRuns host m dir := mem_interruptedRuns.mpr ⟨hleaf, hartifact⟩
  rw [hclean] at hpair
  cases hpair

/-! ### Listed artifacts and their backups -/

theorem EndsIn.reaches_of_steps {place : List Path.Component} {name : Octets}
    (h : m.EndsIn path slot) (hsteps : path.steps = place ++ [.name name]) :
    name = slot.2 ∧ ∃ links, m.files.Reaches m.home place links slot.1 := by
  obtain ⟨place', links, hsteps', hreach⟩ := h.reaches
  obtain ⟨rfl, hname⟩ := List.append_inj' (hsteps.symm.trans hsteps') rfl
  exact ⟨Path.Component.name.inj (List.cons.inj hname).1, links, hreach⟩

theorem backupPath_of_fileName (h : Path.fileName? path = some slot.2) :
    backupPath path = Path.withFileName path slot.backup.2 := by
  simp only [backupPath, h, Option.getD_some, Slot.backup, backupName]

namespace Lists

/-- The names behind the directory in the path of an artifact. -/
theorem exists_way (h : m.Lists dir p slot) (htree : m.files.IsTree) : ∃ n way,
    m.files.LeadsTo m.home dir n ∧ m.files.Descends n way slot.1 ∧
      p = Path.join dir (Path.joined (way ++ [slot.2])) ∧
      (∀ name ∈ way, Path.isName name = true) ∧
      p.steps = (dir.steps ++ way.map .name) ++ [.name slot.2] := by
  obtain ⟨n, way, hlead, hway, rfl⟩ := h.below
  have hall := hway.isName htree
  have hnames : ∀ name ∈ way ++ [slot.2], Path.isName name = true :=
    List.forall_mem_append.mpr ⟨hall, List.forall_mem_singleton.mpr h.isArtifact.1⟩
  refine ⟨n, way, hlead, hway, rfl, hall, ?_⟩
  rw [Path.steps_join dir (by simp) hnames, List.map_append, List.append_assoc]
  rfl

theorem fileName? (h : m.Lists dir p slot) (htree : m.files.IsTree) :
    Path.fileName? p = some slot.2 := by
  obtain ⟨n, way, -, -, -, -, hsteps⟩ := h.exists_way htree
  rw [← Path.lastName?_steps, hsteps, Path.lastName?_concat]

/-- A listed path ends where it is listed, if it can be followed. -/
theorem endsIn (h : m.Lists dir p slot) (htree : m.files.IsTree) (hends : m.EndsIn p other) :
    other = slot := by
  obtain ⟨n, way, hlead, hway, -, -, hsteps⟩ := h.exists_way htree
  obtain ⟨hname, links, hreach⟩ := hends.reaches_of_steps hsteps
  exact Prod.ext (hway.leads htree hlead hreach).1 hname.symm

/-- An artifact is listed under one path. -/
theorem unique {q : Path} (h : m.Lists dir p slot) (h' : m.Lists dir q slot)
    (hsound : m.files.IsSound) : p = q := by
  obtain ⟨n, way, hlead, hway, rfl⟩ := h.below
  obtain ⟨n', way', hlead', hway', rfl⟩ := h'.below
  obtain rfl := hlead.unique hlead'
  rw [hsound.descends_inj hway hway']

/-- There is nothing in the place of its backup. -/
theorem look_backup (h : m.Lists dir p slot) (htree : m.files.IsTree)
    (hclean : interruptedRuns host m dir = []) (hends : m.EndsIn p slot) :
    m.files.look slot.backup = none ∨ m.files.Enters slot.backup := by
  obtain ⟨n, way, hlead, hway, rfl, hall, hsteps⟩ := h.exists_way htree
  obtain ⟨-, links, hreach⟩ := hends.reaches_of_steps hsteps
  have hnames : ∀ name ∈ way ++ [slot.2], Path.isName name = true :=
    List.forall_mem_append.mpr ⟨hall, List.forall_mem_singleton.mpr h.isArtifact.1⟩
  exact look_backup_of_clean htree hclean hlead hway h.isArtifact hreach
    (hends.isPath.above hnames)

/-- The path of its backup goes on behind the same directory. -/
theorem backupPath_eq (h : m.Lists dir p slot) (htree : m.files.IsTree) {way : List Octets}
    (hp : p = Path.join dir (Path.joined (way ++ [slot.2])))
    (hall : ∀ name ∈ way, Path.isName name = true) (hway : way ≠ []) :
    backupPath p = Path.join dir (Path.joined (way ++ [slot.backup.2])) := by
  obtain ⟨init, last, rfl⟩ := way.eq_nil_or_concat'.resolve_left hway
  have hlast : Path.isName last = true := hall last (by simp)
  rw [backupPath_of_fileName (h.fileName? htree), hp, Path.join_joined_concat dir hall h.isArtifact.1,
    Path.join_joined_concat dir hall h.isArtifact.isName_backup, List.foldl_append]
  exact Path.withFileName_join _ hlast h.isArtifact.1

theorem steps_backupPath (h : m.Lists dir p slot) (htree : m.files.IsTree) {way : List Octets}
    (hsteps : p.steps = (dir.steps ++ way.map .name) ++ [.name slot.2]) :
    (backupPath p).steps = (dir.steps ++ way.map .name) ++ [.name slot.backup.2] := by
  have hname := h.fileName? htree
  rw [backupPath_of_fileName hname,
    Path.steps_withFileName (by rw [hname]; exact nofun) h.isArtifact.isName_backup, hsteps,
    Path.sibling_concat]

end Lists

theorem meansDirectory_withFileName {name other : Octets} (h : Path.fileName? path = some name)
    (hother : Path.isName other = true) :
    meansDirectory (Path.withFileName path other) = false := by
  obtain ⟨parent, heq⟩ := Path.exists_withFileName h
  rw [heq]
  exact Path.meansDirectory_join parent hother

theorem meansDirectory_backupPath (hslot : slot.IsArtifact)
    (h : Path.fileName? path = some slot.2) : meansDirectory (backupPath path) = false := by
  rw [backupPath_of_fileName h]
  exact meansDirectory_withFileName h hslot.isName_backup

/-- **No backup is read** beside an artifact as long as there was nothing in its place. -/
theorem Lists.read_backupPath {m' : Machine} (h : m.Lists dir p slot) (htree : m.files.IsTree)
    (hclean : interruptedRuns host m dir = []) (hhome : m'.home = m.home)
    (hways : m.files.SameWays m'.files)
    (hlook : m'.files.look slot.backup = m.files.look slot.backup) :
    host.read m' (backupPath p) = none := by
  rw [Option.eq_none_iff_forall_ne_some]
  intro content hread
  obtain ⟨n, way, hlead, hway, hp, hall, hsteps⟩ := h.exists_way htree
  obtain ⟨links, k, hreach, hends⟩ := exists_endsIn_of_read hread
    (meansDirectory_backupPath h.isArtifact (h.fileName? htree)) (h.steps_backupPath htree hsteps)
    h.isArtifact.isName_backup
  have hreach' : m.files.Reaches m.home (dir.steps ++ way.map .name) links k :=
    hhome ▸ hways.symm.leads hreach
  obtain rfl := (hway.leads htree hlead hreach').1
  have hok : m'.files.read m'.home (backupPath p) = .ok content := by
    cases hresult : m'.files.read m'.home (backupPath p) with
    | ok content' =>
      change (m'.files.read m'.home (backupPath p)).toOption = some content at hread
      rw [hresult] at hread
      exact congrArg Except.ok (Option.some.inj hread)
    | error e =>
      change (m'.files.read m'.home (backupPath p)).toOption = some content at hread
      rw [hresult] at hread
      cases hread
  have hpath : way ≠ [] → IsPath (Path.join dir (Path.joined way)) := by
    intro hnil
    have hback := hends.isPath
    rw [h.backupPath_eq htree hp hall hnil] at hback
    exact hback.above (List.forall_mem_append.mpr
      ⟨hall, List.forall_mem_singleton.mpr h.isArtifact.isName_backup⟩) hnil
  obtain hnone | henters := look_backup_of_clean htree hclean hlead hway h.isArtifact hreach' hpath
  · rw [hnone] at hlook
    have hspot := Stands.spot_follow hends (Stands.entry?_ne_link (look_ne_other_of_eq none hlook))
    rw [show m'.files.entry? slot.1 slot.backup.2 = none from look_eq_none_iff.mp hlook] at hspot
    rw [FileSystem.read, find, hspot] at hok
    cases hok
  · exact (hways.enters henters).read_ne_ok hends content hok

/-- An artifact is replaced, if there is a path for its backup. -/
theorem EndsIn.replace {content : Bytes} (h : m.EndsIn path slot) (hsound : m.files.IsSound)
    (hslot : slot.IsArtifact) (hback : m.EndsIn (backupPath path) slot.backup)
    (hlook : m.files.look slot = some (.file content)) (hattached : m.files.isAttached slot.1 = true)
    (later : Bytes) : ∃ files, host.replace path later m = (none, m.withFiles files) ∧
      m.files.Turns files slot (some later) := by
  have hroom : IsPath (Path.withFileName path slot.backup.2) :=
    backupPath_of_fileName (Stands.fileName? h) ▸ hback.isPath
  exact replace_of_stands hsound h hslot.1 (look_ne_other_of_eq (some content) hlook) hattached
    hslot.isName_backup hslot.length_temporaryName_le hroom later

/-- A backup that is written gets its name beside the artifact. -/
theorem EndsIn.beside {m' : Machine} {content : Bytes} (h : m.EndsIn path slot)
    (hslot : slot.IsArtifact) (hwrite : host.write (backupPath path) content m = (true, m')) :
    m.EndsIn (backupPath path) slot.backup := by
  obtain ⟨files, hfiles, -⟩ := exists_of_write hwrite
  have hname : Path.fileName? path = some slot.2 := Stands.fileName? h
  obtain ⟨place, links, hsteps, hreach⟩ := h.reaches
  have hback : (backupPath path).steps = place ++ [.name slot.backup.2] := by
    rw [backupPath_of_fileName hname,
      Path.steps_withFileName (by rw [hname]; exact nofun) hslot.isName_backup, hsteps,
      Path.sibling_concat]
  cases hspot : m.files.spot .follow m.home (backupPath path) with
  | error e =>
    rw [FileSystem.write, create, hspot] at hfiles
    cases hfiles
  | ok s =>
    obtain ⟨links', k, hreach', hends⟩ := exists_stands_of_spot hspot
      (meansDirectory_backupPath hslot hname) hback hslot.isName_backup
    obtain rfl := hreach.unique hreach'
    exact hends

end Machine

end MutationTesting
