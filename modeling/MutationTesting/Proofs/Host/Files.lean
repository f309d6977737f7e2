import MutationTesting.Machine.Host
import MutationTesting.Proofs.FileSystem.Leaves
/-!
# The files of a machine

What the steps of a host do to the files of a machine that are used from outside. A file is reached
by a path that stands in a directory; each step changes what one name stands for, or nothing, and
leaves the machine as it is otherwise.

## Main results

* `Path.exists_parent_append` — the parent of a path and its name are parts of it
* `Machine.read_of_stands`, `Machine.write_of_stands`, `Machine.replace_of_stands`,
  `Machine.remove_of_stands`, `Machine.copy_of_stands` — the steps
* `Machine.claim_of_locked`, `Machine.claim_of_not_locked` — the claim of a file
-/

namespace MutationTesting

namespace Path

theorem joined_append {ps qs : List Piece} (hps : ps ≠ []) (hqs : qs ≠ []) :
    joined (ps ++ qs) = joined ps ++ '/' :: joined qs := by
  induction ps with
  | nil => exact absurd rfl hps
  | cons p ps ih =>
    cases ps with
    | nil =>
      obtain ⟨q, qs, rfl⟩ := List.exists_cons_of_ne_nil hqs
      rw [List.singleton_append, joined_cons_cons, joined_singleton]
    | cons p' ps =>
      rw [List.cons_append, List.cons_append, joined_cons_cons, joined_cons_cons,
        ← List.cons_append, ih (List.cons_ne_nil p' ps), List.append_assoc, List.cons_append]

theorem exists_joined_cons (n : Piece) (qs : List Piece) :
    ∃ after, joined (n :: qs) = n ++ after := by
  cases qs with
  | nil => exact ⟨[], by simp⟩
  | cons q qs => exact ⟨_, joined_cons_cons n q qs⟩

theorem exists_joined_append (ps : List Piece) (n : Piece) (qs : List Piece) :
    ∃ before after, joined (ps ++ n :: qs) = before ++ n ++ after := by
  obtain ⟨after, hafter⟩ := exists_joined_cons n qs
  by_cases hps : ps = []
  · exact ⟨[], after, by rw [hps]; exact hafter⟩
  · refine ⟨joined ps ++ ['/'], after, ?_⟩
    rw [joined_append hps (List.cons_ne_nil n qs), hafter]
    simp

/-- The parent of a path, its last name and what may come between them and behind. -/
theorem exists_parent_append {path : Path} {n : Piece} (h : fileName? path = some n) :
    ∃ parent between after, parent? path = some parent ∧
      path = parent ++ between ++ n ++ after := by
  obtain ⟨-, hvoid, first, rest, hpieces, hends⟩ := exists_pieces h
  have htrimmed := trimmed_of_pieces hpieces
  have hpath : path = joined (first :: rest) := by
    have hne : path ≠ [] := by
      rintro rfl
      cases hpieces
    rw [← hpieces, pieces_of_ne_nil hne, joined_splitAt]
  obtain ⟨rfl, hrest⟩ | ⟨init, hrest⟩ := hends
  · -- the path is a name and nothing else
    obtain ⟨after, hafter⟩ := exists_joined_cons first rest
    refine ⟨[], [], after, ?_, hpath.trans hafter⟩
    rw [parent?, htrimmed, hrest]
    cases first with
    | nil => cases hvoid
    | cons _ _ => rfl
  · obtain ⟨voids, hvoids⟩ := List.rdropWhile_prefix isVoid rest
    obtain ⟨later, hinit⟩ := List.rdropWhile_prefix isVoid init
    rw [← dropEndWhile_eq] at hvoids hinit
    rw [hrest] at htrimmed hvoids
    have hparent := parent?_of_trimmed htrimmed (by simp)
    rw [List.dropLast_concat] at hparent
    obtain ⟨before, after, hjoined⟩ := exists_joined_append later n voids
    have hsplit : first :: rest =
        (first :: dropEndWhile isVoid init) ++ (later ++ n :: voids) := by
      rw [List.cons_append, ← List.append_assoc, hinit, ← hvoids]
      simp
    have hwhole : path =
        joined (first :: dropEndWhile isVoid init) ++ '/' :: (before ++ n ++ after) := by
      rw [hpath, hsplit, joined_append (by simp) (by simp), hjoined]
    by_cases hroot : first :: dropEndWhile isVoid init = [[]]
    · refine ⟨['/'], before, after, by rw [hparent, hroot]; rfl, ?_⟩
      rw [hwhole, hroot]
      simp
    · refine ⟨_, '/' :: before, after, hparent, ?_⟩
      rw [ofPieces_of_ne hroot, hwhole]
      simp

theorem steps_parent {path parent : Path} {n : Piece} (h : fileName? path = some n)
    (hparent : parent? path = some parent) : steps parent = (steps path).dropLast := by
  obtain ⟨parent', hparent', hcomponents⟩ := exists_parent h
  obtain rfl := Option.some.inj (hparent.symm.trans hparent')
  have hlast : components path = (components path).dropLast ++ [.name n] :=
    eq_concat_of_lastName? h
  rw [steps, hcomponents, steps, hlast, List.filter_append, List.dropLast_concat]
  exact (List.dropLast_concat ..).symm

/-! ### Names behind a directory -/

theorem fileName?_join (dir : Path) {n : Piece} (hn : isName n = true) :
    fileName? (join dir n) = some n := by
  rw [← lastName?_steps, steps_join_name dir hn, lastName?_concat]

/-- A path that ends in a name means no directory. -/
theorem meansDirectory_join (dir : Path) {n : Piece} (hn : isName n = true) :
    FileSystem.meansDirectory (join dir n) = false := by
  obtain ⟨ps, -, hpieces⟩ := exists_pieces_join dir
  have hjoin := hpieces [n] (List.cons_ne_nil n []) (List.forall_mem_singleton.mpr hn)
  have hne : join dir n ≠ [] := by
    intro hnil
    have hname := fileName?_join dir hn
    rw [hnil] at hname
    cases hname
  rw [joined_singleton, pieces_of_ne_nil hne] at hjoin
  rw [FileSystem.meansDirectory, hjoin, List.getLast?_concat]
  exact isVoid_of_isName hn

/-- The parent of a path that goes on behind a name. -/
theorem parent?_join (dir : Path) {a n : Piece} (ha : isName a = true) (hn : isName n = true) :
    parent? (join (join dir a) n) = some (join dir a) := by
  obtain ⟨ps, -, hpieces⟩ := exists_pieces_join dir
  have hall : ∀ m ∈ [a, n], isName m = true :=
    List.forall_mem_cons.mpr ⟨ha, List.forall_mem_singleton.mpr hn⟩
  have hwhole := hpieces [a, n] (List.cons_ne_nil a [n]) hall
  have hfirst := hpieces [a] (List.cons_ne_nil a []) (List.forall_mem_singleton.mpr ha)
  have hjoin : join dir (joined [a, n]) = join (join dir a) n :=
    (foldl_join dir (List.cons_ne_nil a [n]) hall).symm
  have hne : join dir a ≠ [] := by
    intro hnil
    have hname := fileName?_join dir ha
    rw [hnil] at hname
    cases hname
  have hlist : ps ++ [a, n] = ps ++ [a] ++ [n] := by simp
  rw [joined_singleton] at hfirst
  rw [hjoin, hlist] at hwhole
  have htrimmed := trimmed_of_concat hwhole hn
  have hback : ofPieces (ps ++ [a]) = join dir a := by rw [← hfirst, ofPieces_pieces hne]
  have hvoid : ¬ isVoid a = true := by simp [isVoid_of_isName ha]
  cases ps with
  | nil =>
    rw [List.nil_append] at hback
    rw [parent?_of_trimmed htrimmed (List.cons_ne_nil n [])]
    exact congrArg some hback
  | cons p ps =>
    rw [List.cons_append, List.cons_append] at htrimmed
    rw [parent?_of_trimmed htrimmed (by simp), List.dropLast_concat, dropEndWhile_eq,
      List.rdropWhile_concat_neg _ _ _ hvoid]
    exact congrArg some hback

/-- Another name behind the same names. -/
theorem withFileName_join (dir : Path) {a n m : Piece} (ha : isName a = true)
    (hn : isName n = true) : withFileName (join (join dir a) n) m = join (join dir a) m := by
  simp only [withFileName, fileName?_join _ hn, parent?_join dir ha hn]

theorem exists_withFileName {path : Path} {n : Piece} (h : fileName? path = some n) :
    ∃ parent, ∀ m, withFileName path m = join parent m := by
  obtain ⟨parent, hparent, -⟩ := exists_parent h
  exact ⟨parent, fun m => by simp only [withFileName, h, hparent]⟩

/-- The last of some names behind a directory. -/
theorem join_joined_concat (dir : Path) {way : List Piece} {n : Piece}
    (h : ∀ m ∈ way, isName m = true) (hn : isName n = true) :
    join dir (joined (way ++ [n])) = join (way.foldl join dir) n := by
  rw [← foldl_join dir (by simp) (List.forall_mem_append.mpr
    ⟨h, List.forall_mem_singleton.mpr hn⟩), List.foldl_append]
  rfl

/-- There is a path for so many names at least. -/
theorem length_le_joined {way : List Piece} (h : ∀ m ∈ way, isName m = true) :
    way.length ≤ (joined way).length := by
  induction way with
  | nil => exact Nat.zero_le _
  | cons n way ih =>
    obtain ⟨hn, hrest⟩ := List.forall_mem_cons.mp h
    have hlength : 0 < n.length := List.length_pos_of_ne_nil (isName_iff.mp hn).1
    cases way with
    | nil =>
      rw [joined_singleton]
      exact hlength
    | cons m way =>
      have hlater := ih hrest
      rw [joined_cons_cons]
      simp only [List.length_cons, List.length_append] at hlater ⊢
      omega

end Path

namespace FileSystem

variable {fs : FileSystem} {here n : Nat} {name : Octets} {path : Octets}

theorem Stands.fileName? (h : fs.Stands here path n name) : Path.fileName? path = some name := by
  obtain ⟨place, -, hsteps, -⟩ := h.reaches
  rw [← Path.lastName?_steps, hsteps, Path.lastName?_concat]

/-- The directory in which a new file is made that is to get the name of a path. -/
theorem Stands.exists_parent (h : fs.Stands here path n name) : ∃ parent,
    Path.parent? path = some parent ∧
      fs.LeadsTo here (if parent = [] then ['.'] else parent) n := by
  obtain ⟨parent, between, after, hparent, hpath⟩ := Path.exists_parent_append h.fileName?
  have hsteps := Path.steps_parent h.fileName? hparent
  refine ⟨parent, hparent, ?_⟩
  by_cases hnil : parent = []
  · rw [if_pos hnil]
    refine h.leadsTo ⟨by decide, by decide, by decide⟩ ?_
    rw [← hsteps, hnil]
    rfl
  · rw [if_neg hnil]
    have hprefix : parent <+: path := ⟨between ++ name ++ after, by rw [hpath]; simp⟩
    exact h.leadsTo (h.isPath.of_prefix hprefix hnil) hsteps

/-- No name in a path that can be followed has a zero octet. -/
theorem Stands.plain (h : fs.Stands here path n name) : '\x00' ∉ name := by
  obtain ⟨parent, between, after, -, hpath⟩ := Path.exists_parent_append h.fileName?
  intro hmem
  refine h.isPath.plain ?_
  rw [hpath]
  simp [hmem]

theorem isPath_leading_append {base : Path} (hbase : '\x00' ∉ base)
    (hname : Path.isName name = true) (hplain : '\x00' ∉ name)
    (hshort : (Path.join base name).length < pathLimit) : IsPath (Path.join base name) := by
  have habsolute : Path.isAbsolute (Path.joined [name]) = false :=
    Path.isAbsolute_joined (List.cons_ne_nil name []) (List.forall_mem_singleton.mpr hname)
  rw [Path.joined_singleton] at habsolute
  refine ⟨join_ne_nil base hname, ?_, hshort⟩
  rw [Path.join_eq_leading_append base habsolute, Path.leading, List.mem_append]
  split <;> simp [hbase, hplain]

/-- A shorter name in the place of the last one. -/
theorem IsPath.withFileName (h : IsPath path) (hname : Path.fileName? path = some name)
    {other : Octets} (hother : Path.isName other = true) (hplain : '\x00' ∉ other)
    (hlength : other.length < name.length) : IsPath (Path.withFileName path other) := by
  obtain ⟨parent, between, after, hparent, hpath⟩ := Path.exists_parent_append hname
  have hjoin : Path.withFileName path other = Path.join parent other := by
    simp only [Path.withFileName, hname, hparent]
  have hbase : '\x00' ∉ parent := fun hmem => h.plain (by rw [hpath]; simp [hmem])
  have hle : (Path.leading parent).length ≤ parent.length + 1 := by
    rw [Path.leading]
    split <;> simp
  have hshort := h.short
  rw [hpath] at hshort
  simp only [List.length_append] at hshort
  have habsolute : Path.isAbsolute (Path.joined [other]) = false :=
    Path.isAbsolute_joined (List.cons_ne_nil other []) (List.forall_mem_singleton.mpr hother)
  rw [Path.joined_singleton] at habsolute
  rw [hjoin]
  refine isPath_leading_append hbase hother hplain ?_
  rw [Path.join_eq_leading_append parent habsolute, List.length_append]
  omega

theorem form?_setMode (fs : FileSystem) (k mode m : Nat) :
    (fs.setMode k mode).form? m = fs.form? m := by
  rw [setMode]
  split
  · rfl
  · next node hnode =>
    rw [form?_setNode]
    by_cases hm : m = k
    · rw [if_pos hm, hm, FileSystem.form?, hnode]
      rfl
    · rw [if_neg hm]

theorem issued_setMode (fs : FileSystem) (k mode : Nat) :
    (fs.setMode k mode).issued = fs.issued := by
  rw [setMode]
  split <;> rfl

end FileSystem

namespace Kernel

variable {k k' : Kernel} {holder : LockHolder} {node : Nat}

/-- A file cannot be locked if somebody else has it locked. -/
theorem lock?_eq_none_iff (h : ∀ l ∈ k.locks, l.holder ≠ holder) :
    k.lock? holder node false = none ↔ ∃ l ∈ k.locks, l.node = node := by
  have hany : (k.locks.any fun l =>
      l.node = node && l.holder != holder && !(l.shared && false)) = true ↔
        ∃ l ∈ k.locks, l.node = node := by
    rw [List.any_eq_true]
    refine exists_congr fun l => and_congr_right fun hl => ?_
    simp [h l hl]
  rw [lock?, ← hany]
  split
  · next hlocked => exact iff_of_true rfl hlocked
  · next hlocked => exact iff_of_false nofun hlocked

theorem exists_lock {shared : Bool} (h : k.lock? holder node shared = some k') :
    ∃ l ∈ k'.locks, l.node = node := by
  rw [lock?] at h
  split at h
  · cases h
  · obtain rfl := Option.some.inj h
    exact ⟨_, List.mem_cons_self, rfl⟩

end Kernel

namespace Machine

open FileSystem

variable {m m' : Machine} {path source target : Path} {n k : Nat} {name other : Octets}
  {content before : Bytes}

theorem attempt_of_ok (change : FileSystem → Nat → FileChange) {files : FileSystem}
    (h : change m.files m.home = .ok files) : attempt change m = (true, m.withFiles files) := by
  rw [attempt, h]

theorem attempt_of_error (change : FileSystem → Nat → FileChange) {e : FileError}
    (h : change m.files m.home = .error e) : attempt change m = (false, m) := by
  rw [attempt, h]

theorem exists_of_write (h : host.write path content m = (true, m')) : ∃ files,
    m.files.write m.home path content fileMode = .ok files ∧ m' = m.withFiles files := by
  change attempt (fun fs here => fs.write here path content fileMode) m = (true, m') at h
  rw [attempt] at h
  split at h
  · next files hfiles => exact ⟨files, hfiles, (Prod.mk.inj h).2.symm⟩
  · cases h

/-- **A file is read.** -/
theorem read_of_stands (h : m.files.Stands m.home path n name)
    (hlook : m.files.look (n, name) = some (.file content)) :
    host.read m path = some content :=
  congrArg Except.toOption (FileSystem.read_of_stands h hlook)

/-- **A new file is written**, in a directory that was not removed. -/
theorem write_of_stands (hsound : m.files.IsSound) (h : m.files.Stands m.home path n name)
    (hname : Path.isName name = true) (hlook : m.files.look (n, name) = none)
    (hattached : m.files.isAttached n = true) (content : Bytes) :
    ∃ files, host.write path content m = (true, m.withFiles files) ∧
      m.files.Turns files (n, name) (some content) := by
  have heq := write_eq_of_stands h hlook content fileMode
  rw [hattached, if_pos rfl] at heq
  exact ⟨_, attempt_of_ok (fun fs here => fs.write here path content fileMode) heq,
    (binds_setContent_addAt hsound h.admits.directory hname (look_ne_other_of_eq none hlook) content
      fileMode).turns hsound⟩

/-- No file is written in a directory that was removed. -/
theorem isAttached_of_write (h : m.files.Stands m.home path n name)
    (hlook : m.files.look (n, name) = none) (hwrite : host.write path content m = (true, m')) :
    m.files.isAttached n = true := by
  obtain ⟨files, hfiles, -⟩ := exists_of_write hwrite
  rw [write_eq_of_stands h hlook] at hfiles
  by_contra hattached
  rw [if_neg hattached] at hfiles
  cases hfiles

/-- **A file is replaced**, if there is room beside it for the path of a backup. -/
theorem replace_of_stands (hsound : m.files.IsSound) (h : m.files.Stands m.home path n name)
    (hname : Path.isName name = true) (hfree : ∀ k, m.files.look (n, name) ≠ some (.other k))
    (hattached : m.files.isAttached n = true) (hother : Path.isName other = true)
    (hlength : temporaryName.length ≤ other.length)
    (hroom : IsPath (Path.withFileName path other)) (content : Bytes) :
    ∃ files, host.replace path content m = (none, m.withFiles files) ∧
      m.files.Turns files (n, name) (some content) := by
  obtain ⟨parent, hparent, hlead⟩ := h.exists_parent
  obtain ⟨hfind, hn⟩ := find_directory_iff.mpr hlead
  have hshort : (Path.join parent temporaryName).length < pathLimit := by
    have hwhole : Path.withFileName path other = Path.join parent other := by
      simp only [Path.withFileName, h.fileName?, hparent]
    have habsolute : Path.isAbsolute (Path.joined [other]) = false :=
      Path.isAbsolute_joined (List.cons_ne_nil other []) (List.forall_mem_singleton.mpr hother)
    rw [Path.joined_singleton] at habsolute
    have hlimit := hroom.short
    rw [hwhole, Path.join_eq_leading_append parent habsolute, List.length_append] at hlimit
    rw [Path.join_eq_leading_append parent (by decide), List.length_append]
    omega
  have hreplaced := replaceFile_eq_of_stands h hfree content privateMode
  rw [hattached, if_pos rfl] at hreplaced
  refine ⟨_, ?_, turns_addAt hsound hn hname hfree content privateMode⟩
  change replace path content m = _
  simp only [replace, hparent, Option.getD_some, hfind, hn, hattached, hshort, hreplaced,
    Bool.and_self, decide_true, if_true]

/-- **A file is removed.** -/
theorem remove_of_stands (hsound : m.files.IsSound) (h : m.files.Stands m.home path n name)
    (hname : Path.isName name = true) (hlook : m.files.look (n, name) = some (.file content)) :
    ∃ files, host.remove path m = (true, m.withFiles files) ∧
      m.files.Turns files (n, name) none :=
  ⟨_, attempt_of_ok (fun fs here => fs.removeFile here path)
      (removeFile_of_stands h hlook),
    turns_dropEntry hsound h.admits.directory hname (look_ne_other_of_eq (some content) hlook)⟩

/-- Nothing comes of copying a file that is not there. -/
theorem copy_of_missing (h : m.files.Stands m.home source n name)
    (hlook : m.files.look (n, name) = none) (target : Path) :
    host.copy source target m = (false, m) := by
  have hspot := h.spot_follow (Stands.entry?_ne_link (look_ne_other_of_eq none hlook))
  rw [look_eq_none_iff.mp hlook] at hspot
  have hfind : m.files.find .follow m.home source = .error .missing := by
    rw [find, hspot]
    rfl
  refine attempt_of_error (copyFile source target) (e := .missing) ?_
  rw [copyFile, hfind]
  rfl

/-- **A file is copied** over one that has no other name. -/
theorem copy_of_stands (hsound : m.files.IsSound) (hsource : m.files.Stands m.home source k other)
    (hlook : m.files.look (k, other) = some (.file content))
    (htarget : m.files.Stands m.home target n name) (hname : Path.isName name = true)
    (howns : m.files.Owns (n, name)) (hne : (k, other) ≠ (n, name)) :
    ∃ files, host.copy source target m = (true, m.withFiles files) ∧
      m.files.Turns files (n, name) (some content) := by
  obtain ⟨i, hentry, hform⟩ := look_eq_file_iff.mp hlook
  obtain ⟨j, before, hentry', hform', honly⟩ := id howns
  have hij : i ≠ j := by
    rintro rfl
    exact hne (honly k (other, i) (hsound.toIsTree.mem_entries_iff.mpr hentry) rfl)
  have hspot := hsource.spot_follow
    (Stands.entry?_ne_link (look_ne_other_of_eq (some content) hlook))
  have hfind : m.files.find .follow m.home source = .ok i :=
    find_eq_ok_iff.mpr ⟨_, hspot, hentry⟩
  obtain ⟨⟨_, mode, time⟩, hnode, rfl⟩ := Option.map_eq_some_iff.mp hform
  have hcreate : m.files.create m.home target mode = .ok (j, m.files) :=
    create_of_file htarget hentry' hform' mode
  -- the file is emptied, filled and given the mode of the other one
  have hempty : (m.files.setContent j []).form? j = some (.file []) := by
    rw [form?_setContent hform', if_pos rfl]
  have hread : (m.files.setContent j []).content i = .ok content := by
    rw [FileSystem.content, form?_setContent hform', if_neg hij, FileSystem.form?, hnode]
    rfl
  have hfull : ((m.files.setContent j []).setContent j content).form? j = some (.file content) := by
    rw [form?_setContent hempty, if_pos rfl]
  have hcopy : copyFile source target m.files m.home =
      .ok (((m.files.setContent j []).setContent j content).setMode j mode) := by
    simp [copyFile, hfind, hnode, hcreate, hread, hfull, bind, Except.bind, pure, Except.pure]
  refine ⟨_, attempt_of_ok (copyFile source target) hcopy,
    (binds_own hsound hname howns hentry' ?_ fun m' => ?_).turns hsound⟩
  · rw [issued_setMode, issued_setContent, issued_setContent]
  · rw [form?_setMode, form?_setContent hempty, form?_setContent hform']
    by_cases hm : m' = j
    · rw [if_pos hm, if_pos hm]
    · rw [if_neg hm, if_neg hm, if_neg hm]

/-! ### Claims -/

/-- A file is locked only while it is there, and the number of the next claim has no lock yet. -/
structure LocksInOrder (m : Machine) : Prop where
  there : ∀ l ∈ m.kernel.locks, l.node < m.files.issued
  fresh : ∀ l ∈ m.kernel.locks, l.holder ≠ .claim m.claimed

/-- Somebody has the file of the name locked. -/
def IsLocked (m : Machine) (slot : Slot) : Prop :=
  ∃ k, m.files.entry? slot.1 slot.2 = some k ∧ ∃ l ∈ m.kernel.locks, l.node = k

/-- The claim of a file that is there or was made. -/
theorem claim_of_create {files : FileSystem} (hcreate : m.files.create m.home path fileMode =
    .ok (k, files)) (hform : files.form? k = some (.file content)) (text : String) :
    host.claim path text m =
      match (m.withFiles files).kernel.lock? (.claim m.claimed) k false with
      | none => (.busy, m.withFiles files)
      | some kernel => (.granted m.claimed, Machine.withFiles
          { m.withFiles files with kernel, claimed := m.claimed + 1 }
          (files.setContent k (Utf8.encode text))) := by
  change claim path text m = _
  rw [claim, hcreate]
  simp only [hform]
  rfl

/-- **A claim is refused** while somebody has the file locked. -/
theorem claim_of_locked (hlocks : m.LocksInOrder) (h : m.files.Stands m.home path n name)
    (howns : m.files.Owns (n, name)) (hlocked : m.IsLocked (n, name)) (text : String) :
    host.claim path text m = (.busy, m) := by
  obtain ⟨k, before, hentry, hform, -⟩ := howns
  obtain ⟨k', hentry', hlock⟩ := hlocked
  obtain rfl : k = k' := Option.some.inj (hentry.symm.trans hentry')
  have hkernel : (m.withFiles m.files).kernel.lock? (.claim m.claimed) k false = none :=
    (Kernel.lock?_eq_none_iff hlocks.fresh).mpr hlock
  rw [claim_of_create (create_of_file h hentry hform fileMode) hform, hkernel]
  rfl

/-- **A claim is granted** if nobody has the file locked. The file holds the text then and is
locked. -/
theorem claim_of_not_locked (hsound : m.files.IsSound) (hlocks : m.LocksInOrder)
    (h : m.files.Stands m.home path n name) (hname : Path.isName name = true)
    (hattached : m.files.isAttached n = true)
    (hfile : m.files.look (n, name) = none ∨ m.files.Owns (n, name))
    (hfree : ¬ m.IsLocked (n, name)) (text : String) :
    ∃ m', host.claim path text m = (.granted m.claimed, m') ∧
      m.files.Turns m'.files (n, name) (some (Utf8.encode text)) ∧ m'.IsLocked (n, name) := by
  -- the file is there or is made, and nobody has it locked
  obtain ⟨k, files, before, hcreate, hform, hunlocked, hbinds⟩ : ∃ k files before,
      m.files.create m.home path fileMode = .ok (k, files) ∧
      files.form? k = some (.file before) ∧ (¬ ∃ l ∈ m.kernel.locks, l.node = k) ∧
      m.files.Binds (files.setContent k (Utf8.encode text)) n name (some (k, Utf8.encode text)) := by
    obtain hlook | howns := hfile
    · have hn := h.admits.directory
      have hother := look_ne_other_of_eq none hlook
      refine ⟨m.files.issued, _, [], by rw [create_of_missing h hlook, if_pos hattached]; rfl, ?_, ?_,
        binds_setContent_addAt hsound hn hname hother _ fileMode⟩
      · rw [form?_addAt hsound hn, if_neg (hsound.numbered hn).ne', if_pos rfl]
      · rintro ⟨l, hl, hnode⟩
        exact (hlocks.there l hl).ne hnode
    · obtain ⟨k, before, hentry, hform, -⟩ := id howns
      exact ⟨k, m.files, before, create_of_file h hentry hform fileMode, hform,
        fun hlock => hfree ⟨k, hentry, hlock⟩, binds_setContent hsound hname howns hentry _⟩
  obtain ⟨kernel, hkernel⟩ : ∃ kernel,
      (m.withFiles files).kernel.lock? (.claim m.claimed) k false = some kernel :=
    Option.ne_none_iff_exists'.mp (mt (Kernel.lock?_eq_none_iff (k := (m.withFiles files).kernel)
      hlocks.fresh).mp hunlocked)
  have hlock : ∃ l ∈ kernel.locks, l.node = k := Kernel.exists_lock hkernel
  have hclaim := claim_of_create hcreate hform text
  rw [hkernel] at hclaim
  exact ⟨_, hclaim, hbinds.turns hsound, k, hbinds.entry?_name hsound.toIsTree, hlock⟩

end Machine

end MutationTesting
