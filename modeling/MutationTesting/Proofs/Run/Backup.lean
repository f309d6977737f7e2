import Mathlib.Logic.Function.Basic
import MutationTesting.Class.Location
import MutationTesting.Proofs.Host.Disk
import MutationTesting.Run.ArtifactGuard
/-!
# Originals that can be had back

The name of an artifact is found again in the name of its backup, so each artifact of a directory
has a backup of its own. A disk keeps the originals of a directory if each artifact there either
holds its original or has it in its backup, and there are no backups of anything else. The steps by
which artifacts are changed and put back keep them so.

## Main definitions

* `Location.IsArtifact`, `Location.IsBackup`, `Location.backup`
* `Disk.Keeps` — the originals can be had back

## Main results

* `artifactName?_backupName` — the artifact of a backup
* `Disk.Keeps.save`, `Disk.Keeps.change`, `Disk.Keeps.putBack`, `Disk.Keeps.tidy`,
  `Disk.Keeps.idle` — what keeps the originals
-/

namespace MutationTesting

/-! ### Names of backups -/

namespace Octets

theorem bytes_of_text? {n : Octets} {text : String} (h : n.text? = some text) :
    n.bytes = Utf8.encode text := by
  rw [text?, Utf8.text?, String.fromUTF8?] at h
  split at h
  · obtain rfl := Option.some.inj h
    rfl
  · cases h

theorem ofBytes_bytes {n : Octets} (h : ∀ c ∈ n, c.toNat < 256) : ofBytes n.bytes = n := by
  have hchar : ∀ c ∈ n, (ofByte ∘ byte) c = id c := by
    intro c hc
    rw [Function.comp_apply, ofByte, byte, UInt8.toNat_ofNat_of_lt' (h c hc), Char.ofNat_toNat, id]
  rw [ofBytes, bytes, List.map_map, List.map_congr_left hchar, List.map_id]

theorem ofString_append (s t : String) : ofString (s ++ t) = ofString s ++ ofString t := by
  simp [ofString, Utf8.encode, ofBytes, String.toByteArray_append]

/-- Octets that are a text are the octets of this text. -/
theorem ofString_text {n : Octets} (hn : n.text?.isSome = true) (h : ∀ c ∈ n, c.toNat < 256) :
    ofString n.text = n := by
  obtain ⟨text, htext⟩ := Option.isSome_iff_exists.mp hn
  have hbytes : n.bytes = Utf8.encode text := bytes_of_text? htext
  rw [Octets.text, hbytes, Utf8.lossy_encode, ofString, ← hbytes, ofBytes_bytes h]

end Octets

/-- The name of the backup of an artifact with the name. -/
def backupName (n : Octets) : Octets := .ofString ("." ++ n.text ++ backupSuffix)

section

variable {n : Octets}

theorem isArtifactName_iff : isArtifactName n = true ↔
    n.text?.isSome = true ∧ classSuffix.toList <:+ n ∧ n.head? ≠ some '.' := by
  simp only [isArtifactName, Bool.and_eq_true, List.isSuffixOf_iff_suffix, bne_iff_ne, and_assoc]

theorem backupName_eq (hartifact : isArtifactName n = true) (hname : Path.isName n = true) :
    backupName n = '.' :: (n ++ backupSuffix.toList) := by
  have hdot : Octets.ofString "." = ['.'] := by decide
  have hsuffix : Octets.ofString backupSuffix = backupSuffix.toList := by decide
  rw [backupName, Octets.ofString_append, Octets.ofString_append, hdot, hsuffix,
    Octets.ofString_text (isArtifactName_iff.mp hartifact).1 (Path.isName_iff.mp hname).2.2.2.2]
  rfl

/-- The name of an artifact is found again in the name of its backup. -/
theorem artifactName?_backupName (hartifact : isArtifactName n = true)
    (hname : Path.isName n = true) : artifactName? (backupName n) = some n := by
  have htext : (backupName n).text?.isSome = true := by
    rw [backupName, Octets.text?_ofString]
    rfl
  have heq := backupName_eq hartifact hname
  rw [heq] at htext ⊢
  have hsuffix : backupSuffix.toList.isSuffixOf (n ++ backupSuffix.toList) = true :=
    List.isSuffixOf_iff_suffix.mpr (List.suffix_append ..)
  rw [artifactName?, htext, hsuffix, Bool.and_self, if_pos rfl, List.length_append,
    Nat.add_sub_cancel, List.take_left]

theorem isName_backupName (hartifact : isArtifactName n = true) (hname : Path.isName n = true) :
    Path.isName (backupName n) = true := by
  have hsuffix : ∀ c ∈ '.' :: backupSuffix.toList, c ≠ '/' ∧ c.toNat < 256 := by
    have hall : ('.' :: backupSuffix.toList).all (fun c => c != '/' && decide (c.toNat < 256)) := by
      decide
    simpa only [List.all_eq_true, Bool.and_eq_true, bne_iff_ne, decide_eq_true_eq] using hall
  obtain ⟨-, -, -, hslash, hbyte⟩ := Path.isName_iff.mp hname
  have hall : ∀ c ∈ '.' :: (n ++ backupSuffix.toList), c ≠ '/' ∧ c.toNat < 256 := by
    intro c hc
    obtain rfl | hc := List.mem_cons.mp hc
    · exact hsuffix _ (List.mem_cons_self ..)
    · obtain hc | hc := List.mem_append.mp hc
      · exact ⟨hslash c hc, hbyte c hc⟩
      · exact hsuffix c (List.mem_cons_of_mem _ hc)
  rw [backupName_eq hartifact hname, Path.isName_iff]
  have hlength : ('.' :: (n ++ backupSuffix.toList)).length > 2 := by
    rw [List.length_cons, List.length_append, show backupSuffix.toList.length = 13 from by decide]
    omega
  refine ⟨nofun, ?_, ?_, fun c hc => (hall c hc).1, fun c hc => (hall c hc).2⟩
  · intro h
    rw [h] at hlength
    exact absurd hlength (by decide)
  · intro h
    rw [h] at hlength
    exact absurd hlength (by decide)

/-- No file is an artifact and a backup. -/
theorem artifactName?_of_isArtifactName (h : isArtifactName n = true) : artifactName? n = none := by
  have hhead := (isArtifactName_iff.mp h).2.2
  cases n with
  | nil => rfl
  | cons c n =>
    rw [artifactName?]
    intro name hc
    exact hhead (congrArg List.head? hc)

end

/-! ### Locations of backups -/

namespace Location

variable {dir : Path} {a b place : Location}

/-- A class artifact below the directory. -/
def IsArtifact (dir : Path) (place : Location) : Prop := NamedBelow isArtifactName dir place

/-- A backup below the directory. -/
def IsBackup (dir : Path) (place : Location) : Prop :=
  NamedBelow (fun n => (artifactName? n).isSome) dir place

/-- The location of the backup of an artifact. -/
def backup (a : Location) : Location := Path.sibling a (backupName ((Path.lastName? a).getD []))

/-- An artifact with its name, and its backup. -/
theorem IsArtifact.exists_name (ha : IsArtifact dir a) :
    ∃ n, Path.lastName? a = some n ∧ Path.isName n = true ∧ isArtifactName n = true ∧
      a.backup = Path.sibling a (backupName n) := by
  obtain ⟨n, hlast, hname, hartifact⟩ := ha.exists_lastName?
  exact ⟨n, hlast, hname, hartifact, by rw [backup, hlast, Option.getD_some]⟩

theorem IsArtifact.isBackup_backup (ha : IsArtifact dir a) : IsBackup dir a.backup := by
  obtain ⟨n, -, hname, hartifact, heq⟩ := ha.exists_name
  rw [heq]
  refine ha.sibling (isName_backupName hartifact hname) ?_
  simp only [artifactName?_backupName hartifact hname, Option.isSome_some]

theorem IsArtifact.not_isBackup (ha : IsArtifact dir a) : ¬ IsBackup dir a := by
  intro hb
  obtain ⟨n, hlast, -, hartifact, -⟩ := ha.exists_name
  have hsome := hb.kind_of_lastName? hlast
  rw [artifactName?_of_isArtifactName hartifact] at hsome
  cases hsome

theorem IsArtifact.backup_ne (ha : IsArtifact dir a) (hb : IsArtifact dir b) : a.backup ≠ b :=
  fun h => hb.not_isBackup (h ▸ ha.isBackup_backup)

/-- The artifact of a backup is found beside it. -/
theorem sibling_backup {n : Octets} (hn : Path.lastName? a = some n) :
    Path.sibling a.backup n = a := by
  rw [backup, Path.sibling, Path.sibling, List.dropLast_concat]
  exact (Path.eq_concat_of_lastName? hn).symm

/-- Artifacts have backups of their own. -/
theorem IsArtifact.backup_inj (ha : IsArtifact dir a) (hb : IsArtifact dir b)
    (h : a.backup = b.backup) : a = b := by
  obtain ⟨n, hlast, hname, hartifact, heq⟩ := ha.exists_name
  obtain ⟨m, hlast', hname', hartifact', heq'⟩ := hb.exists_name
  have hnames : backupName n = backupName m := by
    have := congrArg Path.lastName? (heq.symm.trans (h.trans heq'))
    simpa using this
  have hsome := artifactName?_backupName hartifact' hname'
  rw [← hnames, artifactName?_backupName hartifact hname] at hsome
  rw [← sibling_backup hlast, ← sibling_backup hlast', h, Option.some.inj hsome]

end Location

section

variable {dir path : Path}

/-- The backup is another name beside the artifact. -/
theorem backupPath_eq (h : Location.IsArtifact dir path.steps) :
    ∃ n, Path.isName n = true ∧ backupPath path = path.withFileName n ∧
      (path.withFileName n).steps = Location.backup path.steps := by
  obtain ⟨n, hlast, hname, hartifact, heq⟩ := h.exists_name
  rw [Path.lastName?_steps] at hlast
  have hbackup : Path.isName (backupName n) = true := isName_backupName hartifact hname
  refine ⟨backupName n, hbackup, ?_, ?_⟩
  · simp only [backupPath, hlast, Option.getD_some, backupName]
  · rw [heq]
    exact Path.steps_withFileName (by simp [hlast]) hbackup

theorem steps_backupPath (h : Location.IsArtifact dir path.steps) :
    (backupPath path).steps = Location.backup path.steps := by
  obtain ⟨n, -, heq, hsteps⟩ := backupPath_eq h
  rw [heq, hsteps]

/-- The path of a backup leads to its artifact, which is another name beside it. -/
theorem artifactOfBackup?_eq {a : Location} (ha : a.IsArtifact dir) (h : path.steps = a.backup) :
    ∃ n, Path.isName n = true ∧ artifactOfBackup? path = some (path.withFileName n) ∧
      (path.withFileName n).steps = a := by
  obtain ⟨n, hlast, hname, hartifact, heq⟩ := ha.exists_name
  have hfile : Path.fileName? path = some (backupName n) := by
    rw [← Path.lastName?_steps, h, heq, Path.lastName?_sibling]
  refine ⟨n, hname, ?_, ?_⟩
  · rw [artifactOfBackup?, hfile, Option.bind_some, artifactName?_backupName hartifact hname]
    rfl
  · rw [Path.steps_withFileName (by simp [hfile]) hname, h, Location.sibling_backup hlast]

theorem artifactOfBackup?_of_steps {a : Location} (ha : a.IsArtifact dir)
    (h : path.steps = a.backup) :
    ∃ artifact, artifactOfBackup? path = some artifact ∧ artifact.steps = a := by
  obtain ⟨n, -, hartifact, hsteps⟩ := artifactOfBackup?_eq ha h
  exact ⟨_, hartifact, hsteps⟩

end

/-! ### Originals -/

namespace Disk

/-- What the artifacts of a directory held in the beginning can be had back: an artifact that does
not hold it has it in its backup, and nothing else has a backup. -/
structure Keeps (originals : Location → Option Bytes) (dir : Path) (d : Disk) : Prop where
  original : ∀ a o, a.IsArtifact dir → originals a = some o →
    d.lookup a.backup = some o ∨ (d.lookup a.backup = none ∧ d.lookup a = some o)
  artifact : ∀ a ∈ d, a.IsArtifact dir → originals a ≠ none
  backup : ∀ b ∈ d, b.IsBackup dir → ∃ a, a.IsArtifact dir ∧ originals a ≠ none ∧ b = a.backup

variable {originals : Location → Option Bytes} {dir : Path} {d : Disk} {a place : Location}
  {content o : Bytes}

/-- Without backups every artifact holds its original. -/
theorem keeps_lookup (h : ∀ place ∈ d, ¬ place.IsBackup dir) : d.Keeps (d.lookup ·) dir where
  original a o ha ho := by
    refine .inr ⟨AList.lookup_eq_none.mpr fun hmem => ?_, ho⟩
    exact h a.backup hmem ha.isBackup_backup
  artifact a ha _ := by
    obtain ⟨content, hcontent⟩ := Option.isSome_iff_exists.mp (AList.lookup_isSome.mpr ha)
    simp [hcontent]
  backup b hb hbackup := absurd hbackup (h b hb)

namespace Keeps

/-- What a backup holds. -/
theorem lookup_backup (h : d.Keeps originals dir) (ha : a.IsArtifact dir)
    (ho : originals a = some o) (hcontent : d.lookup a.backup = some content) : content = o := by
  obtain hbackup | ⟨hnone, -⟩ := h.original a o ha ho
  · exact Option.some.inj (hcontent.symm.trans hbackup)
  · rw [hcontent] at hnone
    cases hnone

/-- Nothing but an original is in the backup of an artifact. -/
theorem original_of_backup (h : d.Keeps originals dir) (ha : a.IsArtifact dir)
    (hcontent : d.lookup a.backup = some content) : originals a = some content := by
  have hmem : a.backup ∈ d := AList.lookup_isSome.mp (by rw [hcontent]; rfl)
  obtain ⟨a', ha', ho, heq⟩ := h.backup _ hmem ha.isBackup_backup
  obtain rfl := ha.backup_inj ha' heq
  obtain ⟨o, ho⟩ := Option.ne_none_iff_exists'.mp ho
  rw [ho, h.lookup_backup ha ho hcontent]

/-- An artifact may be changed as long as its backup is there, and may be given its original. -/
theorem insert (h : d.Keeps originals dir) (hplace : ¬ place.IsBackup dir)
    (hcontent : place.IsArtifact dir → ∃ o, originals place = some o ∧
      (d.lookup place.backup = some o ∨ content = o)) :
    Keeps originals dir (AList.insert place content d) where
  original a o ha ho := by
    have hbackup : a.backup ≠ place := fun heq => hplace (heq ▸ ha.isBackup_backup)
    rw [AList.lookup_insert_ne hbackup]
    by_cases hplace : a = place
    · subst hplace
      obtain ⟨o', ho', hsaved | rfl⟩ := hcontent ha
      · exact .inl (Option.some.inj (ho.symm.trans ho') ▸ hsaved)
      · obtain rfl := Option.some.inj (ho.symm.trans ho')
        obtain hsaved | ⟨hnone, -⟩ := h.original a o ha ho
        · exact .inl hsaved
        · exact .inr ⟨hnone, AList.lookup_insert d⟩
    · rw [AList.lookup_insert_ne hplace]
      exact h.original a o ha ho
  artifact a ha hartifact := by
    obtain rfl | ha := (AList.mem_insert d).mp ha
    · obtain ⟨o, ho, -⟩ := hcontent hartifact
      simp [ho]
    · exact h.artifact a ha hartifact
  backup b hb hbackup := by
    obtain rfl | hb := (AList.mem_insert d).mp hb
    · exact absurd hbackup hplace
    · exact h.backup b hb hbackup

/-- A file that is neither an artifact nor a backup is of no matter. -/
theorem idle (h : d.Keeps originals dir) (hartifact : ¬ place.IsArtifact dir)
    (hbackup : ¬ place.IsBackup dir) (content : Bytes) :
    Keeps originals dir (AList.insert place content d) :=
  h.insert hbackup fun ha => absurd ha hartifact

/-- An artifact with a backup may be changed. -/
theorem change (h : d.Keeps originals dir) (ha : a.IsArtifact dir) (ho : originals a = some o)
    (hsaved : d.lookup a.backup = some o) (content : Bytes) :
    Keeps originals dir (AList.insert a content d) :=
  h.insert ha.not_isBackup fun _ => ⟨o, ho, .inl hsaved⟩

/-- An artifact may be given its original. -/
theorem putBack (h : d.Keeps originals dir) (ha : a.IsArtifact dir) (ho : originals a = some o) :
    Keeps originals dir (AList.insert a o d) :=
  h.insert ha.not_isBackup fun _ => ⟨o, ho, .inr rfl⟩

/-- What is written into a backup is the original from then on. -/
theorem save (h : d.Keeps originals dir) (ha : a.IsArtifact dir) (ho : originals a ≠ none)
    (content : Bytes) :
    Keeps (Function.update originals a (some content)) dir (AList.insert a.backup content d) where
  original a' o ha' ho' := by
    by_cases heq : a' = a
    · subst heq
      rw [Function.update_self] at ho'
      obtain rfl := Option.some.inj ho'
      exact .inl (AList.lookup_insert d)
    · rw [Function.update_of_ne heq] at ho'
      rw [AList.lookup_insert_ne fun h => heq (ha'.backup_inj ha h),
        AList.lookup_insert_ne (ha.backup_ne ha').symm]
      exact h.original a' o ha' ho'
  artifact a' ha' hartifact := by
    obtain rfl | ha' := (AList.mem_insert d).mp ha'
    · exact absurd ha.isBackup_backup hartifact.not_isBackup
    · by_cases heq : a' = a
      · simp [heq]
      · rw [Function.update_of_ne heq]
        exact h.artifact a' ha' hartifact
  backup b hb hbackup := by
    have hupdate : ∀ a', originals a' ≠ none →
        Function.update originals a (some content) a' ≠ none := by
      intro a' ha'
      by_cases heq : a' = a
      · simp [heq]
      · rwa [Function.update_of_ne heq]
    obtain rfl | hb := (AList.mem_insert d).mp hb
    · exact ⟨a, ha, hupdate a ho, rfl⟩
    · obtain ⟨a', ha', ho', rfl⟩ := h.backup b hb hbackup
      exact ⟨a', ha', hupdate a' ho', rfl⟩

/-- A backup is not needed once the artifact holds its original. -/
theorem tidy (h : d.Keeps originals dir) (ha : a.IsArtifact dir) (ho : originals a = some o)
    (hd : d.lookup a = some o) : Keeps originals dir (AList.erase a.backup d) where
  original a' o' ha' ho' := by
    by_cases heq : a' = a
    · subst heq
      obtain rfl := Option.some.inj (ho.symm.trans ho')
      rw [AList.lookup_erase_ne (ha.backup_ne ha).symm]
      exact .inr ⟨AList.lookup_erase _ _, hd⟩
    · rw [AList.lookup_erase_ne fun h => heq (ha'.backup_inj ha h),
        AList.lookup_erase_ne (ha.backup_ne ha').symm]
      exact h.original a' o' ha' ho'
  artifact a' ha' := h.artifact a' (AList.mem_erase.mp ha').2
  backup b hb := h.backup b (AList.mem_erase.mp hb).2

end Keeps

/-- Without backups the artifacts hold their originals. -/
theorem Keeps.lookup_of_no_backup (h : d.Keeps originals dir) (hno : ∀ b ∈ d, ¬ b.IsBackup dir)
    {a : Location} (ha : a.IsArtifact dir) {o : Bytes} (ho : originals a = some o) :
    d.lookup a = some o := by
  obtain hbackup | ⟨-, hd⟩ := h.original a o ha ho
  · have hmem : a.backup ∈ d := AList.lookup_isSome.mp (by rw [hbackup]; rfl)
    exact absurd ha.isBackup_backup (hno _ hmem)
  · exact hd

/-- A listed backup has a name that the name of an artifact can be read from. -/
theorem isBackup_of_leaf {path artifact : Path} (hpath : path ∈ d.leaves dir)
    (hartifact : artifactOfBackup? path = some artifact) : Location.IsBackup dir path.steps := by
  obtain ⟨-, n, hn, hkind⟩ := leaves_sound hpath
  refine hkind _ ?_
  rw [artifactOfBackup?, hn, Option.bind_some] at hartifact
  obtain ⟨name, hname, -⟩ := Option.map_eq_some_iff.mp hartifact
  simp only [hname, Option.isSome_some]

/-- There are no backups if none is listed. -/
theorem not_isBackup_of_leaves (h : ∀ leaf ∈ d.leaves dir, artifactOfBackup? leaf = none)
    {place : Location} (hplace : place ∈ d) : ¬ place.IsBackup dir := by
  intro hbackup
  obtain ⟨n, hlast, -, hkind⟩ := hbackup.exists_lastName?
  obtain ⟨path, hpath, rfl⟩ := exists_leaf hplace hbackup
  obtain ⟨name, hname⟩ := Option.isSome_iff_exists.mp hkind
  have hnone := h path hpath
  rw [artifactOfBackup?, ← Path.lastName?_steps, hlast, Option.bind_some, hname] at hnone
  cases hnone

/-- A listed file with the name of an artifact. -/
theorem isArtifact_of_leaf {path : Path} (hpath : path ∈ d.leaves dir)
    (hname : (Path.fileName? path).any isArtifactName = true) :
    Location.IsArtifact dir path.steps := by
  obtain ⟨-, n, hn, hkind⟩ := leaves_sound hpath
  rw [hn] at hname
  exact hkind _ hname

/-- An artifact that had an original, with its backup. -/
def IsPair (originals : Location → Option Bytes) (dir : Path) (pair : Path × Path) : Prop :=
  Location.IsArtifact dir pair.1.steps ∧ originals pair.1.steps ≠ none ∧
    pair.2.steps = Location.backup pair.1.steps

namespace Keeps

/-- A backup that is listed is that of an artifact. -/
theorem isPair_of_leaf (h : d.Keeps originals dir) {pair : Path × Path}
    (hpath : pair.2 ∈ d.leaves dir) (hartifact : artifactOfBackup? pair.2 = some pair.1) :
    IsPair originals dir pair := by
  obtain ⟨a, ha, ho, hsteps⟩ :=
    h.backup _ (leaves_sound hpath).1 (isBackup_of_leaf hpath hartifact)
  obtain ⟨artifact, hsome, rfl⟩ := artifactOfBackup?_of_steps ha hsteps
  obtain rfl := Option.some.inj (hartifact.symm.trans hsome)
  exact ⟨ha, ho, hsteps⟩

/-- A backup is listed, and its artifact can be told. -/
theorem exists_leaf_of_backup (h : d.Keeps originals dir) {b : Location} (hb : b ∈ d)
    (hbackup : b.IsBackup dir) :
    ∃ pair : Path × Path, pair.2 ∈ d.leaves dir ∧ artifactOfBackup? pair.2 = some pair.1 ∧
      pair.2.steps = b := by
  obtain ⟨a, ha, -, rfl⟩ := h.backup b hb hbackup
  obtain ⟨path, hpath, hsteps⟩ := exists_leaf hb hbackup
  obtain ⟨artifact, hartifact, -⟩ := artifactOfBackup?_of_steps ha hsteps
  exact ⟨(artifact, path), hpath, hartifact, hsteps⟩

end Keeps

end Disk

/-- What is found are the listed files that have the name of a backup. -/
theorem mem_interruptedRuns {σ : Type} {host : Host σ} {s : σ} {dir : Path} {pair : Path × Path} :
    pair ∈ interruptedRuns host s dir ↔
      pair.2 ∈ host.leavesBelow s dir ∧ artifactOfBackup? pair.2 = some pair.1 := by
  obtain ⟨artifact, backup⟩ := pair
  simp only [interruptedRuns, List.mem_mergeSort, List.mem_filterMap, Option.map_eq_some_iff,
    Prod.mk.injEq]
  constructor
  · rintro ⟨path, hpath, _, hartifact, rfl, rfl⟩
    exact ⟨hpath, hartifact⟩
  · rintro ⟨hpath, hartifact⟩
    exact ⟨backup, hpath, artifact, hartifact, rfl, rfl⟩

end MutationTesting
