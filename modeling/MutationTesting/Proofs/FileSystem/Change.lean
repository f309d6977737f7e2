import Mathlib.Logic.Function.Basic
import MutationTesting.Proofs.FileSystem.Ways
/-!
# What a change leaves as it is

What a path leads to depends on the directories and the links, and not on the files. A change of one
file, or of the name of one, therefore leaves all paths leading where they led, and all other names
standing for what they stood for, as long as the file has no other name.

## Main definitions

* `FileSystem.Seen`, `FileSystem.look` — what a name in a directory stands for
* `FileSystem.SameWays` — the same directories and links
* `FileSystem.IsSound` — a tree in which a directory has one name
* `FileSystem.Owns` — a name is the only one of a file
* `FileSystem.Turns` — one name stands for another file, or for none

## Main results

* `FileSystem.SameWays.leadsToDirectory_eq`, `FileSystem.SameWays.stands` — paths lead where they led
* `FileSystem.Binds.turns` — how it is seen that one name is changed
* `FileSystem.read_of_stands`, `FileSystem.write_eq_of_stands`,
  `FileSystem.replaceFile_eq_of_stands`, `FileSystem.removeFile_of_stands` — files at the end of
  paths
-/

namespace MutationTesting

namespace FileSystem

/-- A name in a directory. -/
abbrev Slot := Nat × Octets

/-- What a name stands for. -/
inductive Seen where
  | file (content : Bytes)
  /-- It is no file and has the number. -/
  | other (n : Nat)
  deriving DecidableEq

/-- A node as a name stands for it. -/
def seen (fs : FileSystem) (k : Nat) : Seen :=
  match fs.form? k with
  | some (.file content) => .file content
  | _ => .other k

/-- What a name in a directory stands for. -/
def look (fs : FileSystem) (slot : Slot) : Option Seen := (fs.entry? slot.1 slot.2).map fs.seen

/-- It is neither a file nor a directory. -/
def isSpecial : NodeForm → Bool
  | .file _ => false
  | .directory _ _ => false
  | _ => true

/-- There are the same directories and links, and what is no file has the same names. -/
structure SameWays (fs fs' : FileSystem) : Prop where
  directory (n : Nat) : fs.isDirectory n = fs'.isDirectory n
  parent (n : Nat) : fs.parent n = fs'.parent n
  special (n : Nat) (form : NodeForm) (h : isSpecial form = true) :
    fs.form? n = some form ↔ fs'.form? n = some form
  other (slot : Slot) (n : Nat) :
    fs.look slot = some (.other n) ↔ fs'.look slot = some (.other n)

/-- Every name stands for the same: a file with the same content, or what is no file. -/
structure SameTree (fs fs' : FileSystem) : Prop extends fs.SameWays fs' where
  look : fs.look = fs'.look

/-- What every file system is in which nothing went wrong: a tree in which all nodes have been
numbered, and a directory has one name, in the directory above it. -/
structure IsSound (fs : FileSystem) : Prop extends fs.IsTree where
  issued {n : Nat} {form : NodeForm} (h : fs.form? n = some form) : n < fs.issued
  named {n : Nat} : ∀ e ∈ fs.entries n, e.2 < fs.issued
  above {n : Nat} : ∀ e ∈ fs.entries n, fs.isDirectory e.2 = true → fs.parent e.2 = n
  single {n : Nat} : ∀ e ∈ fs.entries n, ∀ e' ∈ fs.entries n, fs.isDirectory e.2 = true →
    e.2 = e'.2 → e.1 = e'.1

/-- A name stands for a file that has no other name. -/
def Owns (fs : FileSystem) (slot : Slot) : Prop :=
  ∃ k content, fs.entry? slot.1 slot.2 = some k ∧ fs.form? k = some (.file content) ∧
    ∀ n, ∀ e ∈ fs.entries n, e.2 = k → (n, e.1) = slot

/-- One name stands for a file that is its own, or for nothing. All other names stand for what they
stood for, and paths lead where they led. -/
structure Turns (fs fs' : FileSystem) (slot : Slot) (content : Option Bytes) : Prop where
  sound : fs'.IsSound
  ways : fs.SameWays fs'
  issued : fs.issued ≤ fs'.issued
  look : fs'.look = Function.update fs.look slot (content.map .file)
  owns : ∀ other, fs.Owns other → other ≠ slot → fs'.Owns other
  own : content.isSome = true → fs'.Owns slot

variable {fs fs' : FileSystem} {slot : Slot} {here links links' n k : Nat} {name : Octets}
  {path : Octets} {content : Bytes}

/-! ### Names and what they stand for -/

/-- An entry is found under its name, if names are there once. -/
theorem IsTree.mem_entries_iff (h : fs.IsTree) :
    (name, k) ∈ fs.entries n ↔ fs.entry? n name = some k := by
  rw [ entry?, List.lookup_eq_some_iff]
  constructor
  · intro hmem
    obtain ⟨before, after, heq⟩ := List.append_of_mem hmem
    refine ⟨before, after, heq, fun e he => ?_⟩
    have hnodup := h.distinct n
    rw [heq, List.map_append, List.map_cons] at hnodup
    have hne := (List.nodup_append.mp hnodup).2.2 e.1 (List.mem_map_of_mem he) name
      List.mem_cons_self
    simpa using hne.symm
  · rintro ⟨before, after, heq, -⟩
    rw [heq]
    exact List.mem_append_right _ List.mem_cons_self

theorem isDirectory_of_mem_entries {e : Octets × Nat} (h : e ∈ fs.entries n) :
    fs.isDirectory n = true := by
  rw [entries] at h
  split at h
  · next hform => exact isDirectory_of_form? hform
  · cases h

theorem form?_ne_file (h : fs.isDirectory n = true) (content : Bytes) :
    fs.form? n ≠ some (.file content) := by
  intro hfile
  rw [isDirectory, hfile] at h
  cases h

theorem seen_eq_file_iff : fs.seen k = .file content ↔ fs.form? k = some (.file content) := by
  rw [seen]
  split
  · next hform => rw [hform, Seen.file.injEq, Option.some.injEq, NodeForm.file.injEq]
  · next hplain => exact ⟨nofun, fun hform => absurd hform (hplain content)⟩

theorem seen_eq_other (h : ∀ content, fs.form? k ≠ some (.file content)) : fs.seen k = .other k := by
  rw [seen]
  split
  · next content hform => exact absurd hform (h content)
  · rfl

theorem look_eq_none_iff : fs.look slot = none ↔ fs.entry? slot.1 slot.2 = none :=
  Option.map_eq_none_iff

theorem look_eq_file_iff : fs.look slot = some (.file content) ↔
    ∃ k, fs.entry? slot.1 slot.2 = some k ∧ fs.form? k = some (.file content) := by
  rw [look, Option.map_eq_some_iff]
  exact exists_congr fun k => and_congr_right fun _ => seen_eq_file_iff

theorem look_eq_other_iff : fs.look slot = some (.other k) ↔
    fs.entry? slot.1 slot.2 = some k ∧ ∀ content, fs.form? k ≠ some (.file content) := by
  rw [look, Option.map_eq_some_iff]
  constructor
  · rintro ⟨j, hentry, hseen⟩
    have hplain : ∀ content, fs.form? j ≠ some (.file content) := by
      intro content hform
      rw [seen_eq_file_iff.mpr hform] at hseen
      cases hseen
    rw [seen_eq_other hplain] at hseen
    cases hseen
    exact ⟨hentry, hplain⟩
  · rintro ⟨hentry, hplain⟩
    exact ⟨k, hentry, seen_eq_other hplain⟩

theorem form?_of_isDirectory (h : fs.isDirectory n = true) :
    fs.form? n = some (.directory (fs.parent n) (fs.entries n)) := by
  rw [isDirectory] at h
  split at h
  · next hform => rw [parent, entries, hform]
  · cases h

/-- Where directories were made before what is in them, and got one name. -/
theorem IsOrdered.isSound (h : fs.IsOrdered) (hnames : ∀ e ∈ fs.nodes, ∀ x ∈ fs.entries e.1,
      x.2 < fs.issued ∧ (fs.isDirectory x.2 = true →
        fs.parent x.2 = e.1 ∧ ∀ y ∈ fs.entries e.1, x.2 = y.2 → x.1 = y.1)) : fs.IsSound := by
  have hentries {n : Nat} {x : Octets × Nat} (hx : x ∈ fs.entries n) :
      ∃ node, (n, node) ∈ fs.nodes := by
    refine (fs.entries_eq_nil_or n).resolve_left fun hnil => ?_
    rw [hnil] at hx
    cases hx
  exact {
    toIsTree := h.isTree
    issued := fun hform => by
      obtain ⟨node, hnode⟩ := exists_mem_nodes hform
      exact (h _ hnode).1
    named := fun x hx => by
      obtain ⟨node, hnode⟩ := hentries hx
      exact (hnames _ hnode x hx).1
    above := fun x hx hdirectory => by
      obtain ⟨node, hnode⟩ := hentries hx
      exact ((hnames _ hnode x hx).2 hdirectory).1
    single := fun x hx y hy hdirectory heq => by
      obtain ⟨node, hnode⟩ := hentries hx
      exact ((hnames _ hnode x hx).2 hdirectory).2 y hy heq }

/-! ### The same ways -/

namespace SameWays

theorem refl (fs : FileSystem) : fs.SameWays fs :=
  ⟨fun _ => rfl, fun _ => rfl, fun _ _ _ => .rfl, fun _ _ => .rfl⟩

theorem symm (h : fs.SameWays fs') : fs'.SameWays fs where
  directory n := (h.directory n).symm
  parent n := (h.parent n).symm
  special n form hform := (h.special n form hform).symm
  other slot n := (h.other slot n).symm

theorem trans {fs'' : FileSystem} (h : fs.SameWays fs') (h' : fs'.SameWays fs'') :
    fs.SameWays fs'' where
  directory n := (h.directory n).trans (h'.directory n)
  parent n := (h.parent n).trans (h'.parent n)
  special n form hform := (h.special n form hform).trans (h'.special n form hform)
  other slot n := (h.other slot n).trans (h'.other slot n)

theorem isDirectory (h : fs.SameWays fs') (hn : fs.isDirectory n = true) :
    fs'.isDirectory n = true := (h.directory n).symm.trans hn

theorem admits (h : fs.SameWays fs') (hn : fs.Admits n name) : fs'.Admits n name :=
  ⟨h.isDirectory hn.directory, hn.short, hn.proper⟩

/-- What is no file keeps its name. -/
theorem entry? (h : fs.SameWays fs') (hentry : fs.entry? n name = some k)
    (hplain : ∀ content, fs.form? k ≠ some (.file content)) : fs'.entry? n name = some k :=
  (look_eq_other_iff.mp ((h.other (n, name) k).mp (look_eq_other_iff.mpr ⟨hentry, hplain⟩))).1

theorem leads {names : List Octets} (h : fs.SameWays fs') (hlead : fs.Leads links n names links' k) :
    fs'.Leads links n names links' k := by
  induction hlead with
  | here => exact .here
  | up directory _ ih => exact .up (h.isDirectory directory) (h.parent _ ▸ ih)
  | down admits entry inner _ ih =>
    exact .down (h.admits admits) (h.entry? entry (form?_ne_file inner)) (h.isDirectory inner) ih
  | along admits entry link target_ne _ ih =>
    refine .along (h.admits admits) (h.entry? entry fun content hfile => ?_) ((h.special _ _ rfl).mp link)
      target_ne ih
    rw [link] at hfile
    cases hfile

/-- **A path to a directory** leads where it led. -/
theorem leadsTo (h : fs.SameWays fs') (hlead : fs.LeadsTo here path n) : fs'.LeadsTo here path n := by
  obtain ⟨hpath, hn, links, hreach⟩ := hlead
  exact ⟨hpath, h.isDirectory hn, links, h.leads hreach⟩

theorem leadsToDirectory_eq (h : fs.SameWays fs') (here : Nat) (path : Octets) :
    fs.leadsToDirectory here path = fs'.leadsToDirectory here path := by
  rw [Bool.eq_iff_iff, leadsToDirectory_iff, leadsToDirectory_iff]
  exact exists_congr fun n => ⟨h.leadsTo, h.symm.leadsTo⟩

/-- **A path that ends in a name** ends in the same name in the same directory. -/
theorem stands (h : fs.SameWays fs') (hstands : fs.Stands here path n name) :
    fs'.Stands here path n name := by
  obtain ⟨place, links, hsteps, hreach⟩ := hstands.reaches
  exact ⟨hstands.isPath, hstands.ends, h.admits hstands.admits, place, links, hsteps,
    h.leads hreach⟩

/-- The names that lead to a directory lead to it still. -/
theorem isSome_namesTo? {depth depth' : Nat} (h : fs.SameWays fs') (htree : fs.IsTree)
    (htree' : fs'.IsTree) (hdepth : depth ≤ depth') (hn : fs.isDirectory n = true)
    (hnames : (fs.namesTo? depth n).isSome = true) : (fs'.namesTo? depth' n).isSome = true := by
  induction depth generalizing depth' n with
  | zero => cases hnames
  | succ depth ih =>
    obtain ⟨depth', rfl⟩ : ∃ m, depth' = m + 1 := ⟨depth' - 1, by omega⟩
    rw [namesTo?] at hnames ⊢
    by_cases hroot : n = root
    · rw [if_pos hroot]
      rfl
    · rw [if_neg hroot] at hnames ⊢
      obtain ⟨names, hnames⟩ := Option.isSome_iff_exists.mp hnames
      obtain ⟨⟨name, k⟩, hfound, hnames⟩ := Option.bind_eq_some_iff.mp hnames
      obtain ⟨above, habove, -⟩ := Option.bind_eq_some_iff.mp hnames
      obtain rfl : k = n := by simpa using List.find?_some hfound
      have hmem := List.mem_of_find?_eq_some hfound
      have hentry := h.entry? (htree.mem_entries_iff.mp hmem) (form?_ne_file hn)
      rw [h.parent] at hentry
      obtain ⟨e', hfound'⟩ : ∃ e', (fs'.entries (fs'.parent k)).find? (·.2 = k) = some e' :=
        Option.isSome_iff_exists.mp
          (List.find?_isSome.mpr ⟨_, htree'.mem_entries_iff.mpr hentry, by simp⟩)
      obtain ⟨above', habove'⟩ := Option.isSome_iff_exists.mp
        (ih (Nat.le_of_succ_le_succ hdepth) (isDirectory_of_mem_entries hmem)
          (by rw [habove]; rfl))
      rw [h.parent] at habove'
      dsimp only
      rw [hfound', Option.bind_eq_bind, Option.bind_some, habove']
      rfl

/-- A directory that was not removed is there. -/
theorem isAttached (h : fs.SameWays fs') (htree : fs.IsTree) (htree' : fs'.IsTree)
    (hissued : fs.issued ≤ fs'.issued) (hn : fs.isDirectory n = true)
    (hattached : fs.isAttached n = true) : fs'.isAttached n = true := by
  have hsome (g : FileSystem) : g.isAttached n = (g.namesTo? (g.issued + 1) n).isSome := by
    rw [FileSystem.isAttached, pathTo?]
    cases g.namesTo? (g.issued + 1) n <;> rfl
  rw [hsome] at hattached ⊢
  exact h.isSome_namesTo? htree htree' (Nat.succ_le_succ hissued) hn hattached

end SameWays

theorem Turns.isAttached {slot : Slot} {content : Option Bytes} (h : fs.Turns fs' slot content)
    (hsound : fs.IsSound) (hn : fs.isDirectory n = true) (hattached : fs.isAttached n = true) :
    fs'.isAttached n = true :=
  h.ways.isAttached hsound.toIsTree h.sound.toIsTree h.issued hn hattached

/-! ### One name -/

/-- A name in a directory is given to a file, or taken away; all other entries of the directory are
there still. The file is a new one or has no other name. All other nodes are the same. -/
structure Binds (fs fs' : FileSystem) (n : Nat) (name : Octets) (file : Option (Nat × Bytes)) :
    Prop where
  directory : fs.isDirectory n = true
  proper : Path.isName name = true
  free : ∀ k, fs.look (n, name) ≠ some (.other k)
  issued : fs.issued ≤ fs'.issued
  form? : ∀ m, m ≠ n → (∀ f ∈ file, m ≠ f.1) → fs'.form? m = fs.form? m
  entries : ∃ entries, fs'.form? n = some (.directory (fs.parent n) entries) ∧
    (entries.map Prod.fst).Nodup ∧ ∀ e, e ∈ entries ↔
      e ∈ fs.entries n ∧ e.1 ≠ name ∨ e.1 = name ∧ ∃ f ∈ file, e.2 = f.1
  file : ∀ f ∈ file, fs'.form? f.1 = some (.file f.2) ∧ f.1 < fs'.issued ∧
    (fs.form? f.1 = none ∨ ∃ content, fs.form? f.1 = some (.file content)) ∧
    ∀ m, ∀ e ∈ fs.entries m, e.2 = f.1 → (m, e.1) = (n, name)

namespace Binds

variable {file : Option (Nat × Bytes)}

/-- A node is the directory, the file or as it was. -/
theorem form?_cases (h : fs.Binds fs' n name file) (m : Nat) :
    (m = n ∧ fs.isDirectory m = true ∧
        ∃ entries, fs'.form? m = some (.directory (fs.parent m) entries)) ∨
      (∃ f ∈ file, m = f.1 ∧ fs'.form? m = some (.file f.2) ∧
        (fs.form? m = none ∨ ∃ content, fs.form? m = some (.file content))) ∨
      fs'.form? m = fs.form? m := by
  by_cases hm : m = n
  · subst hm
    obtain ⟨entries, hform, -⟩ := h.entries
    exact .inl ⟨rfl, h.directory, entries, hform⟩
  · by_cases hfile : ∃ f ∈ file, m = f.1
    · obtain ⟨f, hf, rfl⟩ := hfile
      obtain ⟨hform, -, hplain, -⟩ := h.file f hf
      exact .inr (.inl ⟨f, hf, rfl, hform, hplain⟩)
    · exact .inr (.inr (h.form? m hm fun f hf heq => hfile ⟨f, hf, heq⟩))

theorem isDirectory_eq (h : fs.Binds fs' n name file) (m : Nat) :
    fs.isDirectory m = fs'.isDirectory m := by
  obtain ⟨-, hm, entries, hform⟩ | ⟨f, -, -, hform, hplain⟩ | heq := h.form?_cases m
  · rw [hm, isDirectory_of_form? hform]
  · obtain hnone | ⟨content, hfile⟩ := hplain
    · rw [isDirectory, isDirectory, hform, hnone]
    · rw [isDirectory, isDirectory, hform, hfile]
  · rw [isDirectory, isDirectory, heq]

theorem parent_eq (h : fs.Binds fs' n name file) (m : Nat) : fs.parent m = fs'.parent m := by
  obtain ⟨-, -, entries, hform⟩ | ⟨f, -, -, hform, hplain⟩ | heq := h.form?_cases m
  · rw [parent.eq_def fs', hform]
  · obtain hnone | ⟨content, hfile⟩ := hplain
    · rw [parent, parent, hform, hnone]
    · rw [parent, parent, hform, hfile]
  · rw [parent, parent, heq]

theorem special_iff (h : fs.Binds fs' n name file) (m : Nat) (form : NodeForm)
    (hspecial : isSpecial form = true) : fs.form? m = some form ↔ fs'.form? m = some form := by
  obtain ⟨-, hm, entries, hform⟩ | ⟨f, -, -, hform, hplain⟩ | heq := h.form?_cases m
  · rw [hform, form?_of_isDirectory hm]
    refine iff_of_false ?_ ?_ <;> rintro ⟨⟩ <;> cases hspecial
  · obtain hnone | ⟨content, hfile⟩ := hplain
    · rw [hform, hnone]
      refine iff_of_false nofun ?_
      rintro ⟨⟩
      cases hspecial
    · rw [hform, hfile]
      refine iff_of_false ?_ ?_ <;> rintro ⟨⟩ <;> cases hspecial
  · rw [heq]

theorem entries_eq (h : fs.Binds fs' n name file) {m : Nat} (hm : m ≠ n) :
    fs'.entries m = fs.entries m := by
  obtain ⟨hn, -⟩ | ⟨f, -, -, hform, hplain⟩ | heq := h.form?_cases m
  · exact absurd hn hm
  · obtain hnone | ⟨content, hfile⟩ := hplain
    · rw [FileSystem.entries, FileSystem.entries, hform, hnone]
    · rw [FileSystem.entries, FileSystem.entries, hform, hfile]
  · rw [FileSystem.entries, FileSystem.entries, heq]

/-- Other entries are there as they were. -/
theorem mem_entries_iff (h : fs.Binds fs' n name file) {m : Nat} {e : Octets × Nat}
    (hne : (m, e.1) ≠ (n, name)) : e ∈ fs'.entries m ↔ e ∈ fs.entries m := by
  by_cases hm : m = n
  · subst hm
    obtain ⟨entries, hform, -, hentries⟩ := h.entries
    have hname : e.1 ≠ name := fun heq => hne (Prod.ext rfl heq)
    rw [FileSystem.entries, hform]
    exact (hentries e).trans ⟨fun he => he.elim And.left fun he => absurd he.1 hname,
      fun he => .inl ⟨he, hname⟩⟩
  · rw [h.entries_eq hm]

/-- The name stands for the file. -/
theorem mem_entries_name_iff (h : fs.Binds fs' n name file) :
    (name, k) ∈ fs'.entries n ↔ ∃ f ∈ file, k = f.1 := by
  obtain ⟨entries, hform, -, hentries⟩ := h.entries
  rw [FileSystem.entries, hform]
  exact (hentries (name, k)).trans ⟨fun he => he.elim (fun he => absurd rfl he.2) And.right,
    fun hk => .inr ⟨rfl, hk⟩⟩

/-- The name does not stand for a directory, before or after. -/
theorem slot_ne (h : fs.Binds fs' n name file) (htree : fs.IsTree) {m : Nat} {e : Octets × Nat}
    (hdirectory : fs.isDirectory e.2 = true) (he : e ∈ fs.entries m ∨ e ∈ fs'.entries m) :
    (m, e.1) ≠ (n, name) := by
  intro heq
  obtain ⟨rfl, rfl⟩ := Prod.mk.inj heq
  obtain he | he := he
  · exact h.free e.2 (look_eq_other_iff.mpr ⟨htree.mem_entries_iff.mp he, form?_ne_file hdirectory⟩)
  · obtain ⟨f, hf, heq⟩ := h.mem_entries_name_iff.mp he
    rw [h.isDirectory_eq] at hdirectory
    exact form?_ne_file hdirectory f.2 (heq ▸ (h.file f hf).1)

theorem mem_entries_directory_iff (h : fs.Binds fs' n name file) (htree : fs.IsTree) {m : Nat}
    {e : Octets × Nat} (hdirectory : fs.isDirectory e.2 = true) :
    e ∈ fs'.entries m ↔ e ∈ fs.entries m :=
  ⟨fun he => (h.mem_entries_iff (h.slot_ne htree hdirectory (.inr he))).mp he,
    fun he => (h.mem_entries_iff (h.slot_ne htree hdirectory (.inl he))).mpr he⟩

theorem isTree (h : fs.Binds fs' n name file) (htree : fs.IsTree) : fs'.IsTree where
  numbered {m} hm := (htree.numbered ((h.isDirectory_eq m).trans hm)).trans_le h.issued
  names {m} e he := by
    by_cases hslot : (m, e.1) = (n, name)
    · rw [(Prod.mk.inj hslot).2]
      exact h.proper
    · exact htree.names e ((h.mem_entries_iff hslot).mp he)
  distinct m := by
    by_cases hm : m = n
    · obtain ⟨entries, hform, hdistinct, -⟩ := h.entries
      rw [hm, FileSystem.entries, hform]
      exact hdistinct
    · rw [h.entries_eq hm]
      exact htree.distinct m
  acyclic m hcircle := by
    have hcontains : ∀ a b, fs'.Contains a b → fs.Contains a b := by
      rintro a b ⟨hb, name', hentry⟩
      rw [← h.isDirectory_eq] at hb
      exact ⟨hb, name', (h.mem_entries_directory_iff htree hb).mp hentry⟩
    exact htree.acyclic m (Relation.TransGen.mono hcontains m m hcircle)

theorem entry?_eq (h : fs.Binds fs' n name file) (htree : fs.IsTree) (hne : slot ≠ (n, name)) :
    fs'.entry? slot.1 slot.2 = fs.entry? slot.1 slot.2 := by
  refine Option.ext fun k => ?_
  rw [← htree.mem_entries_iff, ← (h.isTree htree).mem_entries_iff]
  exact h.mem_entries_iff hne

theorem entry?_name (h : fs.Binds fs' n name file) (htree : fs.IsTree) :
    fs'.entry? n name = file.map (·.1) := by
  refine Option.ext fun k => ?_
  rw [← (h.isTree htree).mem_entries_iff, h.mem_entries_name_iff, Option.map_eq_some_iff]
  exact exists_congr fun f => and_congr_right fun _ => eq_comm

/-- **What a name stands for** afterwards. -/
theorem look_eq (h : fs.Binds fs' n name file) (htree : fs.IsTree) :
    fs'.look = Function.update fs.look (n, name) (file.map (.file ·.2)) := by
  funext slot
  by_cases hslot : slot = (n, name)
  · subst hslot
    rw [Function.update_self, look, h.entry?_name htree]
    cases hfile : file with
    | none => rfl
    | some f =>
      rw [Option.map_some, Option.map_some, Option.map_some,
        seen_eq_file_iff.mpr (h.file f hfile).1]
  · rw [Function.update_of_ne hslot, look, look, h.entry?_eq htree hslot]
    refine Option.map_congr fun k hk => ?_
    obtain ⟨-, hm, entries, hform⟩ | ⟨f, hf, rfl, -⟩ | heq := h.form?_cases k
    · rw [seen_eq_other (form?_ne_file hm), seen, hform]
    · have hentry := htree.mem_entries_iff.mpr hk
      exact absurd ((h.file f hf).2.2.2 slot.1 (slot.2, f.1) hentry rfl) hslot
    · rw [seen, seen, heq]

theorem sameWays (h : fs.Binds fs' n name file) (htree : fs.IsTree) : fs.SameWays fs' where
  directory := h.isDirectory_eq
  parent := h.parent_eq
  special := h.special_iff
  other slot k := by
    rw [h.look_eq htree]
    by_cases hslot : slot = (n, name)
    · subst hslot
      rw [Function.update_self]
      refine iff_of_false (h.free k) fun hsome => ?_
      obtain ⟨f, -, heq⟩ := Option.map_eq_some_iff.mp hsome
      cases heq
    · rw [Function.update_of_ne hslot]

theorem isSound (h : fs.Binds fs' n name file) (hsound : fs.IsSound) : fs'.IsSound where
  toIsTree := h.isTree hsound.toIsTree
  issued {m form} hm := by
    obtain ⟨-, hdirectory, -⟩ | ⟨f, hf, rfl, -⟩ | heq := h.form?_cases m
    · exact (hsound.numbered hdirectory).trans_le h.issued
    · exact (h.file f hf).2.1
    · exact (hsound.issued (heq ▸ hm)).trans_le h.issued
  named {m} e he := by
    by_cases hslot : (m, e.1) = (n, name)
    · obtain ⟨rfl, rfl⟩ := Prod.mk.inj hslot
      obtain ⟨f, hf, heq⟩ := h.mem_entries_name_iff.mp he
      exact heq ▸ (h.file f hf).2.1
    · exact (hsound.named e ((h.mem_entries_iff hslot).mp he)).trans_le h.issued
  above {m} e he hdirectory := by
    rw [← h.isDirectory_eq] at hdirectory
    rw [← h.parent_eq]
    exact hsound.above e ((h.mem_entries_directory_iff hsound.toIsTree hdirectory).mp he) hdirectory
  single {m} e he e' he' hdirectory heq := by
    rw [← h.isDirectory_eq] at hdirectory
    have htree := hsound.toIsTree
    exact hsound.single e ((h.mem_entries_directory_iff htree hdirectory).mp he) e'
      ((h.mem_entries_directory_iff htree (heq ▸ hdirectory)).mp he') hdirectory heq

/-- **One name is changed**, and nothing else. -/
theorem turns (h : fs.Binds fs' n name file) (hsound : fs.IsSound) :
    fs.Turns fs' (n, name) (file.map (·.2)) where
  sound := h.isSound hsound
  ways := h.sameWays hsound.toIsTree
  issued := h.issued
  look := by rw [h.look_eq hsound.toIsTree, Option.map_map]; rfl
  owns other howns hne := by
    obtain ⟨k, content, hentry, hform, honly⟩ := howns
    have hmem := hsound.toIsTree.mem_entries_iff.mpr hentry
    have hfresh : ∀ f ∈ file, k ≠ f.1 := fun f hf heq =>
      hne ((h.file f hf).2.2.2 other.1 (other.2, k) hmem heq)
    refine ⟨k, content, (h.entry?_eq hsound.toIsTree hne).trans hentry, ?_, fun m e he hk => ?_⟩
    · obtain ⟨-, hk, -⟩ | ⟨f, hf, heq, -⟩ | heq := h.form?_cases k
      · exact absurd hform (form?_ne_file hk content)
      · exact absurd heq (hfresh f hf)
      · rw [heq, hform]
    · by_cases hslot : (m, e.1) = (n, name)
      · obtain ⟨rfl, rfl⟩ := Prod.mk.inj hslot
        obtain ⟨f, hf, heq⟩ := h.mem_entries_name_iff.mp he
        exact absurd (hk.symm.trans heq) (hfresh f hf)
      · exact honly m e ((h.mem_entries_iff hslot).mp he) hk
  own hsome := by
    obtain ⟨content, hcontent⟩ := Option.isSome_iff_exists.mp hsome
    obtain ⟨f, hf, rfl⟩ := Option.map_eq_some_iff.mp hcontent
    obtain ⟨hform, -, -, honly⟩ := h.file f hf
    refine ⟨f.1, f.2, by rw [h.entry?_name hsound.toIsTree, hf]; rfl, hform, fun m e he hk => ?_⟩
    by_contra hslot
    exact hslot (honly m e ((h.mem_entries_iff hslot).mp he) hk)

end Binds

/-! ### Changes of nodes -/

theorem form?_setNode (fs : FileSystem) (k m : Nat) (node : Node) :
    (fs.setNode k node).form? m = if m = k then some node.form else fs.form? m := by
  rw [form?, node?_setNode]
  split <;> rfl

theorem form?_setForm (fs : FileSystem) {k : Nat} {before : NodeForm} (h : fs.form? k = some before)
    (form : NodeForm) (m : Nat) :
    (fs.setForm k form).form? m = if m = k then some form else fs.form? m := by
  obtain ⟨node, hnode, -⟩ := Option.map_eq_some_iff.mp h
  rw [setForm, hnode]
  exact fs.form?_setNode k m _

theorem issued_setForm (fs : FileSystem) (k : Nat) (form : NodeForm) :
    (fs.setForm k form).issued = fs.issued := by
  rw [setForm]
  split <;> rfl

theorem form?_addNode (fs : FileSystem) (form : NodeForm) (mode m : Nat) :
    (fs.addNode form mode).2.form? m = if m = fs.issued then some form else fs.form? m := by
  rw [form?, node?, addNode, List.lookup_cons]
  by_cases hm : m = fs.issued
  · rw [if_pos hm, beq_iff_eq.mpr hm]
    rfl
  · rw [if_neg hm, beq_eq_false_iff_ne.mpr hm]
    rfl

theorem form?_setContent (h : fs.form? k = some (.file content)) (later : Bytes) (m : Nat) :
    (fs.setContent k later).form? m = if m = k then some (.file later) else fs.form? m := by
  rw [setContent, h]
  exact fs.form?_setForm h _ m

theorem issued_setContent (fs : FileSystem) (k : Nat) (content : Bytes) :
    (fs.setContent k content).issued = fs.issued := by
  rw [setContent]
  split
  · exact fs.issued_setForm k _
  · rfl

theorem form?_setEntries (h : fs.isDirectory n = true) (entries : List (Octets × Nat)) (m : Nat) :
    (fs.setEntries n entries).form? m =
      if m = n then some (.directory (fs.parent n) entries) else fs.form? m :=
  fs.form?_setForm (form?_of_isDirectory h) _ m

/-- A new node gets a name. -/
theorem form?_addAt (hsound : fs.IsSound) (h : fs.isDirectory n = true) (name : Octets)
    (form : NodeForm) (mode m : Nat) : (fs.addAt n name form mode).2.form? m =
      if m = n then some (.directory (fs.parent n)
        ((fs.entries n).filter (·.1 != name) ++ [(name, fs.issued)]))
      else if m = fs.issued then some form else fs.form? m := by
  have hne : n ≠ fs.issued := (hsound.numbered h).ne
  have hform (k : Nat) (hk : k ≠ fs.issued) : (fs.addNode form mode).2.form? k = fs.form? k := by
    rw [form?_addNode, if_neg hk]
  have hdirectory : (fs.addNode form mode).2.isDirectory n = true := by
    rw [isDirectory, hform n hne]
    exact h
  change ((fs.addNode form mode).2.setEntry n name fs.issued).form? m = _
  rw [setEntry, form?_setEntries hdirectory, parent, entries, hform n hne, form?_addNode]
  rfl

theorem issued_addAt (fs : FileSystem) (n : Nat) (name : Octets) (form : NodeForm) (mode : Nat) :
    (fs.addAt n name form mode).2.issued = fs.issued + 1 :=
  (fs.addNode form mode).2.issued_setForm n _

theorem mem_filter_name {e : Octets × Nat} {entries : List (Octets × Nat)} :
    e ∈ entries.filter (·.1 != name) ↔ e ∈ entries ∧ e.1 ≠ name := by
  rw [List.mem_filter, bne_iff_ne]

/-! ### Files under their names -/

/-- A new file under a name. -/
theorem binds_new (hsound : fs.IsSound) (hn : fs.isDirectory n = true)
    (hname : Path.isName name = true) (hfree : ∀ k, fs.look (n, name) ≠ some (.other k))
    (hissued : fs'.issued = fs.issued + 1)
    (hforms : ∀ m, fs'.form? m =
      if m = n then some (.directory (fs.parent n)
        ((fs.entries n).filter (·.1 != name) ++ [(name, fs.issued)]))
      else if m = fs.issued then some (.file content) else fs.form? m) :
    fs.Binds fs' n name (some (fs.issued, content)) where
  directory := hn
  proper := hname
  free := hfree
  issued := hissued ▸ Nat.le_succ _
  form? m hm hfile := by
    rw [hforms, if_neg hm, if_neg (hfile _ rfl)]
  entries := by
    refine ⟨_, by rw [hforms, if_pos rfl], ?_, fun e => ?_⟩
    · rw [List.map_append, List.map_singleton, List.nodup_append]
      refine ⟨(hsound.distinct n).sublist (List.filter_sublist.map _), List.nodup_singleton _, ?_⟩
      intro other hother other' hother' heq
      obtain ⟨e, he, rfl⟩ := List.mem_map.mp hother
      exact (mem_filter_name.mp he).2 (heq.trans (List.mem_singleton.mp hother'))
    · rw [List.mem_append, mem_filter_name, List.mem_singleton]
      refine or_congr_right ⟨?_, ?_⟩
      · rintro rfl
        exact ⟨rfl, _, rfl, rfl⟩
      · rintro ⟨hname, f, hf, heq⟩
        cases hf
        exact Prod.ext hname heq
  file f hf := by
    cases hf
    have hne : fs.issued ≠ n := (hsound.numbered hn).ne'
    refine ⟨by rw [hforms, if_neg hne, if_pos rfl], hissued ▸ Nat.lt_succ_self _, .inl ?_, ?_⟩
    · by_contra hsome
      obtain ⟨form, hform⟩ := Option.ne_none_iff_exists'.mp hsome
      exact (hsound.issued hform).false
    · intro m e he heq
      exact absurd heq (hsound.named e he).ne

/-- A name is taken away. -/
theorem binds_none (hsound : fs.IsSound) (hn : fs.isDirectory n = true)
    (hname : Path.isName name = true) (hfree : ∀ k, fs.look (n, name) ≠ some (.other k)) :
    fs.Binds (fs.dropEntry n name) n name none where
  directory := hn
  proper := hname
  free := hfree
  issued := (fs.issued_setForm n _).ge
  form? m hm _ := by
    rw [dropEntry, form?_setEntries hn, if_neg hm]
  entries := by
    refine ⟨_, by rw [dropEntry, form?_setEntries hn, if_pos rfl],
      (hsound.distinct n).sublist (List.filter_sublist.map _), fun e => ?_⟩
    rw [mem_filter_name]
    refine ⟨.inl, fun he => he.elim id ?_⟩
    rintro ⟨-, f, hf, -⟩
    cases hf
  file f hf := by cases hf

/-- A file that has no other name gets another content. -/
theorem binds_own (hsound : fs.IsSound) (hname : Path.isName name = true)
    (howns : fs.Owns (n, name)) (hentry : fs.entry? n name = some k)
    (hissued : fs'.issued = fs.issued)
    (hforms : ∀ m, fs'.form? m = if m = k then some (.file content) else fs.form? m) :
    fs.Binds fs' n name (some (k, content)) := by
  obtain ⟨k', before, hentry', hform, honly⟩ := howns
  obtain rfl : k = k' := Option.some.inj (hentry.symm.trans hentry')
  have hmem := hsound.toIsTree.mem_entries_iff.mpr hentry
  have hn := isDirectory_of_mem_entries hmem
  have hne : n ≠ k := by
    rintro rfl
    exact form?_ne_file hn before hform
  exact {
    directory := hn
    proper := hname
    free := fun j hj => by
      have hfile : fs.look (n, name) = some (.file before) :=
        look_eq_file_iff.mpr ⟨k, hentry, hform⟩
      rw [hfile] at hj
      cases hj
    issued := hissued.ge
    form? := fun m _ hfile => by rw [hforms, if_neg (hfile _ rfl)]
    entries := by
      refine ⟨fs.entries n, by rw [hforms, if_neg hne, form?_of_isDirectory hn],
        hsound.distinct n, fun ⟨other, j⟩ => ?_⟩
      by_cases hother : other = name
      · subst hother
        rw [hsound.toIsTree.mem_entries_iff, hentry]
        simp [eq_comm]
      · simp [hother]
    file := fun f hf => by
      cases hf
      exact ⟨by rw [hforms, if_pos rfl], hissued ▸ hsound.issued hform, .inr ⟨before, hform⟩, honly⟩ }

/-! ### Files at the end of paths -/

theorem Stands.entry?_ne_link (hlook : ∀ k, fs.look (n, name) ≠ some (.other k)) (k : Nat)
    (target : Octets) (hentry : fs.entry? n name = some k) : fs.form? k ≠ some (.link target) := by
  intro hform
  refine hlook k (look_eq_other_iff.mpr ⟨hentry, fun content hfile => ?_⟩)
  rw [hform] at hfile
  cases hfile

theorem look_ne_other_of_eq (seen : Option Bytes) (h : fs.look slot = seen.map .file) (k : Nat) :
    fs.look slot ≠ some (.other k) := by
  rw [h]
  cases seen <;> exact nofun

/-- **A file is read.** -/
theorem read_of_stands (h : fs.Stands here path n name)
    (hlook : fs.look (n, name) = some (.file content)) : fs.read here path = .ok content := by
  obtain ⟨k, hentry, hform⟩ := look_eq_file_iff.mp hlook
  have hspot := h.spot_follow
    (Stands.entry?_ne_link (look_ne_other_of_eq (some content) hlook))
  have hfind : fs.find .follow here path = .ok k := find_eq_ok_iff.mpr ⟨_, hspot, hentry⟩
  rw [read, hfind]
  change fs.content k = _
  rw [FileSystem.content, hform]

/-- A file is made under a name that is free. -/
theorem create_of_missing (h : fs.Stands here path n name) (hlook : fs.look (n, name) = none)
    (mode : Nat) : fs.create here path mode =
      if fs.isAttached n then .ok (fs.addAt n name (.file []) mode) else .error .missing := by
  have hnone := look_eq_none_iff.mp hlook
  have hspot := h.spot_follow (Stands.entry?_ne_link (look_ne_other_of_eq none hlook))
  rw [hnone] at hspot
  rw [create, hspot]
  change (if meansDirectory path then _ else if !fs.isAttached n then _ else _) = _
  rw [h.ends, if_neg Bool.false_ne_true]
  cases fs.isAttached n <;> rfl

/-- A file that is there is not made anew. -/
theorem create_of_file (h : fs.Stands here path n name) (hentry : fs.entry? n name = some k)
    (hform : fs.form? k = some (.file content)) (mode : Nat) :
    fs.create here path mode = .ok (k, fs) := by
  have hlook : fs.look (n, name) = some (.file content) := look_eq_file_iff.mpr ⟨k, hentry, hform⟩
  have hspot := h.spot_follow (Stands.entry?_ne_link (look_ne_other_of_eq (some content) hlook))
  have hk : fs.isDirectory k = false := by rw [isDirectory, hform]
  rw [hentry] at hspot
  rw [create, hspot]
  change (if fs.isDirectory k then _ else _) = _
  rw [hk]
  rfl

/-- **A file is written** under a name that is free. -/
theorem write_eq_of_stands (h : fs.Stands here path n name) (hlook : fs.look (n, name) = none)
    (content : Bytes) (mode : Nat) : fs.write here path content mode =
      if fs.isAttached n then
        .ok ((fs.addAt n name (.file []) mode).2.setContent fs.issued content)
      else .error .missing := by
  rw [write, create_of_missing h hlook]
  cases fs.isAttached n <;> rfl

/-- **A file is replaced**, or made. -/
theorem replaceFile_eq_of_stands (h : fs.Stands here path n name)
    (hfree : ∀ k, fs.look (n, name) ≠ some (.other k)) (content : Bytes) (mode : Nat) :
    fs.replaceFile here path content mode =
      if fs.isAttached n then .ok (fs.addAt n name (.file content) mode).2
      else .error .missing := by
  have hnode : (fs.entry? n name).any fs.isDirectory = false := by
    rw [Option.any_eq_false]
    intro k hentry
    by_contra hk
    have hdirectory : fs.isDirectory k = true := by simpa using hk
    exact hfree k (look_eq_other_iff.mpr ⟨hentry, form?_ne_file hdirectory⟩)
  rw [replaceFile, h.spot_stay]
  change (if meansDirectory path then _ else if !fs.isAttached n then _ else
    if (fs.entry? n name).any fs.isDirectory then _ else _) = _
  rw [h.ends, if_neg Bool.false_ne_true, hnode]
  cases hattached : fs.isAttached n with
  | false => rfl
  | true => rfl

/-- **A file is removed.** -/
theorem removeFile_of_stands (h : fs.Stands here path n name)
    (hlook : fs.look (n, name) = some (.file content)) :
    fs.removeFile here path = .ok (fs.dropEntry n name) := by
  obtain ⟨k, hentry, hform⟩ := look_eq_file_iff.mp hlook
  have hk : fs.isDirectory k = false := by rw [isDirectory, hform]
  rw [removeFile, h.spot_stay, hentry]
  change (if fs.isDirectory k then _ else _) = _
  rw [hk]
  rfl

/-! ### Changes -/

/-- A new file under a name, all other names as they were. -/
theorem turns_addAt (hsound : fs.IsSound) (hn : fs.isDirectory n = true)
    (hname : Path.isName name = true) (hfree : ∀ k, fs.look (n, name) ≠ some (.other k))
    (content : Bytes) (mode : Nat) :
    fs.Turns (fs.addAt n name (.file content) mode).2 (n, name) (some content) :=
  (binds_new hsound hn hname hfree (fs.issued_addAt n name _ mode)
    (form?_addAt hsound hn name _ mode)).turns hsound

/-- A new file that is filled. -/
theorem binds_setContent_addAt (hsound : fs.IsSound) (hn : fs.isDirectory n = true)
    (hname : Path.isName name = true) (hfree : ∀ k, fs.look (n, name) ≠ some (.other k))
    (content : Bytes) (mode : Nat) :
    fs.Binds ((fs.addAt n name (.file []) mode).2.setContent fs.issued content) n name
      (some (fs.issued, content)) := by
  have hne : fs.issued ≠ n := (hsound.numbered hn).ne'
  have hform : (fs.addAt n name (.file []) mode).2.form? fs.issued = some (.file []) := by
    rw [form?_addAt hsound hn, if_neg hne, if_pos rfl]
  refine binds_new hsound hn hname hfree ?_ fun m => ?_
  · rw [issued_setContent, issued_addAt]
  · rw [form?_setContent hform, form?_addAt hsound hn]
    by_cases hm : m = fs.issued
    · rw [if_pos hm, hm, if_neg hne, if_pos rfl]
    · rw [if_neg hm, if_neg hm, if_neg hm]

/-- A file that has no other name is filled anew. -/
theorem binds_setContent (hsound : fs.IsSound) (hname : Path.isName name = true)
    (howns : fs.Owns (n, name)) (hentry : fs.entry? n name = some k) (content : Bytes) :
    fs.Binds (fs.setContent k content) n name (some (k, content)) := by
  obtain ⟨k', before, hentry', hform, -⟩ := id howns
  obtain rfl : k = k' := Option.some.inj (hentry.symm.trans hentry')
  exact binds_own hsound hname howns hentry (issued_setContent fs k content)
    (form?_setContent hform content)

/-- A name is taken away, all other names as they were. -/
theorem turns_dropEntry (hsound : fs.IsSound) (hn : fs.isDirectory n = true)
    (hname : Path.isName name = true) (hfree : ∀ k, fs.look (n, name) ≠ some (.other k)) :
    fs.Turns (fs.dropEntry n name) (n, name) none :=
  (binds_none hsound hn hname hfree).turns hsound

end FileSystem

end MutationTesting
