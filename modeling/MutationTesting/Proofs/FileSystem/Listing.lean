import Mathlib.Data.List.Nodup
import Mathlib.Data.List.Perm.Subperm
import Mathlib.Logic.Relation
import MutationTesting.FileSystem.Change
import MutationTesting.FileSystem.Listing
import MutationTesting.Proofs.Host.Steps
/-!
# The files of a tree

A file lies below a directory if names lead to it through other directories; what a link stands for
does not lie there. A listing goes down only so far, as many levels as nodes have been numbered. In
a tree this is far enough. No directory is below itself, so on the way to a file no directory comes
twice, and there are no more levels than directories.

The names in a directory stand in some order, which only a listing shows. If the names in some
directories change their order and nothing else happens, then each path leads where it led before,
the same is read there, and the same files lie below a directory; only they may be listed one before
the other now.

## Main definitions

* `FileSystem.HoldsFile` — the ways to the files below a directory
* `FileSystem.IsTree` — proper names, each once in a directory, and no circles
* `FileSystem.IsOrdered` — what is in a directory has a greater number; this makes a tree
* `FileSystem.below?` — what names lead to without a link
* `FileSystem.Reorders` — the same but for the order of names

## Main results

* `FileSystem.HoldsFile.length_le` — no way is too long
* `FileSystem.mem_regularBelow_iff`, `FileSystem.nodup_regularBelow` — each file is listed once, and
  nothing else is
* `FileSystem.find_of_below?` — where a path leads that goes down only
* `FileSystem.Reorders.find_eq`, `FileSystem.Reorders.read_eq`,
  `FileSystem.Reorders.regularBelow_perm` — directories in another order
-/

namespace MutationTesting

/-- Entries in another order are found under the same keys, if no two of them have one in common. -/
theorem lookup_eq_of_perm {α β : Type} [BEq α] [LawfulBEq α] {xs ys : List (α × β)}
    (h : xs.Perm ys) (hxs : (xs.map Prod.fst).Nodup) (a : α) : xs.lookup a = ys.lookup a := by
  induction h with
  | nil => rfl
  | cons e _ ih =>
    rw [List.lookup_cons, List.lookup_cons, ih (List.nodup_cons.mp hxs).2]
  | swap e e' xs =>
    have hne : e'.1 ≠ e.1 := fun heq => (List.nodup_cons.mp hxs).1 (heq ▸ List.mem_cons_self)
    rw [List.lookup_cons, List.lookup_cons, List.lookup_cons, List.lookup_cons]
    by_cases he : a = e.1
    · subst he
      rw [beq_eq_false_iff_ne.mpr hne.symm]
    · rw [beq_eq_false_iff_ne.mpr he]
  | trans hperm _ ih ih' => exact (ih hxs).trans (ih' ((hperm.map _).nodup_iff.mp hxs))

namespace FileSystem

/-- The names of a way lead from a directory through directories to a file. -/
inductive HoldsFile (fs : FileSystem) : Nat → List Octets → Prop where
  | here {n k : Nat} {name : Octets} {content : Bytes} (entry : (name, k) ∈ fs.entries n)
      (file : fs.form? k = some (.file content)) : HoldsFile fs n [name]
  | through {n k parent : Nat} {name : Octets} {way : List Octets} {entries : List (Octets × Nat)}
      (entry : (name, k) ∈ fs.entries n) (directory : fs.form? k = some (.directory parent entries))
      (rest : HoldsFile fs k way) : HoldsFile fs n (name :: way)

/-- The first directory has a name for the second one. -/
def Contains (fs : FileSystem) (n k : Nat) : Prop :=
  fs.isDirectory k = true ∧ ∃ name, (name, k) ∈ fs.entries n

/-- What every file system is in which nothing went wrong: the nodes have been numbered, names are
proper and stand for one thing each, and no directory is below itself. -/
structure IsTree (fs : FileSystem) : Prop where
  numbered {n : Nat} (h : fs.isDirectory n = true) : n < fs.issued
  names {n : Nat} : ∀ e ∈ fs.entries n, Path.isName e.1 = true
  distinct (n : Nat) : ((fs.entries n).map Prod.fst).Nodup
  acyclic (n : Nat) : ¬ Relation.TransGen fs.Contains n n

/-- In every directory the names are proper, each is there once, and it stands for a node with a
greater number. -/
def IsOrdered (fs : FileSystem) : Prop :=
  ∀ e ∈ fs.nodes, e.1 < fs.issued ∧ ((fs.entries e.1).map Prod.fst).Nodup ∧
    ∀ entry ∈ fs.entries e.1, Path.isName entry.1 = true ∧ e.1 < entry.2

instance (fs : FileSystem) : Decidable fs.IsOrdered := inferInstanceAs (Decidable (∀ _ ∈ _, _))

variable {fs : FileSystem} {n : Nat} {way : List Octets}

/-- What has a form is among the nodes. -/
theorem exists_mem_nodes {form : NodeForm} (h : fs.form? n = some form) :
    ∃ node, (n, node) ∈ fs.nodes := by
  obtain ⟨node, hnode, -⟩ := Option.map_eq_some_iff.mp h
  obtain ⟨before, after, hnodes, -⟩ := List.lookup_eq_some_iff.mp hnode
  exact ⟨node, hnodes ▸ List.mem_append_right _ List.mem_cons_self⟩

/-- What has entries is among the nodes. -/
theorem entries_eq_nil_or (fs : FileSystem) (n : Nat) :
    fs.entries n = [] ∨ ∃ node, (n, node) ∈ fs.nodes := by
  cases h : fs.form? n with
  | none => left; rw [entries, h]
  | some form => exact .inr (exists_mem_nodes h)

theorem IsOrdered.of_mem_entries (h : fs.IsOrdered) {entry : Octets × Nat}
    (hentry : entry ∈ fs.entries n) : Path.isName entry.1 = true ∧ n < entry.2 := by
  obtain hnil | ⟨node, hnode⟩ := fs.entries_eq_nil_or n
  · rw [hnil] at hentry
    cases hentry
  · exact (h _ hnode).2.2 entry hentry

/-- Where directories were made before what is in them there are no circles. -/
theorem IsOrdered.isTree (h : fs.IsOrdered) : fs.IsTree where
  numbered {n} hn := by
    unfold isDirectory at hn
    split at hn
    · next hform =>
      obtain ⟨node, hnode⟩ := exists_mem_nodes hform
      exact (h _ hnode).1
    · cases hn
  names entry hentry := (h.of_mem_entries hentry).1
  distinct n := by
    obtain hnil | ⟨node, hnode⟩ := fs.entries_eq_nil_or n
    · rw [hnil]
      exact List.nodup_nil
    · exact (h _ hnode).2.1
  acyclic n hcircle := by
    have hlt : ∀ a b, fs.Contains a b → a < b := by
      rintro a b ⟨-, name, hentry⟩
      exact (h.of_mem_entries hentry).2
    exact Nat.lt_irrefl n (Relation.transGen_minimal hlt n n hcircle)

/-! ### Ways -/

theorem HoldsFile.ne_nil (h : fs.HoldsFile n way) : way ≠ [] := by
  cases h <;> nofun

theorem HoldsFile.isName (htree : fs.IsTree) (h : fs.HoldsFile n way) :
    ∀ name ∈ way, Path.isName name = true := by
  induction h with
  | here entry _ => exact List.forall_mem_singleton.mpr (htree.names _ entry)
  | through entry _ _ ih => exact List.forall_mem_cons.mpr ⟨htree.names _ entry, ih⟩

theorem isDirectory_of_form? {parent : Nat} {entries : List (Octets × Nat)}
    (h : fs.form? n = some (.directory parent entries)) : fs.isDirectory n = true := by
  rw [isDirectory, h]

/-- The directories on the way to a file: as many as there are names. -/
theorem HoldsFile.exists_directories (h : fs.HoldsFile n way) (hn : fs.isDirectory n = true) :
    ∃ later : List Nat, (n :: later).length = way.length ∧
      (∀ k ∈ n :: later, fs.isDirectory k = true) ∧ (n :: later).IsChain fs.Contains := by
  induction h with
  | here _ _ => exact ⟨[], rfl, List.forall_mem_singleton.mpr hn, .singleton _⟩
  | @through n k _ name way _ entry directory _ ih =>
    have hk := isDirectory_of_form? directory
    obtain ⟨later, hlength, hall, hchain⟩ := ih hk
    refine ⟨k :: later, ?_, List.forall_mem_cons.mpr ⟨hn, hall⟩, hchain.cons_cons ⟨hk, name, entry⟩⟩
    rw [List.length_cons, hlength, List.length_cons]

/-- **No way is too long**: no directory comes twice on it. -/
theorem HoldsFile.length_le (htree : fs.IsTree) (h : fs.HoldsFile n way)
    (hn : fs.isDirectory n = true) : way.length ≤ fs.issued := by
  obtain ⟨later, hlength, hall, hchain⟩ := h.exists_directories hn
  have hbelow : (n :: later).IsChain (Relation.TransGen fs.Contains) :=
    hchain.imp fun _ _ => .single
  have hnodup : (n :: later).Nodup := by
    refine hbelow.pairwise.imp ?_
    rintro k _ hbelow rfl
    exact htree.acyclic k hbelow
  have hsubset : (n :: later) ⊆ List.range fs.issued := fun k hk =>
    List.mem_range.mpr (htree.numbered (hall k hk))
  have hle := (List.subperm_of_subset hnodup hsubset).length_le
  rwa [hlength, List.length_range] at hle

/-! ### Listings -/

/-- The files that are listed down to a level. -/
theorem mem_regularFrom_iff {depth : Nat} :
    way ∈ fs.regularFrom depth n ↔ fs.HoldsFile n way ∧ way.length ≤ depth := by
  induction depth generalizing n way with
  | zero =>
    refine ⟨nofun, ?_⟩
    rintro ⟨h, hlength⟩
    exact absurd (List.length_eq_zero_iff.mp (Nat.le_zero.mp hlength)) h.ne_nil
  | succ depth ih =>
    rw [regularFrom, List.mem_flatMap]
    constructor
    · rintro ⟨⟨name, k⟩, entry, h⟩
      dsimp only at h
      split at h
      · next directory =>
        obtain ⟨rest, hrest, rfl⟩ := List.mem_map.mp h
        obtain ⟨hholds, hlength⟩ := ih.mp hrest
        exact ⟨.through entry directory hholds, Nat.succ_le_succ hlength⟩
      · next file =>
        obtain rfl := List.mem_singleton.mp h
        exact ⟨.here entry file, Nat.succ_le_succ (Nat.zero_le depth)⟩
      · cases h
    · rintro ⟨h, hlength⟩
      cases h with
      | @here _ k name _ entry file =>
        refine ⟨(name, k), entry, ?_⟩
        simp only [file, List.mem_singleton]
      | @through _ k _ name rest _ entry directory hrest =>
        refine ⟨(name, k), entry, ?_⟩
        simp only [directory]
        exact List.mem_map_of_mem (ih.mpr ⟨hrest, Nat.le_of_succ_le_succ hlength⟩)

/-- **The files that are listed** are those below the directory. -/
theorem mem_regularBelow_iff (htree : fs.IsTree) (hn : fs.isDirectory n = true) :
    way ∈ fs.regularBelow n ↔ fs.HoldsFile n way := by
  rw [regularBelow, mem_regularFrom_iff]
  exact ⟨And.left, fun h => ⟨h, h.length_le htree hn⟩⟩

/-- What is listed for an entry begins with its name. -/
theorem head?_of_mem_entry {depth : Nat} {e : Octets × Nat}
    (h : way ∈ match fs.form? e.2 with
      | some (.directory _ _) => (fs.regularFrom depth e.2).map (e.1 :: ·)
      | some (.file _) => [[e.1]]
      | _ => []) : way.head? = some e.1 := by
  split at h
  · obtain ⟨rest, -, rfl⟩ := List.mem_map.mp h
    rfl
  · rw [List.mem_singleton.mp h]
    rfl
  · cases h

theorem nodup_regularFrom (htree : fs.IsTree) (depth : Nat) : (fs.regularFrom depth n).Nodup := by
  induction depth generalizing n with
  | zero => exact List.nodup_nil
  | succ depth ih =>
    rw [regularFrom, List.nodup_flatMap]
    refine ⟨fun ⟨name, k⟩ _ => ?_, ?_⟩
    · dsimp only
      split
      · exact (List.nodup_map_iff fun _ _ h => (List.cons.inj h).2).mpr ih
      · exact List.nodup_singleton _
      · exact List.nodup_nil
    · -- ways that begin with different names are different
      refine (List.pairwise_map.mp (htree.distinct n)).imp fun {e e'} hne => ?_
      refine List.disjoint_left.mpr fun way hway hway' => hne ?_
      exact Option.some.inj ((head?_of_mem_entry hway).symm.trans (head?_of_mem_entry hway'))

/-- **Each file is listed once.** -/
theorem nodup_regularBelow (htree : fs.IsTree) (n : Nat) : (fs.regularBelow n).Nodup :=
  nodup_regularFrom htree fs.issued

/-! ### Paths that only go down -/

/-- What names lead to from a directory, where no link is on the way. -/
def below? (fs : FileSystem) : Nat → List Octets → Option Nat
  | n, [] => some n
  | n, name :: rest =>
    if fs.isDirectory n ∧ name.length ≤ nameLimit ∧ name ≠ ['.', '.'] then
      (fs.entry? n name).bind fun k =>
        match fs.form? k with
        | some (.link _) => none
        | _ => below? fs k rest
    else none

variable {here : Nat}

/-- A step down. -/
theorem exists_step_of_below? (ending : Ending) (links : Nat) {name : Octets}
    {rest : List Octets} (h : fs.below? here (name :: rest) = some n) :
    ∃ k, fs.below? k rest = some n ∧ fs.walk ending links here (name :: rest) =
      if rest = [] then .ok ⟨here, some name, some k⟩ else fs.walk ending links k rest := by
  rw [below?] at h
  split at h
  · next hname =>
    obtain ⟨hhere, hlength, hup⟩ := hname
    obtain ⟨k, hentry, hk⟩ := Option.bind_eq_some_iff.mp h
    rw [walk, hhere, if_neg (by simp), if_neg (Nat.not_lt.mpr hlength), if_neg hup, hentry]
    split at hk
    · cases hk
    · next hlink =>
      exact ⟨k, hk, by simp only⟩
  · cases h

theorem exists_walk_of_below? (ending : Ending) (links : Nat) {names : List Octets}
    (h : fs.below? here names = some n) :
    ∃ s, fs.walk ending links here names = .ok s ∧ s.node = some n := by
  induction names generalizing here with
  | nil => exact ⟨⟨here, none, some here⟩, by rw [walk], h⟩
  | cons name rest ih =>
    obtain ⟨k, hk, hwalk⟩ := exists_step_of_below? ending links h
    rw [hwalk]
    split
    · next hrest =>
      rw [hrest] at hk
      exact ⟨_, rfl, hk⟩
    · exact ih hk

/-- **A path leads down** to what its names lead to. It begins here, and it may be one of a file. -/
theorem find_of_below? {ending : Ending} {path : Octets} (hpath : path ≠ [] ∧ '\x00' ∉ path ∧
      path.length < pathLimit ∧ meansDirectory path = false ∧ path.head? ≠ some '/')
    (h : fs.below? here (names path) = some n) : fs.find ending here path = .ok n := by
  obtain ⟨hnil, hzero, hlength, hmeans, hhead⟩ := hpath
  obtain ⟨⟨directory, name, _⟩, hwalk, rfl⟩ := exists_walk_of_below? ending linkLimit h
  have hspot : fs.spot ending here path = .ok ⟨directory, name, some n⟩ := by
    simp only [spot, hnil, List.contains_iff_mem, hzero, Nat.not_le.mpr hlength, hmeans, hhead,
      Bool.false_eq_true, if_false, Bool.false_and]
    rw [hwalk]
    rfl
  rw [find, hspot]
  rfl

/-! ### Directories in another order -/

/-- Every node is the same, or it is a directory in which the names stand in another order. -/
structure Reorders (fs fs' : FileSystem) : Prop where
  issued : fs.issued = fs'.issued
  forms (n : Nat) : fs.form? n = fs'.form? n ∨ ∃ parent entries entries',
    fs.form? n = some (.directory parent entries) ∧
      fs'.form? n = some (.directory parent entries') ∧ entries.Perm entries'

namespace Reorders

variable {fs' : FileSystem}

theorem symm (h : fs.Reorders fs') : fs'.Reorders fs where
  issued := h.issued.symm
  forms n := (h.forms n).imp Eq.symm fun ⟨parent, entries, entries', hform, hform', hperm⟩ =>
    ⟨parent, entries', entries, hform', hform, hperm.symm⟩

theorem entries_perm (h : fs.Reorders fs') (n : Nat) : (fs.entries n).Perm (fs'.entries n) := by
  rw [entries, entries]
  obtain heq | ⟨_, _, _, hform, hform', hperm⟩ := h.forms n
  · rw [heq]
  · rw [hform, hform']
    exact hperm

theorem isDirectory_eq (h : fs.Reorders fs') (n : Nat) :
    fs.isDirectory n = fs'.isDirectory n := by
  rw [isDirectory, isDirectory]
  obtain heq | ⟨_, _, _, hform, hform', -⟩ := h.forms n
  · rw [heq]
  · rw [hform, hform']

theorem parent_eq (h : fs.Reorders fs') (n : Nat) : fs.parent n = fs'.parent n := by
  rw [parent, parent]
  obtain heq | ⟨_, _, _, hform, hform', -⟩ := h.forms n
  · rw [heq]
  · rw [hform, hform']

theorem content_eq (h : fs.Reorders fs') (n : Nat) : fs.content n = fs'.content n := by
  rw [content, content]
  obtain heq | ⟨_, _, _, hform, hform', -⟩ := h.forms n
  · rw [heq]
  · rw [hform, hform']

theorem entry?_eq (h : fs.Reorders fs') (htree : fs.IsTree) (n : Nat) (name : Octets) :
    fs.entry? n name = fs'.entry? n name :=
  lookup_eq_of_perm (h.entries_perm n) (htree.distinct n) name

theorem isTree (h : fs.Reorders fs') (htree : fs.IsTree) : fs'.IsTree where
  numbered {n} hn := h.issued ▸ htree.numbered ((h.isDirectory_eq n).trans hn)
  names {n} e he := htree.names e ((h.entries_perm n).mem_iff.mpr he)
  distinct n := ((h.entries_perm n).map Prod.fst).nodup_iff.mp (htree.distinct n)
  acyclic n hcircle := by
    have hcontains : ∀ a b, fs'.Contains a b → fs.Contains a b := by
      rintro a b ⟨hb, name, hentry⟩
      exact ⟨(h.isDirectory_eq b).trans hb, name, (h.entries_perm a).mem_iff.mpr hentry⟩
    exact htree.acyclic n (Relation.TransGen.mono hcontains n n hcircle)

theorem walk_eq (h : fs.Reorders fs') (htree : fs.IsTree) (ending : Ending) (links here : Nat)
    (path : List Octets) :
    fs.walk ending links here path = fs'.walk ending links here path := by
  induction links using Nat.strong_induction_on generalizing here path with
  | _ links ih =>
    induction path generalizing here with
    | nil => rw [walk, walk]
    | cons name rest ihrest =>
      rw [walk.eq_2 fs, walk.eq_2 fs', h.isDirectory_eq, h.parent_eq, h.entry?_eq htree, ihrest]
      cases fs'.entry? here name with
      | none => rfl
      | some k =>
        obtain heq | ⟨_, _, _, hform, hform', -⟩ := h.forms k
        · -- a link may stand here, after which fewer of them may be followed
          cases links with
          | zero => simp only [heq, ihrest]
          | succ links => simp only [heq, ihrest, ih links (Nat.lt_succ_self links)]
        · simp only [hform, hform', ihrest]

/-- **Paths lead where they led.** -/
theorem find_eq (h : fs.Reorders fs') (htree : fs.IsTree) (ending : Ending) (here : Nat)
    (path : Octets) : fs.find ending here path = fs'.find ending here path := by
  simp only [find, spot, h.walk_eq htree, h.isDirectory_eq]

/-- **The same is read.** -/
theorem read_eq (h : fs.Reorders fs') (htree : fs.IsTree) (here : Nat) (path : Octets) :
    fs.read here path = fs'.read here path := by
  rw [read, read, h.find_eq htree]
  exact bind_congr h.content_eq

theorem holdsFile (h : fs.Reorders fs') (hfile : fs.HoldsFile n way) : fs'.HoldsFile n way := by
  induction hfile with
  | @here n k name content entry file =>
    have hentry := (h.entries_perm n).mem_iff.mp entry
    obtain heq | ⟨_, _, _, hform, -⟩ := h.forms k
    · exact .here hentry (heq ▸ file)
    · rw [file] at hform
      cases hform
  | @through n k parent name way entries entry directory _ ih =>
    have hentry := (h.entries_perm n).mem_iff.mp entry
    obtain heq | ⟨_, _, _, -, hform', -⟩ := h.forms k
    · exact .through hentry (heq ▸ directory) ih
    · exact .through hentry hform' ih

/-- **The same files are listed**, maybe in another order. -/
theorem regularBelow_perm (h : fs.Reorders fs') (htree : fs.IsTree)
    (hn : fs.isDirectory n = true) : (fs.regularBelow n).Perm (fs'.regularBelow n) := by
  have htree' := h.isTree htree
  have hn' : fs'.isDirectory n = true := (h.isDirectory_eq n).symm.trans hn
  refine (List.perm_ext_iff_of_nodup (nodup_regularBelow htree n)
    (nodup_regularBelow htree' n)).mpr fun way => ?_
  rw [mem_regularBelow_iff htree hn, mem_regularBelow_iff htree' hn']
  exact ⟨h.holdsFile, h.symm.holdsFile⟩

end Reorders

end FileSystem

end MutationTesting
