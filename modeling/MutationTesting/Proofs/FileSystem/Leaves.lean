import MutationTesting.Proofs.FileSystem.Change
/-!
# What is found below a directory

A search for files goes down through directories only, a search for leaves goes over links to
directories as well. So a file lies below a directory in one way, if at all, but there may be many
paths under which it is found as a leaf. There is only one if no link below the directory leads to a
directory.

## Main definitions

* `FileSystem.Descends` — names lead down through directories
* `FileSystem.Opens` — what a search for leaves goes through
* `FileSystem.NoLinkToDirectory` — no link below a directory leads to a directory

## Main results

* `FileSystem.holdsFile_concat_iff` — the files below a directory
* `FileSystem.IsSound.descends_inj` — a directory lies below another one in one way
* `FileSystem.mem_leavesFrom_iff`, `FileSystem.mem_leavesFrom_of_descends` — the leaves
* `FileSystem.nodup_leavesFrom` — each path is found once
* `FileSystem.exists_descends_of_opens` — without links to directories
-/

namespace MutationTesting

namespace FileSystem

/-- Names lead down from a directory to a directory. -/
inductive Descends (fs : FileSystem) : Nat → List Octets → Nat → Prop where
  | here {n : Nat} : Descends fs n [] n
  | down {n j k : Nat} {name : Octets} {way : List Octets} (entry : fs.entry? n name = some j)
      (inner : fs.isDirectory j = true) (later : Descends fs j way k) :
      Descends fs n (name :: way) k

/-- A search for leaves comes from the path of a directory to the path of a directory, so many
levels down at most. -/
inductive Opens (fs : FileSystem) (here : Nat) : Nat → Path → Path → Prop where
  | here {depth : Nat} {path : Path} : Opens fs here depth path path
  | down {depth n j : Nat} {name : Octets} {path above : Path} (lead : fs.LeadsTo here path n)
      (entry : fs.entry? n name = some j)
      (inner : fs.leadsToDirectory here (Path.join path name) = true)
      (later : Opens fs here depth (Path.join path name) above) : Opens fs here (depth + 1) path above

/-- No link below the directory leads to a directory. -/
def NoLinkToDirectory (fs : FileSystem) (here : Nat) (dir : Path) (n : Nat) : Prop :=
  ∀ way name k j target, fs.Descends n way k → fs.entry? k name = some j →
    fs.form? j = some (.link target) →
    fs.leadsToDirectory here (Path.join dir (Path.joined (way ++ [name]))) = false

variable {fs fs' : FileSystem} {here links links' depth n i j k : Nat} {name : Octets}
  {way : List Octets} {path above dir p : Path} {content : Bytes}

/-! ### Going down -/

theorem IsTree.isName (h : fs.IsTree) (hentry : fs.entry? n name = some k) :
    Path.isName name = true := h.names _ (h.mem_entries_iff.mpr hentry)

theorem Descends.isName (h : fs.Descends n way k) (htree : fs.IsTree) :
    ∀ name ∈ way, Path.isName name = true := by
  induction h with
  | here => nofun
  | down entry _ _ ih => exact List.forall_mem_cons.mpr ⟨htree.isName entry, ih⟩

/-- Names lead down to one directory. -/
theorem Descends.unique (h : fs.Descends n way j) (h' : fs.Descends n way k) : j = k := by
  induction h with
  | here =>
    cases h'
    rfl
  | down entry inner later ih =>
    cases h' with
    | down entry' inner' later' =>
      obtain rfl := Option.some.inj (entry.symm.trans entry')
      exact ih later'

theorem SameWays.descends (h : fs.SameWays fs') (hway : fs.Descends n way k) :
    fs'.Descends n way k := by
  induction hway with
  | here => exact .here
  | down entry inner _ ih =>
    exact .down (h.entry? entry (form?_ne_file inner)) (h.isDirectory inner) ih

/-- **The files below a directory** are those in the directories below it. -/
theorem holdsFile_concat_iff (htree : fs.IsTree) : fs.HoldsFile n (way ++ [name]) ↔
    ∃ k content, fs.Descends n way k ∧ fs.look (k, name) = some (.file content) := by
  induction way generalizing n with
  | nil =>
    constructor
    · intro h
      cases h with
      | here entry file =>
        exact ⟨n, _, .here, look_eq_file_iff.mpr ⟨_, htree.mem_entries_iff.mp entry, file⟩⟩
      | through _ _ rest => exact absurd rfl rest.ne_nil
    · rintro ⟨k, content, hway, hlook⟩
      cases hway with
      | here =>
        obtain ⟨j, hentry, hform⟩ := look_eq_file_iff.mp hlook
        exact .here (htree.mem_entries_iff.mpr hentry) hform
  | cons first way ih =>
    rw [List.cons_append]
    constructor
    · intro h
      generalize hrest : way ++ [name] = rest at h
      cases h with
      | here _ _ => exact absurd hrest (by simp)
      | through entry directory rest =>
        subst hrest
        obtain ⟨k, content, hway, hlook⟩ := ih.mp rest
        exact ⟨k, content, .down (htree.mem_entries_iff.mp entry)
          (isDirectory_of_form? directory) hway, hlook⟩
    · rintro ⟨k, content, hway, hlook⟩
      cases hway with
      | down entry inner later =>
        exact .through (htree.mem_entries_iff.mpr entry) (form?_of_isDirectory inner)
          (ih.mpr ⟨k, content, later, hlook⟩)

theorem descends_concat_iff : fs.Descends n (way ++ [name]) k ↔
    ∃ j, fs.Descends n way j ∧ fs.entry? j name = some k ∧ fs.isDirectory k = true := by
  induction way generalizing n with
  | nil =>
    constructor
    · intro h
      cases h with
      | down entry inner later =>
        cases later with
        | here => exact ⟨n, .here, entry, inner⟩
    · rintro ⟨j, hway, hentry, hk⟩
      cases hway with
      | here => exact .down hentry hk .here
  | cons first way ih =>
    rw [List.cons_append]
    constructor
    · intro h
      cases h with
      | down entry inner later =>
        obtain ⟨j, hway, hlast⟩ := ih.mp later
        exact ⟨j, .down entry inner hway, hlast⟩
    · rintro ⟨j, hway, hlast⟩
      cases hway with
      | down entry inner later => exact .down entry inner (ih.mpr ⟨j, later, hlast⟩)

theorem Descends.transGen (h : fs.Descends n way k) (htree : fs.IsTree) (hway : way ≠ []) :
    Relation.TransGen fs.Contains n k := by
  induction way using List.reverseRecOn generalizing k with
  | nil => exact absurd rfl hway
  | append_singleton way name ih =>
    obtain ⟨j, hj, hentry, hk⟩ := descends_concat_iff.mp h
    have hlast : fs.Contains j k := ⟨hk, name, htree.mem_entries_iff.mpr hentry⟩
    by_cases hnil : way = []
    · subst hnil
      cases hj with
      | here => exact .single hlast
    · exact .tail (ih hj hnil) hlast

/-- **A directory lies below another one in one way.** -/
theorem IsSound.descends_inj (hsound : fs.IsSound) {way' : List Octets} (h : fs.Descends n way k)
    (h' : fs.Descends n way' k) : way = way' := by
  have htree := hsound.toIsTree
  have hcircle : ∀ {way}, fs.Descends n way n → way = [] := fun {way} hway => by
    by_contra hne
    exact htree.acyclic n (hway.transGen htree hne)
  induction way using List.reverseRecOn generalizing way' k with
  | nil =>
    cases h with
    | here => exact (hcircle h').symm
  | append_singleton way name ih =>
    obtain rfl | ⟨init', name', rfl⟩ := way'.eq_nil_or_concat'
    · cases h' with
      | here => exact absurd (hcircle h) (by simp)
    · obtain ⟨j, hj, hentry, hk⟩ := descends_concat_iff.mp h
      obtain ⟨j', hj', hentry', -⟩ := descends_concat_iff.mp h'
      have hmem := htree.mem_entries_iff.mpr hentry
      have hmem' := htree.mem_entries_iff.mpr hentry'
      obtain rfl : j = j' :=
        (hsound.above (name, k) hmem hk).symm.trans (hsound.above (name', k) hmem' hk)
      obtain rfl : name = name' := hsound.single (name, k) hmem (name', k) hmem' hk rfl
      rw [ih hj hj']

/-- Names that lead down lead to one directory, however they are followed. -/
theorem Leads.eq_of_descends (h : fs.Leads links n way links' k) (htree : fs.IsTree)
    (hway : fs.Descends n way j) : k = j := by
  induction hway generalizing links with
  | here =>
    cases h with
    | here => rfl
  | down entry inner later ih =>
    have hname := htree.isName entry
    cases h with
    | up _ _ => exact absurd rfl (Path.isName_iff.mp hname).2.2.1
    | down _ entry' _ later' =>
      obtain rfl := Option.some.inj (entry.symm.trans entry')
      exact ih later'
    | along _ entry' link _ _ =>
      obtain rfl := Option.some.inj (entry.symm.trans entry')
      exact absurd link (form?_ne_link inner _)

/-! ### Names behind a path -/

theorem reaches_join (hname : Path.isName name = true)
    (hreach : fs.Reaches here (Path.steps path) links n) :
    fs.Reaches here (Path.steps (Path.join path name)) links' k ↔
      fs.Leads links n [name] links' k := by
  have hsteps : Path.steps (Path.join path name) = Path.steps path ++ [name].map .name :=
    Path.steps_join_name path hname
  rw [hsteps, reaches_append]
  exact ⟨fun h => h.of_append hreach, hreach.append⟩

/-- What leads to a directory is a directory or a link. -/
theorem Leads.ne_file (h : fs.Leads links n [name] links' k) (hname : Path.isName name = true)
    (hentry : fs.entry? n name = some j) (content : Bytes) : fs.form? j ≠ some (.file content) := by
  intro hform
  cases h with
  | up _ _ => exact absurd rfl (Path.isName_iff.mp hname).2.2.1
  | down _ entry inner _ =>
    obtain rfl := Option.some.inj (hentry.symm.trans entry)
    exact form?_ne_file inner content hform
  | along _ entry link _ _ =>
    obtain rfl := Option.some.inj (hentry.symm.trans entry)
    rw [hform] at link
    cases link

theorem LeadsTo.ne_file (h : fs.LeadsTo here path n) (hname : Path.isName name = true)
    (hentry : fs.entry? n name = some k)
    (hinner : fs.leadsToDirectory here (Path.join path name) = true) (content : Bytes) :
    fs.form? k ≠ some (.file content) := by
  obtain ⟨-, -, links, hreach⟩ := h
  obtain ⟨j, -, -, links', hreach'⟩ := leadsToDirectory_iff.mp hinner
  exact ((reaches_join hname hreach).mp hreach').ne_file hname hentry content

/-! ### Searches for leaves -/

theorem mem_leavesFrom_succ : p ∈ fs.leavesFrom here (depth + 1) path ↔
    ∃ n, fs.LeadsTo here path n ∧ ∃ e ∈ fs.entries n,
      p ∈ if fs.leadsToDirectory here (Path.join path e.1) then
        fs.leavesFrom here depth (Path.join path e.1) else [Path.join path e.1] := by
  rw [leavesFrom]
  cases hfind : fs.find .follow here path with
  | error e =>
    refine iff_of_false nofun ?_
    rintro ⟨n, hlead, -⟩
    rw [(find_directory_iff.mpr hlead).1] at hfind
    cases hfind
  | ok n =>
    rw [List.mem_flatMap]
    constructor
    · rintro ⟨e, he, hp⟩
      exact ⟨n, find_directory_iff.mp ⟨hfind, isDirectory_of_mem_entries he⟩, e, he, hp⟩
    · rintro ⟨n', hlead, e, he, hp⟩
      obtain rfl := Except.ok.inj (hfind.symm.trans (find_directory_iff.mpr hlead).1)
      exact ⟨e, he, hp⟩

/-- **The leaves**: what is no directory in a directory that the search goes through. -/
theorem mem_leavesFrom_iff (htree : fs.IsTree) : p ∈ fs.leavesFrom here (depth + 1) path ↔
    ∃ above n name, fs.Opens here depth path above ∧ fs.LeadsTo here above n ∧
      (fs.entry? n name).isSome = true ∧
      fs.leadsToDirectory here (Path.join above name) = false ∧ p = Path.join above name := by
  induction depth generalizing path with
  | zero =>
    rw [mem_leavesFrom_succ]
    constructor
    · rintro ⟨n, hlead, ⟨name, k⟩, he, hp⟩
      split at hp
      · cases hp
      · next hinner =>
        refine ⟨path, n, name, .here, hlead, ?_, by simpa using hinner, List.mem_singleton.mp hp⟩
        rw [htree.mem_entries_iff.mp he]
        rfl
    · rintro ⟨above, n, name, hopens, hlead, hentry, hinner, rfl⟩
      cases hopens with
      | here =>
        obtain ⟨k, hk⟩ := Option.isSome_iff_exists.mp hentry
        refine ⟨n, hlead, (name, k), htree.mem_entries_iff.mpr hk, ?_⟩
        rw [hinner, if_neg Bool.false_ne_true]
        exact List.mem_singleton_self _
  | succ depth ih =>
    rw [mem_leavesFrom_succ]
    constructor
    · rintro ⟨n, hlead, ⟨name, k⟩, he, hp⟩
      have hentry := htree.mem_entries_iff.mp he
      split at hp
      · next hinner =>
        obtain ⟨above, m, name', hopens, hlead', hentry', hinner', hp'⟩ := ih.mp hp
        exact ⟨above, m, name', .down hlead hentry hinner hopens, hlead', hentry', hinner', hp'⟩
      · next hinner =>
        refine ⟨path, n, name, .here, hlead, ?_, by simpa using hinner, List.mem_singleton.mp hp⟩
        rw [hentry]
        rfl
    · rintro ⟨above, m, name', hopens, hlead', hentry', hinner', rfl⟩
      cases hopens with
      | here =>
        obtain ⟨k, hk⟩ := Option.isSome_iff_exists.mp hentry'
        refine ⟨m, hlead', (name', k), htree.mem_entries_iff.mpr hk, ?_⟩
        rw [hinner', if_neg Bool.false_ne_true]
        exact List.mem_singleton_self _
      | @down _ n j name _ _ lead entry inner later =>
        refine ⟨n, lead, (name, j), htree.mem_entries_iff.mpr entry, ?_⟩
        rw [inner, if_pos rfl]
        exact ih.mpr ⟨above, m, name', later, hlead', hentry', hinner', rfl⟩

theorem SameWays.opens (h : fs.SameWays fs') (htree : fs.IsTree)
    (hopens : fs.Opens here depth path above) : fs'.Opens here depth path above := by
  induction hopens with
  | here => exact .here
  | down lead entry inner _ ih =>
    have hplain := lead.ne_file (htree.isName entry) entry inner
    exact .down (h.leadsTo lead) (h.entry? entry hplain)
      ((h.leadsToDirectory_eq _ _).symm.trans inner) ih

theorem join_joined_cons (dir : Path) {way : List Octets} (hway : way ≠ [])
    (h : ∀ m ∈ name :: way, Path.isName m = true) :
    Path.join dir (Path.joined (name :: way)) = Path.join (Path.join dir name) (Path.joined way) := by
  rw [← Path.foldl_join dir (List.cons_ne_nil name way) h, List.foldl_cons,
    Path.foldl_join _ hway fun m hm => h m (List.mem_cons_of_mem _ hm)]

/-- What is found through an entry is named by its name and names behind it. -/
theorem exists_way_of_entry {found : List Path} {inner : Bool} (hname : Path.isName name = true)
    (hfound : ∀ p ∈ found, ∃ way, way ≠ [] ∧ (∀ m ∈ way, Path.isName m = true) ∧
      p = Path.join (Path.join path name) (Path.joined way))
    (hp : p ∈ if inner then found else [Path.join path name]) :
    ∃ way, (∀ m ∈ name :: way, Path.isName m = true) ∧
      p = Path.join path (Path.joined (name :: way)) := by
  split at hp
  · obtain ⟨way, hway, hnames, rfl⟩ := hfound p hp
    have hall : ∀ m ∈ name :: way, Path.isName m = true := List.forall_mem_cons.mpr ⟨hname, hnames⟩
    exact ⟨way, hall, (join_joined_cons path hway hall).symm⟩
  · rw [List.mem_singleton.mp hp]
    exact ⟨[], List.forall_mem_singleton.mpr hname, by rw [Path.joined_singleton]⟩

/-- A leaf is named by names behind the path where the search began. -/
theorem exists_way_of_mem_leavesFrom (htree : fs.IsTree) (h : p ∈ fs.leavesFrom here depth path) :
    ∃ way, way ≠ [] ∧ (∀ m ∈ way, Path.isName m = true) ∧
      p = Path.join path (Path.joined way) := by
  induction depth generalizing path p with
  | zero => cases h
  | succ depth ih =>
    obtain ⟨n, -, ⟨name, k⟩, he, hp⟩ := mem_leavesFrom_succ.mp h
    obtain ⟨way, hnames, rfl⟩ := exists_way_of_entry (htree.names _ he) (fun p hp => ih hp) hp
    exact ⟨name :: way, List.cons_ne_nil name way, hnames, rfl⟩

/-- **Each path is found once.** -/
theorem nodup_leavesFrom (htree : fs.IsTree) (here depth : Nat) (path : Path) :
    (fs.leavesFrom here depth path).Nodup := by
  induction depth generalizing path with
  | zero => exact List.nodup_nil
  | succ depth ih =>
    rw [leavesFrom]
    split
    · exact List.nodup_nil
    · next n _ =>
      rw [List.nodup_flatMap]
      refine ⟨fun ⟨name, k⟩ _ => ?_, ?_⟩
      · dsimp only
        split
        · exact ih _
        · exact List.nodup_singleton _
      · -- names behind different names make different paths
        have hdistinct := List.pairwise_map.mp (htree.distinct n)
        refine hdistinct.imp_of_mem fun {e e'} he he' hne => ?_
        refine List.disjoint_left.mpr fun p hp hp' => hne ?_
        obtain ⟨way, hnames, hway⟩ := exists_way_of_entry (htree.names e he)
          (fun p hp => exists_way_of_mem_leavesFrom htree hp) hp
        obtain ⟨way', hnames', hway'⟩ := exists_way_of_entry (htree.names e' he')
          (fun p hp => exists_way_of_mem_leavesFrom htree hp) hp'
        have heq := Path.eq_of_components_join (List.cons_ne_nil e.1 way)
          (List.cons_ne_nil e'.1 way') hnames hnames' (congrArg Path.components (hway.symm.trans hway'))
        exact (List.cons.inj heq).1

/-- A path that can be followed may be cut off. -/
theorem IsPath.of_prefix (h : IsPath path) (hp : p <+: path) (hne : p ≠ []) : IsPath p where
  ne_nil := hne
  plain := fun hmem => h.plain (hp.subset hmem)
  short := hp.length_le.trans_lt h.short

/-- A path goes on with what comes after its first name. -/
theorem join_prefix_join (dir : Path) {way : List Octets} (hway : way ≠ [])
    (h : ∀ m ∈ name :: way, Path.isName m = true) :
    Path.join dir name <+: Path.join dir (Path.joined (name :: way)) := by
  obtain ⟨hname, hnames⟩ := List.forall_mem_cons.mp h
  have hfirst : Path.isAbsolute (Path.joined [name]) = false :=
    Path.isAbsolute_joined (List.cons_ne_nil name []) (List.forall_mem_singleton.mpr hname)
  rw [Path.joined_singleton] at hfirst
  rw [join_joined_cons dir hway h,
    Path.join_eq_leading_append _ (Path.isAbsolute_joined hway hnames), Path.leading_join hname,
    Path.join_eq_leading_append dir hfirst, List.append_assoc]
  exact List.prefix_append _ _

theorem join_ne_nil (dir : Path) (hname : Path.isName name = true) : Path.join dir name ≠ [] := by
  intro hnil
  have hcomponents := Path.components_join_name dir hname
  rw [hnil] at hcomponents
  exact absurd hcomponents.symm (by simp [Path.components, Path.pieces])

/-- **Leaves below a directory.** What does not lead to a directory is found in each directory
below, if paths to this directory can be followed. -/
theorem mem_leavesFrom_of_descends (htree : fs.IsTree) (hway : fs.Descends n way k)
    (hlead : fs.LeadsTo here dir n) (hreach : fs.Reaches here (Path.steps dir) links n)
    (hleads : fs.Leads links n way links' k)
    (hpath : way ≠ [] → IsPath (Path.join dir (Path.joined way))) (hdepth : way.length ≤ depth)
    (hentry : fs.entry? k name = some i)
    (hleaf : fs.leadsToDirectory here (Path.join dir (Path.joined (way ++ [name]))) = false) :
    Path.join dir (Path.joined (way ++ [name])) ∈ fs.leavesFrom here (depth + 1) dir := by
  have hname := htree.isName hentry
  induction hway generalizing dir links depth with
  | here =>
    rw [List.nil_append, Path.joined_singleton] at hleaf ⊢
    exact (mem_leavesFrom_iff htree).mpr
      ⟨dir, _, name, .here, hlead, by rw [hentry]; rfl, hleaf, rfl⟩
  | @down n j k first way entry inner later ih =>
    have hfirst := htree.isName entry
    have hway := later.isName htree
    have hnames : ∀ m ∈ first :: (way ++ [name]), Path.isName m = true :=
      List.forall_mem_cons.mpr ⟨hfirst, List.forall_mem_append.mpr
        ⟨hway, List.forall_mem_singleton.mpr hname⟩⟩
    obtain ⟨depth, rfl⟩ : ∃ d, depth = d + 1 := ⟨depth - 1, by simp at hdepth; omega⟩
    cases hleads with
    | up _ _ => exact absurd rfl (Path.isName_iff.mp hfirst).2.2.1
    | along _ entry' link _ _ =>
      obtain rfl := Option.some.inj (entry.symm.trans entry')
      exact absurd link (form?_ne_link inner _)
    | down admits entry' inner' later' =>
      obtain rfl := Option.some.inj (entry.symm.trans entry')
      have hreach' := (reaches_join hfirst hreach).mpr (.down admits entry inner .here)
      have hall : ∀ m ∈ first :: way, Path.isName m = true :=
        List.forall_mem_cons.mpr ⟨hfirst, hway⟩
      have hjoin : fs.LeadsTo here (Path.join dir first) j := by
        refine ⟨?_, inner, links, hreach'⟩
        have hwhole := hpath (List.cons_ne_nil first way)
        by_cases hnil : way = []
        · rwa [hnil, Path.joined_singleton] at hwhole
        · exact hwhole.of_prefix (join_prefix_join dir hnil hall) (join_ne_nil dir hfirst)
      refine mem_leavesFrom_succ.mpr ⟨n, hlead, (first, j), htree.mem_entries_iff.mpr entry, ?_⟩
      rw [List.cons_append, join_joined_cons dir (by simp) hnames] at hleaf ⊢
      rw [leadsToDirectory_iff.mpr ⟨j, hjoin⟩, if_pos rfl]
      refine ih hjoin hreach' later' (fun hnil => ?_) (Nat.le_of_succ_le_succ hdepth) hentry hleaf
      rw [← join_joined_cons dir hnil hall]
      exact hpath (List.cons_ne_nil first way)

/-- A directory is below another one, and no link below that leads to a directory. -/
theorem NoLinkToDirectory.down (h : fs.NoLinkToDirectory here dir n) (htree : fs.IsTree)
    (hentry : fs.entry? n name = some j) (hj : fs.isDirectory j = true) :
    fs.NoLinkToDirectory here (Path.join dir name) j := by
  intro way last k i target hway hlast hlink
  have hnames : ∀ m ∈ name :: (way ++ [last]), Path.isName m = true :=
    List.forall_mem_cons.mpr ⟨htree.isName hentry, List.forall_mem_append.mpr
      ⟨hway.isName htree, List.forall_mem_singleton.mpr (htree.isName hlast)⟩⟩
  have hno := h (name :: way) last k i target (.down hentry hj hway) hlast hlink
  rwa [List.cons_append, join_joined_cons dir (by simp) hnames] at hno

/-- What leads to a directory is one, if it is no link to one. -/
theorem NoLinkToDirectory.leadsTo (h : fs.NoLinkToDirectory here dir n) (htree : fs.IsTree)
    (hlead : fs.LeadsTo here dir n) (hentry : fs.entry? n name = some j)
    (hinner : fs.leadsToDirectory here (Path.join dir name) = true) :
    fs.LeadsTo here (Path.join dir name) j := by
  obtain ⟨-, -, links, hreach⟩ := hlead
  obtain ⟨k, hk⟩ := leadsToDirectory_iff.mp hinner
  obtain ⟨links', hreach'⟩ := hk.2.2
  have hname := htree.isName hentry
  cases (reaches_join hname hreach).mp hreach' with
  | up _ _ => exact absurd rfl (Path.isName_iff.mp hname).2.2.1
  | down _ entry _ later =>
    obtain rfl := Option.some.inj (hentry.symm.trans entry)
    cases later with
    | here => exact hk
  | along _ entry link _ _ =>
    obtain rfl := Option.some.inj (hentry.symm.trans entry)
    have hno := h [] name n _ _ .here hentry link
    rw [List.nil_append, Path.joined_singleton, hinner] at hno
    cases hno

/-- **Without links to directories** a search for leaves goes down only. -/
theorem exists_descends_of_opens (htree : fs.IsTree) (hlinks : fs.NoLinkToDirectory here dir n)
    (hlead : fs.LeadsTo here dir n) (hopens : fs.Opens here depth dir above)
    (habove : fs.LeadsTo here above k) :
    ∃ way, fs.Descends n way k ∧ above = way.foldl Path.join dir := by
  induction hopens generalizing n with
  | here =>
    obtain rfl := hlead.unique habove
    exact ⟨[], .here, rfl⟩
  | @down depth n' j name path above lead entry inner later ih =>
    obtain rfl := lead.unique hlead
    have hjoin := hlinks.leadsTo htree hlead entry inner
    obtain ⟨way, hway, rfl⟩ := ih (hlinks.down htree entry hjoin.2.1) hjoin habove
    exact ⟨name :: way, .down entry hjoin.2.1 hway, rfl⟩

end FileSystem

end MutationTesting
