import MutationTesting.Proofs.Class.Location
import MutationTesting.Proofs.FileSystem.Listing
/-!
# Where paths end

A path goes down through directories, up to the one above, and over links to wherever their targets
lead. Nothing but directories and links can be on the way, so that it does not matter for it which
files there are. A path that does not mean a directory then ends in a name that is looked up in the
directory to which the names before it have led, and of this name it matters only what it stands
for.

## Main definitions

* `FileSystem.Walks` — the walks that come to their end
* `FileSystem.Leads` — names lead from a directory to a directory
* `FileSystem.LeadsTo` — a path leads to a directory
* `FileSystem.Stands` — a path ends in a name in a directory

## Main results

* `FileSystem.Walks.exists_leads`, `FileSystem.Leads.walk_append` — a way and what comes after it
* `FileSystem.Leads.unique` — names lead to one directory
* `FileSystem.find_directory_iff`, `FileSystem.leadsToDirectory_iff`
* `FileSystem.Stands.spot_stay`, `FileSystem.Stands.spot_follow`
-/

namespace MutationTesting

namespace FileSystem

/-- The directory in which the first name of a path is looked up. -/
def start (here : Nat) (path : Octets) : Nat := if path.head? = some '/' then root else here

/-- The name can be looked up in the directory. -/
structure Admits (fs : FileSystem) (n : Nat) (name : Octets) : Prop where
  directory : fs.isDirectory n = true
  short : name.length ≤ nameLimit
  proper : name ≠ ['.', '.']

/-- The walks that come to their end, with the spot that they end at. -/
inductive Walks (fs : FileSystem) (ending : Ending) : Nat → Nat → List Octets → Spot → Prop where
  | here {links n : Nat} : Walks fs ending links n [] ⟨n, none, some n⟩
  | up {links n : Nat} {rest : List Octets} {s : Spot} (directory : fs.isDirectory n = true)
      (later : Walks fs ending links (fs.parent n) rest s) :
      Walks fs ending links n (['.', '.'] :: rest) s
  | free {links n : Nat} {name : Octets} (admits : fs.Admits n name)
      (entry : fs.entry? n name = none) : Walks fs ending links n [name] ⟨n, some name, none⟩
  | last {links n k : Nat} {name : Octets} (admits : fs.Admits n name)
      (entry : fs.entry? n name = some k)
      (stays : ∀ target, fs.form? k = some (.link target) → ending = .stay) :
      Walks fs ending links n [name] ⟨n, some name, some k⟩
  | down {links n k : Nat} {name : Octets} {rest : List Octets} {s : Spot}
      (admits : fs.Admits n name) (entry : fs.entry? n name = some k)
      (plain : ∀ target, fs.form? k ≠ some (.link target)) (goes : rest ≠ [])
      (later : Walks fs ending links k rest s) : Walks fs ending links n (name :: rest) s
  | along {links n k : Nat} {name target : Octets} {rest : List Octets} {s : Spot}
      (admits : fs.Admits n name) (entry : fs.entry? n name = some k)
      (link : fs.form? k = some (.link target)) (target_ne : target ≠ [])
      (goes : rest ≠ [] ∨ ending = .follow)
      (later : Walks fs ending links (start n target) (names target ++ rest) s) :
      Walks fs ending (links + 1) n (name :: rest) s

/-- Names lead from a directory to a directory, links followed. The numbers before the directories
are those of the links that may still be followed. -/
inductive Leads (fs : FileSystem) : Nat → Nat → List Octets → Nat → Nat → Prop where
  | here {links n : Nat} : Leads fs links n [] links n
  | up {links n links' k : Nat} {rest : List Octets} (directory : fs.isDirectory n = true)
      (later : Leads fs links (fs.parent n) rest links' k) :
      Leads fs links n (['.', '.'] :: rest) links' k
  | down {links n j links' k : Nat} {name : Octets} {rest : List Octets}
      (admits : fs.Admits n name) (entry : fs.entry? n name = some j)
      (inner : fs.isDirectory j = true) (later : Leads fs links j rest links' k) :
      Leads fs links n (name :: rest) links' k
  | along {links n j links' k : Nat} {name target : Octets} {rest : List Octets}
      (admits : fs.Admits n name) (entry : fs.entry? n name = some j)
      (link : fs.form? j = some (.link target)) (target_ne : target ≠ [])
      (later : Leads fs links (start n target) (names target ++ rest) links' k) :
      Leads fs (links + 1) n (name :: rest) links' k

variable {fs : FileSystem} {ending : Ending} {links links' n k : Nat} {name : Octets}
  {a b rest path : List Octets} {s : Spot}

/-! ### Steps of a walk -/

theorem form?_ne_link (h : fs.isDirectory n = true) (target : Octets) :
    fs.form? n ≠ some (.link target) := by
  intro hlink
  rw [isDirectory, hlink] at h
  cases h

theorem walk_up (h : fs.isDirectory n = true) : fs.walk ending links n (['.', '.'] :: rest) =
    fs.walk ending links (fs.parent n) rest := by
  rw [walk, h, if_neg (by decide), if_neg (by decide), if_pos rfl]

theorem walk_down (h : fs.Admits n name) (hentry : fs.entry? n name = some k)
    (hplain : ∀ target, fs.form? k ≠ some (.link target)) :
    fs.walk ending links n (name :: rest) =
      if rest = [] then .ok ⟨n, some name, some k⟩ else fs.walk ending links k rest := by
  rw [walk, h.directory, if_neg (by decide), if_neg (Nat.not_lt.mpr h.short), if_neg h.proper,
    hentry]
  dsimp only
  split
  · next target hlink => exact absurd hlink (hplain target)
  · rfl

theorem walk_over {target : Octets} (h : fs.Admits n name) (hentry : fs.entry? n name = some k)
    (hlink : fs.form? k = some (.link target)) (htarget : target ≠ [])
    (hgoes : rest ≠ [] ∨ ending = .follow) : fs.walk ending (links + 1) n (name :: rest) =
      fs.walk ending links (start n target) (names target ++ rest) := by
  have hend : ¬ (decide (rest = []) && decide (ending = .stay)) = true := by
    obtain hrest | rfl := hgoes
    · simp [hrest]
    · simp
  rw [walk, h.directory, if_neg (by decide), if_neg (Nat.not_lt.mpr h.short), if_neg h.proper,
    hentry]
  simp only [hlink, if_neg hend, if_neg htarget]
  rfl

/-- A name at the end of a walk. -/
theorem walk_name (h : fs.Admits n name) (hstays : ∀ k target, fs.entry? n name = some k →
      fs.form? k = some (.link target) → ending = .stay) :
    fs.walk ending links n [name] = .ok ⟨n, some name, fs.entry? n name⟩ := by
  rw [walk, h.directory, if_neg (by decide), if_neg (Nat.not_lt.mpr h.short), if_neg h.proper]
  cases hentry : fs.entry? n name with
  | none => rfl
  | some k =>
    dsimp only
    split
    · next target hlink =>
      simp [hstays k target hentry hlink]
    · rfl

/-- A walk that gives an answer has come to its end. -/
theorem walks_of_walk (h : fs.walk ending links n path = .ok s) :
    fs.Walks ending links n path s := by
  fun_induction fs.walk ending links n path with
  | case1 => cases h; exact .here
  | case2 => cases h
  | case3 => cases h
  | case4 _ _ _ hn _ ih => exact .up (by simpa using hn) (ih h)
  | case5 _ _ _ hn hlength hproper hentry =>
    cases h
    exact .free ⟨by simpa using hn, Nat.not_lt.mp hlength, hproper⟩ hentry
  | case6 => cases h
  | case7 _ _ _ _ hn hlength hproper k hentry target hlink hend =>
    cases h
    simp only [Bool.and_eq_true, decide_eq_true_eq] at hend
    obtain ⟨rfl, hstay⟩ := hend
    exact .last ⟨by simpa using hn, Nat.not_lt.mp hlength, hproper⟩ hentry fun _ _ => hstay
  | case8 => cases h
  | case9 => cases h
  | case10 _ _ rest hn hlength hproper k hentry target hlink hend links htarget ih =>
    refine .along ⟨by simpa using hn, Nat.not_lt.mp hlength, hproper⟩ hentry hlink htarget ?_ (ih h)
    by_cases hrest : rest = []
    · right
      cases ending with
      | follow => rfl
      | stay => simp [hrest] at hend
    · exact .inl hrest
  | case11 _ _ _ hn hlength hproper k hentry hplain =>
    cases h
    exact .last ⟨by simpa using hn, Nat.not_lt.mp hlength, hproper⟩ hentry
      fun target hlink => (hplain target hlink).elim
  | case12 _ _ _ _ hn hlength hproper k hentry hrest hplain ih =>
    exact .down ⟨by simpa using hn, Nat.not_lt.mp hlength, hproper⟩ hentry hplain hrest (ih h)

/-- Names are looked up in directories. -/
theorem Walks.isDirectory (h : fs.Walks ending links n path s) (hpath : path ≠ []) :
    fs.isDirectory n = true := by
  cases h with
  | here => exact absurd rfl hpath
  | up directory _ => exact directory
  | free admits _ => exact admits.directory
  | last admits _ _ => exact admits.directory
  | down admits _ _ _ _ => exact admits.directory
  | along admits _ _ _ _ _ => exact admits.directory

theorem Walks.admits (h : fs.Walks ending links n (name :: rest) s) (hname : name ≠ ['.', '.']) :
    fs.Admits n name := by
  generalize hpath : name :: rest = path at h
  cases h with
  | here => cases hpath
  | up _ _ => exact absurd (List.cons.inj hpath).1 hname
  | free admits _ => exact (List.cons.inj hpath).1 ▸ admits
  | last admits _ _ => exact (List.cons.inj hpath).1 ▸ admits
  | down admits _ _ _ _ => exact (List.cons.inj hpath).1 ▸ admits
  | along admits _ _ _ _ _ => exact (List.cons.inj hpath).1 ▸ admits

/-- **A walk has one end**, however many links may be followed. -/
theorem Walks.unique {s' : Spot} (h : fs.Walks ending links n path s)
    (h' : fs.Walks ending links' n path s') : s = s' := by
  induction h generalizing links' with
  | here => cases h'; rfl
  | up _ _ ih =>
    cases h' with
    | up _ later => exact ih later
    | free admits _ => exact absurd rfl admits.proper
    | last admits _ _ => exact absurd rfl admits.proper
    | down admits _ _ _ _ => exact absurd rfl admits.proper
    | along admits _ _ _ _ _ => exact absurd rfl admits.proper
  | free admits entry =>
    cases h' with
    | up _ _ => exact absurd rfl admits.proper
    | free _ _ => rfl
    | last _ entry' _ => cases entry.symm.trans entry'
    | down _ entry' _ _ _ => cases entry.symm.trans entry'
    | along _ entry' _ _ _ _ => cases entry.symm.trans entry'
  | last admits entry stays =>
    cases h' with
    | up _ _ => exact absurd rfl admits.proper
    | free _ entry' => cases entry.symm.trans entry'
    | last _ entry' _ => rw [Option.some.inj (entry.symm.trans entry')]
    | down _ _ _ goes _ => exact absurd rfl goes
    | along _ entry' link _ goes _ =>
      obtain rfl := Option.some.inj (entry.symm.trans entry')
      obtain hgoes | rfl := goes
      · exact absurd rfl hgoes
      · cases stays _ link
  | down admits entry plain goes _ ih =>
    cases h' with
    | up _ _ => exact absurd rfl admits.proper
    | free _ _ => exact absurd rfl goes
    | last _ _ _ => exact absurd rfl goes
    | down _ entry' _ _ later =>
      obtain rfl := Option.some.inj (entry.symm.trans entry')
      exact ih later
    | along _ entry' link _ _ _ =>
      obtain rfl := Option.some.inj (entry.symm.trans entry')
      exact absurd link (plain _)
  | along admits entry link _ goes _ ih =>
    cases h' with
    | up _ _ => exact absurd rfl admits.proper
    | free _ entry' => cases entry.symm.trans entry'
    | last _ entry' stays =>
      obtain rfl := Option.some.inj (entry.symm.trans entry')
      obtain hgoes | rfl := goes
      · exact absurd rfl hgoes
      · cases stays _ link
    | down _ entry' plain _ _ =>
      obtain rfl := Option.some.inj (entry.symm.trans entry')
      exact absurd link (plain _)
    | along _ entry' link' _ _ later =>
      obtain rfl := Option.some.inj (entry.symm.trans entry')
      obtain rfl := NodeForm.link.inj (Option.some.inj (link.symm.trans link'))
      exact ih later

/-! ### Ways -/

/-- **A way and what comes after it**: what is behind a directory is looked up from there. -/
theorem Walks.exists_leads (h : fs.Walks ending links n (a ++ b) s) (hb : b ≠ []) :
    ∃ links' k, fs.Leads links n a links' k ∧ fs.Walks ending links' k b s := by
  generalize hpath : a ++ b = path at h
  induction h generalizing a with
  | here => exact absurd (List.append_eq_nil_iff.mp hpath).2 hb
  | up directory later ih =>
    cases a with
    | nil =>
      obtain rfl : b = _ := hpath
      exact ⟨_, _, .here, .up directory later⟩
    | cons _ a =>
      obtain ⟨rfl, hrest⟩ := List.cons.inj hpath
      obtain ⟨links', k, hlead, hwalk⟩ := ih hrest
      exact ⟨links', k, .up directory hlead, hwalk⟩
  | free admits entry =>
    cases a with
    | nil =>
      obtain rfl : b = _ := hpath
      exact ⟨_, _, .here, .free admits entry⟩
    | cons _ a => exact absurd (List.append_eq_nil_iff.mp (List.cons.inj hpath).2).2 hb
  | last admits entry stays =>
    cases a with
    | nil =>
      obtain rfl : b = _ := hpath
      exact ⟨_, _, .here, .last admits entry stays⟩
    | cons _ a => exact absurd (List.append_eq_nil_iff.mp (List.cons.inj hpath).2).2 hb
  | down admits entry plain goes later ih =>
    cases a with
    | nil =>
      obtain rfl : b = _ := hpath
      exact ⟨_, _, .here, .down admits entry plain goes later⟩
    | cons _ a =>
      obtain ⟨rfl, hrest⟩ := List.cons.inj hpath
      obtain ⟨links', k, hlead, hwalk⟩ := ih hrest
      exact ⟨links', k, .down admits entry (later.isDirectory goes) hlead, hwalk⟩
  | @along _ _ _ _ target _ _ admits entry link target_ne goes later ih =>
    cases a with
    | nil =>
      obtain rfl : b = _ := hpath
      exact ⟨_, _, .here, .along admits entry link target_ne goes later⟩
    | cons _ a =>
      obtain ⟨rfl, rfl⟩ := List.cons.inj hpath
      obtain ⟨links', k, hlead, hwalk⟩ := ih (List.append_assoc (names target) a b)
      exact ⟨links', k, .along admits entry link target_ne hlead, hwalk⟩

theorem Leads.walk_append (h : fs.Leads links n a links' k) (hb : b ≠ []) :
    fs.walk ending links n (a ++ b) = fs.walk ending links' k b := by
  induction h with
  | here => rfl
  | up directory _ ih => rw [List.cons_append, walk_up directory, ih]
  | @down _ _ _ _ _ _ rest admits entry inner _ ih =>
    have hrest : rest ++ b ≠ [] := List.append_ne_nil_of_right_ne_nil rest hb
    rw [List.cons_append, walk_down admits entry (form?_ne_link inner), if_neg hrest, ih]
  | @along _ _ _ _ _ _ _ rest admits entry link target_ne _ ih =>
    have hrest : rest ++ b ≠ [] := List.append_ne_nil_of_right_ne_nil rest hb
    rw [List.cons_append, walk_over admits entry link target_ne (.inl hrest), ← List.append_assoc,
      ih]

theorem Leads.append {links'' j : Nat} (h : fs.Leads links n a links' k)
    (h' : fs.Leads links' k b links'' j) : fs.Leads links n (a ++ b) links'' j := by
  induction h with
  | here => exact h'
  | up directory _ ih => exact .up directory (ih h')
  | down admits entry inner _ ih => exact .down admits entry inner (ih h')
  | along admits entry link target_ne _ ih =>
    have hlater := ih h'
    rw [List.append_assoc] at hlater
    exact .along admits entry link target_ne hlater

/-- A way, and the rest of it from a directory on it. -/
theorem Leads.of_append {links'' j : Nat} (h : fs.Leads links n (a ++ b) links'' j)
    (ha : fs.Leads links n a links' k) : fs.Leads links' k b links'' j := by
  induction ha with
  | here => exact h
  | up directory _ ih =>
    cases h with
    | up _ later => exact ih later
    | down admits _ _ _ => exact absurd rfl admits.proper
    | along admits _ _ _ _ => exact absurd rfl admits.proper
  | down admits entry inner _ ih =>
    cases h with
    | up _ _ => exact absurd rfl admits.proper
    | down _ entry' _ later =>
      obtain rfl := Option.some.inj (entry.symm.trans entry')
      exact ih later
    | along _ entry' link _ _ =>
      obtain rfl := Option.some.inj (entry.symm.trans entry')
      exact absurd link (form?_ne_link inner _)
  | along admits entry link _ _ ih =>
    cases h with
    | up _ _ => exact absurd rfl admits.proper
    | down _ entry' inner _ =>
      obtain rfl := Option.some.inj (entry.symm.trans entry')
      exact absurd link (form?_ne_link inner _)
    | along _ entry' link' _ later =>
      obtain rfl := Option.some.inj (entry.symm.trans entry')
      obtain rfl := NodeForm.link.inj (Option.some.inj (link.symm.trans link'))
      exact ih (by rw [List.append_assoc]; exact later)

/-- **Names lead to one directory.** -/
theorem Leads.unique {links'' j : Nat} (h : fs.Leads links n a links' k)
    (h' : fs.Leads links n a links'' j) : k = j := by
  rw [← List.append_nil a] at h'
  cases h'.of_append h with
  | here => rfl

/-- What a walk finds that follows links to the end is what the names lead to, if that is a
directory. -/
theorem Walks.leads (h : fs.Walks .follow links n path s) (hs : s.node = some k)
    (hk : fs.isDirectory k = true) : ∃ links', fs.Leads links n path links' k := by
  induction h with
  | here =>
    obtain rfl := Option.some.inj hs
    exact ⟨_, .here⟩
  | up directory _ ih =>
    obtain ⟨links', hlead⟩ := ih hs
    exact ⟨links', .up directory hlead⟩
  | free _ _ => cases hs
  | last admits entry _ =>
    obtain rfl := Option.some.inj hs
    exact ⟨_, .down admits entry hk .here⟩
  | down admits entry _ goes later ih =>
    obtain ⟨links', hlead⟩ := ih hs
    exact ⟨links', .down admits entry (later.isDirectory goes) hlead⟩
  | along admits entry link target_ne _ _ ih =>
    obtain ⟨links', hlead⟩ := ih hs
    exact ⟨links', .along admits entry link target_ne hlead⟩

theorem Leads.exists_walk (h : fs.Leads links n a links' k) :
    ∃ s, fs.walk .follow links n a = .ok s ∧ s.node = some k := by
  induction h with
  | here => exact ⟨_, by rw [walk], rfl⟩
  | up directory _ ih => rwa [walk_up directory]
  | down admits entry inner later ih =>
    rw [walk_down admits entry (form?_ne_link inner)]
    split
    · next hrest =>
      subst hrest
      cases later with
      | here => exact ⟨_, rfl, rfl⟩
    · exact ih
  | along admits entry link target_ne _ ih =>
    rwa [walk_over admits entry link target_ne (.inr rfl)]

end FileSystem

/-! ### Names of a path -/

namespace Path

/-- A step as it is written between slashes; the root is written as nothing. -/
def Component.written? : Component → Option Octets
  | .parent => some ['.', '.']
  | .name n => some n
  | _ => none

theorem written?_stepOf (piece : Piece) : (stepOf piece).written? = some piece := by
  rw [stepOf]
  split
  · next h => rw [h]; rfl
  · rfl

theorem filterMap_laterSteps (pieces : List Piece) :
    (laterSteps pieces).filterMap Component.written? = pieces.filter (!isVoid ·) := by
  rw [laterSteps, List.filterMap_map]
  exact (List.filterMap_congr fun piece _ => written?_stepOf piece).trans (List.filterMap_some)

/-- The names of a path are its steps as they are written, but for the root. -/
theorem names_eq (path : Path) :
    FileSystem.names path = (steps path).filterMap Component.written? := by
  have hvoid : (fun name : Octets => name != [] && name != ['.']) = (!isVoid ·) := by
    funext name
    rw [Bool.eq_iff_iff]
    simp [isVoid]
  rw [FileSystem.names, hvoid]
  cases path with
  | nil => rfl
  | cons c path =>
    obtain ⟨first, rest, hpieces⟩ : ∃ first rest, splitAt '/' (c :: path) = first :: rest :=
      List.exists_cons_of_ne_nil (splitAt_ne_nil (c :: path))
    rw [steps, components_eq, pieces_of_ne_nil (List.cons_ne_nil c path), hpieces, componentsOf,
      List.filter_cons, List.filter_cons, filter_laterSteps, firstStep]
    by_cases hempty : first = []
    · simp [hempty, isVoid, List.filterMap_cons, Component.written?, filterMap_laterSteps]
    · by_cases hdot : first = ['.']
      · simp [hdot, isVoid, filterMap_laterSteps]
      · simp [hempty, hdot, isVoid, stepOf_ne_current, written?_stepOf, filterMap_laterSteps]

theorem stepOf_ne_root (piece : Piece) : stepOf piece ≠ .root := by
  rw [stepOf]
  split <;> simp

/-- A path begins at the root iff its first step is the root. -/
theorem start_eq (here : Nat) (path : Path) : FileSystem.start here path =
    if (steps path).head? = some .root then FileSystem.root else here := by
  rw [FileSystem.start]
  refine if_congr ?_ rfl rfl
  cases path with
  | nil => exact ⟨nofun, nofun⟩
  | cons c path =>
    have hlater (pieces : List Piece) : (laterSteps pieces).head? ≠ some .root := by
      intro hhead
      obtain ⟨piece, -, hpiece⟩ := List.mem_map.mp (List.mem_of_mem_head? hhead)
      exact stepOf_ne_root piece hpiece
    obtain ⟨first, rest, hpieces⟩ : ∃ first rest, splitAt '/' (c :: path) = first :: rest :=
      List.exists_cons_of_ne_nil (splitAt_ne_nil (c :: path))
    have hfirst : c = '/' ↔ first = [] := by
      rw [splitAt] at hpieces
      split at hpieces
      · next hc => exact iff_of_true hc (List.cons.inj hpieces).1.symm
      · next hc =>
        refine iff_of_false hc ?_
        rintro rfl
        split at hpieces <;> cases hpieces
    rw [List.head?_cons, Option.some.injEq, hfirst, steps, components_eq,
      pieces_of_ne_nil (List.cons_ne_nil c path), hpieces, componentsOf, List.filter_cons,
      filter_laterSteps, firstStep]
    by_cases hempty : first = []
    · simp [hempty]
    · by_cases hdot : first = ['.']
      · simp [hdot, hlater]
      · simp [hempty, hdot, stepOf_ne_current, stepOf_ne_root]

end Path

namespace FileSystem

/-! ### Paths -/

/-- A path that can be followed. -/
structure IsPath (path : Octets) : Prop where
  ne_nil : path ≠ []
  plain : '\x00' ∉ path
  short : path.length < pathLimit

/-- Steps lead from a directory to a directory, or from the root to it. -/
def Reaches (fs : FileSystem) (here : Nat) (place : List Path.Component) (links n : Nat) : Prop :=
  fs.Leads linkLimit (if place.head? = some .root then root else here)
    (place.filterMap Path.Component.written?) links n

/-- A path leads to a directory. -/
def LeadsTo (fs : FileSystem) (here : Nat) (path : Octets) (n : Nat) : Prop :=
  IsPath path ∧ fs.isDirectory n = true ∧ ∃ links, fs.Reaches here (Path.steps path) links n

/-- A path ends in a name that is looked up in a directory. -/
structure Stands (fs : FileSystem) (here : Nat) (path : Octets) (n : Nat) (name : Octets) : Prop where
  isPath : IsPath path
  ends : meansDirectory path = false
  admits : fs.Admits n name
  reaches : ∃ place links, Path.steps path = place ++ [.name name] ∧ fs.Reaches here place links n

variable {fs : FileSystem} {ending : Ending} {here links n k : Nat} {name : Octets}
  {path : Octets} {place : List Path.Component} {s : Spot}

theorem reaches_steps : fs.Reaches here (Path.steps path) links n ↔
    fs.Leads linkLimit (start here path) (names path) links n := by
  rw [Reaches, ← Path.start_eq, ← Path.names_eq]

/-- Names behind a place are looked up from there. -/
theorem reaches_append {way : List Octets} : fs.Reaches here (place ++ way.map .name) links n ↔
    fs.Leads linkLimit (if place.head? = some .root then root else here)
      (place.filterMap Path.Component.written? ++ way) links n := by
  have hhead : (place ++ way.map Path.Component.name).head? = some .root ↔
      place.head? = some .root := by
    cases place with
    | nil =>
      refine iff_of_false ?_ nofun
      cases way <;> exact nofun
    | cons _ _ => rw [List.cons_append, List.head?_cons, List.head?_cons]
  have hway : (way.map Path.Component.name).filterMap Path.Component.written? = way := by
    rw [List.filterMap_map]
    exact List.filterMap_some
  rw [Reaches, if_congr hhead rfl rfl, List.filterMap_append, hway]

/-- The place of a path that ends in a name. -/
theorem leads_iff_of_steps (h : Path.steps path = place ++ [.name name]) :
    names path = place.filterMap Path.Component.written? ++ [name] ∧
      ∀ links n, fs.Reaches here place links n ↔ fs.Leads linkLimit (start here path)
        (place.filterMap Path.Component.written?) links n := by
  have hhead : (Path.steps path).head? = some .root ↔ place.head? = some .root := by
    rw [h]
    cases place with
    | nil => exact iff_of_false nofun nofun
    | cons _ _ => rw [List.cons_append, List.head?_cons, List.head?_cons]
  refine ⟨?_, ?_⟩
  · rw [Path.names_eq, h, List.filterMap_append]
    rfl
  · intro links n
    rw [Reaches, Path.start_eq, if_congr hhead rfl rfl]

/-- A path that cannot be followed leads nowhere. -/
theorem isPath_of_spot (h : fs.spot ending here path = .ok s) : IsPath path := by
  by_contra hpath
  have herror : ∃ e, fs.spot ending here path = .error e := by
    by_cases hnil : path = []
    · exact ⟨_, by rw [spot, if_pos hnil]; rfl⟩
    · by_cases hplain : path.contains '\x00' = true
      · exact ⟨_, by rw [spot, if_neg hnil, if_pos hplain]; rfl⟩
      · have hshort : pathLimit ≤ path.length := by
          by_contra hshort
          exact hpath ⟨hnil, by simpa using hplain, Nat.not_le.mp hshort⟩
        exact ⟨_, by rw [spot, if_neg hnil, if_neg hplain, if_pos hshort]; rfl⟩
  obtain ⟨e, he⟩ := herror
  rw [he] at h
  cases h

/-- The walk along a path that can be followed. -/
theorem IsPath.spot_eq (h : IsPath path) : fs.spot ending here path =
    (fs.walk (if meansDirectory path then .follow else ending) linkLimit (start here path)
      (names path)).bind fun s =>
        if meansDirectory path && s.node.any fun k => !fs.isDirectory k then .error .notDirectory
        else .ok s := by
  have hplain : ¬ path.contains '\x00' = true := by simpa using h.plain
  rw [spot, if_neg h.ne_nil, if_neg hplain, if_neg (Nat.not_le.mpr h.short)]
  refine bind_congr fun s => ?_
  cases s.node <;> simp [pure, Except.pure, throw, throwThe, MonadExceptOf.throw]

/-- Where a path leads that does not mean a directory. -/
theorem IsPath.spot_plain (h : IsPath path) (hends : meansDirectory path = false) :
    fs.spot ending here path = fs.walk ending linkLimit (start here path) (names path) := by
  rw [h.spot_eq, hends, if_neg Bool.false_ne_true]
  cases fs.walk ending linkLimit (start here path) (names path) <;> rfl

theorem walks_of_spot (h : fs.spot ending here path = .ok s) :
    fs.Walks (if meansDirectory path then .follow else ending) linkLimit (start here path)
      (names path) s := by
  rw [(isPath_of_spot h).spot_eq] at h
  cases hwalk : fs.walk (if meansDirectory path then .follow else ending) linkLimit
      (start here path) (names path) with
  | error e =>
    rw [hwalk] at h
    cases h
  | ok s' =>
    rw [hwalk, Except.bind] at h
    split at h
    · cases h
    · cases h
      exact walks_of_walk hwalk

theorem find_eq_ok_iff : fs.find ending here path = .ok k ↔
    ∃ s, fs.spot ending here path = .ok s ∧ s.node = some k := by
  rw [find]
  cases hspot : fs.spot ending here path with
  | error e =>
    constructor
    · intro h
      cases h
    · rintro ⟨s, hs, -⟩
      cases hs
  | ok s =>
    obtain ⟨directory, last, node⟩ := s
    cases node with
    | none =>
      constructor
      · intro h
        cases h
      · rintro ⟨s, hs, hnode⟩
        cases hs
        cases hnode
    | some n =>
      constructor
      · intro h
        cases h
        exact ⟨_, rfl, rfl⟩
      · rintro ⟨s, hs, hnode⟩
        cases hs
        cases hnode
        rfl

/-- **What a path leads to**, if that is a directory. -/
theorem find_directory_iff : fs.find .follow here path = .ok n ∧ fs.isDirectory n = true ↔
    fs.LeadsTo here path n := by
  constructor
  · rintro ⟨hfind, hn⟩
    obtain ⟨s, hspot, hs⟩ := find_eq_ok_iff.mp hfind
    have hwalks := walks_of_spot hspot
    rw [ite_self] at hwalks
    obtain ⟨links, hlead⟩ := hwalks.leads hs hn
    exact ⟨isPath_of_spot hspot, hn, links, reaches_steps.mpr hlead⟩
  · rintro ⟨hpath, hn, links, hreach⟩
    obtain ⟨s, hwalk, hs⟩ := (reaches_steps.mp hreach).exists_walk
    refine ⟨find_eq_ok_iff.mpr ⟨s, ?_, hs⟩, hn⟩
    rw [hpath.spot_eq, ite_self, hwalk, Except.bind]
    simp [hs, hn]

theorem leadsToDirectory_iff : fs.leadsToDirectory here path = true ↔
    ∃ n, fs.LeadsTo here path n := by
  rw [leadsToDirectory]
  constructor
  · intro h
    split at h
    · next n hfind => exact ⟨n, find_directory_iff.mp ⟨hfind, h⟩⟩
    · cases h
  · rintro ⟨n, hn⟩
    obtain ⟨hfind, hn⟩ := find_directory_iff.mpr hn
    rw [hfind]
    exact hn

theorem LeadsTo.unique (h : fs.LeadsTo here path n) (h' : fs.LeadsTo here path k) : n = k := by
  obtain ⟨-, -, links, hlead⟩ := h
  obtain ⟨-, -, links', hlead'⟩ := h'
  exact hlead.unique hlead'

/-- The walk to the end of a path. -/
theorem Stands.spot_eq (h : fs.Stands here path n name) : ∃ links,
    fs.spot ending here path = fs.walk ending links n [name] := by
  obtain ⟨place, links, hsteps, hreach⟩ := h.reaches
  obtain ⟨hnames, hlead⟩ := leads_iff_of_steps hsteps
  refine ⟨links, ?_⟩
  rw [h.isPath.spot_plain h.ends, hnames,
    ((hlead _ _).mp hreach).walk_append (List.cons_ne_nil name [])]

/-- **Where a path ends** if a link at the end is not followed. -/
theorem Stands.spot_stay (h : fs.Stands here path n name) :
    fs.spot .stay here path = .ok ⟨n, some name, fs.entry? n name⟩ := by
  obtain ⟨links, hspot⟩ := h.spot_eq
  rw [hspot]
  exact walk_name h.admits fun _ _ _ _ => rfl

/-- **Where a path ends** if there is no link. -/
theorem Stands.spot_follow (h : fs.Stands here path n name)
    (hlink : ∀ k target, fs.entry? n name = some k → fs.form? k ≠ some (.link target)) :
    fs.spot .follow here path = .ok ⟨n, some name, fs.entry? n name⟩ := by
  obtain ⟨links, hspot⟩ := h.spot_eq
  rw [hspot]
  exact walk_name h.admits fun k target hentry hform => absurd hform (hlink k target hentry)

/-- A path that leads somewhere and ends in a name stands in a directory. -/
theorem exists_stands_of_spot (h : fs.spot ending here path = .ok s)
    (hends : meansDirectory path = false) (hsteps : Path.steps path = place ++ [.name name])
    (hname : Path.isName name = true) :
    ∃ links n, fs.Reaches here place links n ∧ fs.Stands here path n name := by
  obtain ⟨hnames, hlead⟩ := leads_iff_of_steps hsteps
  have hwalks := walks_of_spot h
  rw [hnames] at hwalks
  obtain ⟨links, n, hway, hlast⟩ := hwalks.exists_leads (List.cons_ne_nil name [])
  have hproper : name ≠ ['.', '.'] := (Path.isName_iff.mp hname).2.2.1
  have hreach := (hlead links n).mpr hway
  exact ⟨links, n, hreach, isPath_of_spot h, hends, hlast.admits hproper, place, links, hsteps,
    hreach⟩

/-- Another name in the same directory. -/
theorem Stands.sibling (h : fs.Stands here path n name) {path' : Octets} {name' : Octets}
    (hpath : IsPath path') (hends : meansDirectory path' = false) (hadmits : fs.Admits n name')
    (hsteps : Path.steps path' = Path.sibling (Path.steps path) name') :
    fs.Stands here path' n name' := by
  obtain ⟨place, links, hsteps', hreach⟩ := h.reaches
  rw [hsteps', Path.sibling_concat] at hsteps
  exact ⟨hpath, hends, hadmits, place, links, hsteps, hreach⟩

/-- The directory of a path. -/
theorem Stands.leadsTo (h : fs.Stands here path n name) {parent : Octets} (hpath : IsPath parent)
    (hsteps : Path.steps parent = (Path.steps path).dropLast) : fs.LeadsTo here parent n := by
  obtain ⟨place, links, hsteps', hreach⟩ := h.reaches
  rw [hsteps', List.dropLast_concat] at hsteps
  exact ⟨hpath, h.admits.directory, links, hsteps ▸ hreach⟩

end FileSystem

end MutationTesting
