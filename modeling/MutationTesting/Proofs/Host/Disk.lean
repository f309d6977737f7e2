import Mathlib.Data.List.AList
import MutationTesting.Proofs.Host.Steps
import MutationTesting.Host.Basic
/-!
# Disks

Finitely many files. The location of a file is the list of steps that lead to it, so that the file
is reached by every path with these steps. A list of the files below a directory spells each of them
with the directory as its beginning.

## Main definitions

* `Location`, `Disk`
* `Disk.read`, `Disk.leaves` — what a file holds, and which files there are
* `Location.NamedBelow` — a location below a directory, with a name of some kind

## Main results

* `Disk.leaves_sound`, `Disk.exists_leaf` — a list of files has these files and no others
-/

namespace MutationTesting

/-- Where a file can be: the steps that lead to it. -/
abbrev Location := List Path.Component

/-- Locations with what the files there hold. -/
abbrev Disk := AList fun _ : Location => Bytes

/-- The location is below the directory and its name is of the kind. -/
def Location.NamedBelow (kind : Octets → Bool) (dir : Path) (place : Location) : Prop :=
  ∃ way n, (∀ m ∈ way ++ [n], Path.isName m = true) ∧ kind n = true ∧
    place = dir.steps ++ (way ++ [n]).map .name

namespace Location.NamedBelow

variable {kind : Octets → Bool} {dir : Path} {place : Location}

/-- A location has one name. -/
theorem kind_of_lastName? (h : NamedBelow kind dir place) {n : Octets}
    (hn : Path.lastName? place = some n) : kind n = true := by
  obtain ⟨way, m, -, hm, rfl⟩ := h
  rw [List.map_append, ← List.append_assoc] at hn
  rwa [← Option.some.inj ((Path.lastName?_concat _ m).symm.trans hn)]

theorem exists_lastName? (h : NamedBelow kind dir place) :
    ∃ n, Path.lastName? place = some n ∧ Path.isName n = true ∧ kind n = true := by
  obtain ⟨way, n, hway, hn, rfl⟩ := h
  refine ⟨n, ?_, hway n (List.mem_append_right _ (List.mem_singleton_self n)), hn⟩
  rw [List.map_append, ← List.append_assoc]
  exact Path.lastName?_concat _ n

/-- Another name beside a file below a directory. -/
theorem sibling (h : NamedBelow kind dir place) {kind' : Octets → Bool} {n : Octets}
    (hn : Path.isName n = true) (hkind : kind' n = true) :
    NamedBelow kind' dir (Path.sibling place n) := by
  obtain ⟨way, m, hway, -, rfl⟩ := h
  refine ⟨way, n, ?_, hkind, ?_⟩
  · intro m' hm'
    obtain hm' | hm' := List.mem_append.mp hm'
    · exact hway m' (List.mem_append_left _ hm')
    · rwa [List.mem_singleton.mp hm']
  · rw [List.map_append, ← List.append_assoc, List.map_append, ← List.append_assoc]
    exact Path.sibling_concat _ _ n

end Location.NamedBelow

namespace Disk

variable {d : Disk} {dir path : Path}

/-- What the file of a path holds. -/
def read (d : Disk) (path : Path) : Option Bytes := d.lookup path.steps

/-- The name that a step is. -/
def name? : Path.Component → Option Octets
  | .name n => if Path.isName n then some n else none
  | _ => none

/-- The names on the ways from a directory to the files below it. -/
def ways (d : Disk) (dir : Path) : List (List Octets) :=
  (d.keys.filterMap fun place => (place.dropPrefix? dir.steps).bind (·.mapM name?)).filter (· ≠ [])

/-- The paths of the files below a directory. -/
def leaves (d : Disk) (dir : Path) : List Path :=
  (d.ways dir).map fun way => Path.join dir (Path.joined way)

theorem name?_eq_some {step : Path.Component} {n : Octets} :
    name? step = some n ↔ step = .name n ∧ Path.isName n = true := by
  cases step with
  | name m =>
    by_cases hm : Path.isName m = true
    · rw [name?, if_pos hm, Option.some.injEq, Path.Component.name.injEq]
      exact ⟨fun h => ⟨h, h ▸ hm⟩, And.left⟩
    · rw [name?, if_neg hm]
      refine ⟨nofun, ?_⟩
      rintro ⟨h, hn⟩
      obtain rfl := Path.Component.name.inj h
      exact absurd hn hm
  | _ => exact ⟨nofun, nofun⟩

theorem mapM_name?_eq_some {steps : List Path.Component} {way : List Octets} :
    steps.mapM name? = some way ↔ steps = way.map .name ∧ ∀ n ∈ way, Path.isName n = true := by
  induction steps generalizing way with
  | nil =>
    rw [List.mapM_nil]
    constructor
    · intro h
      obtain rfl := Option.some.inj h
      exact ⟨rfl, nofun⟩
    · rintro ⟨h, -⟩
      rw [List.map_eq_nil_iff.mp h.symm]
      rfl
  | cons step steps ih =>
    rw [List.mapM_cons]
    constructor
    · intro h
      obtain ⟨n, hn, h⟩ := Option.bind_eq_some_iff.mp h
      obtain ⟨later, hlater, h⟩ := Option.bind_eq_some_iff.mp h
      obtain rfl := Option.some.inj h
      obtain ⟨rfl, hname⟩ := name?_eq_some.mp hn
      obtain ⟨rfl, hnames⟩ := ih.mp hlater
      exact ⟨rfl, List.forall_mem_cons.mpr ⟨hname, hnames⟩⟩
    · rintro ⟨h, hnames⟩
      obtain ⟨n, later, rfl, rfl, rfl⟩ := List.map_eq_cons_iff.mp h.symm
      obtain ⟨hname, hnames⟩ := List.forall_mem_cons.mp hnames
      have hn : name? (.name n) = some n := name?_eq_some.mpr ⟨rfl, hname⟩
      rw [hn, ih.mpr ⟨rfl, hnames⟩]
      rfl

theorem mem_ways {way : List Octets} : way ∈ d.ways dir ↔
    way ≠ [] ∧ (∀ n ∈ way, Path.isName n = true) ∧ dir.steps ++ way.map .name ∈ d := by
  rw [ways, List.mem_filter, List.mem_filterMap, decide_eq_true_iff, and_comm]
  refine and_congr_right fun _ => ?_
  constructor
  · rintro ⟨place, hplace, h⟩
    obtain ⟨later, hlater, hnames⟩ := Option.bind_eq_some_iff.mp h
    obtain ⟨first, rfl, hfirst⟩ := List.dropPrefix?_eq_some_iff.mp hlater
    obtain ⟨rfl, hway⟩ := mapM_name?_eq_some.mp hnames
    rw [eq_of_beq hfirst] at hplace
    exact ⟨hway, AList.mem_keys.mpr hplace⟩
  · rintro ⟨hway, hplace⟩
    refine ⟨_, AList.mem_keys.mp hplace, Option.bind_eq_some_iff.mpr ⟨way.map .name, ?_, ?_⟩⟩
    · exact List.dropPrefix?_append_of_beq _ BEq.rfl
    · exact mapM_name?_eq_some.mpr ⟨rfl, hway⟩

/-- A listed file is there, and it is below the directory. -/
theorem leaves_sound (h : path ∈ d.leaves dir) :
    path.steps ∈ d ∧ ∃ n, Path.fileName? path = some n ∧
      ∀ kind : Octets → Bool, kind n = true → Location.NamedBelow kind dir path.steps := by
  obtain ⟨way, hway, rfl⟩ := List.mem_map.mp h
  obtain ⟨hne, hnames, hplace⟩ := mem_ways.mp hway
  rw [← Path.lastName?_steps, Path.steps_join dir hne hnames]
  obtain rfl | ⟨init, n, rfl⟩ := way.eq_nil_or_concat'
  · exact absurd rfl hne
  · refine ⟨hplace, n, ?_, fun kind hkind => ⟨init, n, hnames, hkind, rfl⟩⟩
    rw [List.map_append, ← List.append_assoc]
    exact Path.lastName?_concat _ n

/-- Each file below a directory is listed. -/
theorem exists_leaf {kind : Octets → Bool} {place : Location} (hplace : place ∈ d)
    (h : place.NamedBelow kind dir) : ∃ path ∈ d.leaves dir, path.steps = place := by
  obtain ⟨way, n, hnames, -, rfl⟩ := h
  have hne : way ++ [n] ≠ [] := by simp
  exact ⟨_, List.mem_map_of_mem (mem_ways.mpr ⟨hne, hnames, hplace⟩),
    Path.steps_join dir hne hnames⟩

end Disk

end MutationTesting
