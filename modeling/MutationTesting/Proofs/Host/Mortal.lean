import MutationTesting.Proofs.Host.Disk
/-!
# A host that breaks down

A host with a disk on which every step that changes a file may break off. The process is told of it
or dies; a dead process changes nothing any more. A file that is written or copied into may then be
left with any beginning of what it was to hold. A file that is replaced is left as it was, but the
new file, which has a name that was made up for it, may be left beside it.

A disk has files and nothing else. Directories and links are left out, so the files below a directory
and the leaves below it are the same here, although a search for leaves goes over links to
directories and a search for files does not. Nothing else happens on such a host.

## Main definitions

* `Fate`, `Mortal`, `Mortal.host`

## Main results

* `Mortal.replace_cases`, `Mortal.remove_cases` — what a step does
-/

namespace MutationTesting

/-- The letters and digits by which the name of a new file is made up. -/
abbrev Letters := {letters : List Char // letters.all Char.isAlphanum = true}

/-- The name of a new file that is to take the place of another one. -/
def Letters.name (letters : Letters) : Octets := ".tmp".toList ++ letters.val

/-- How a step goes. -/
inductive Fate where
  | done
  /-- It breaks off, and the process dies or is told. The file was emptied and so many bytes were
  written, or it was not touched; a new file has the name and was not removed. -/
  | broken (dies : Bool) (written : Option Nat) (litter : Option Letters)

/-- A process on a disk, with the fates of its next steps; all others are done. -/
structure Mortal where
  disk : Disk
  fates : List Fate
  alive : Bool

namespace Mortal

/-- A step that leads to a disk, or to another one if it breaks off. -/
def act {α : Type} (whole : Disk) (part : Option Nat → Option Letters → Disk) (yes no : α) :
    StateM Mortal α := fun m =>
  if m.alive then
    match m.fates with
    | .broken dies written litter :: fates => (no, ⟨part written litter, fates, !dies⟩)
    | _ => (yes, ⟨whole, m.fates.tail, true⟩)
  else (no, m)

/-- The disk on which a file holds the beginning of some bytes, if it was touched. -/
def begun (d : Disk) (place : Location) (content : Bytes) : Option Nat → Disk
  | some n => AList.insert place (content.take n) d
  | none => d

/-- The disk on which a new file was left beside another one, with the beginning of some bytes. -/
def littered (d : Disk) (place : Location) (content : Bytes) (written : Option Nat) :
    Option Letters → Disk
  | some letters =>
    AList.insert (Path.sibling place letters.name) (content.take (written.getD 0)) d
  | none => d

/-- The host. -/
def host : Host Mortal where
  read m path := m.disk.read path
  isDirectory _ _ := false
  filesBelow m dir := some (m.disk.leaves dir)
  leavesBelow m dir := m.disk.leaves dir
  now _ := 0
  write path content := fun m =>
    act (AList.insert path.steps content m.disk) (fun n _ => begun m.disk path.steps content n)
      true false m
  replace path content := fun m =>
    act (AList.insert path.steps content m.disk) (littered m.disk path.steps content)
      none (some path) m
  copy source target := fun m =>
    match m.disk.read source with
    | some content =>
      act (AList.insert target.steps content m.disk)
        (fun n _ => begun m.disk target.steps content n) true false m
    | none => (false, m)
  remove path := fun m =>
    if path.steps ∈ m.disk then
      act (AList.erase path.steps m.disk) (fun _ _ => m.disk) true false m
    else (false, m)
  claim _ _ := pure .unavailable
  release _ := pure ()
  cancelled := pure false
  run _ _ _ := pure none

/-- A process whose steps do not break off. -/
def sound (d : Disk) : Mortal := ⟨d, [], true⟩

variable {m : Mortal} {path : Path} {content : Bytes}

theorem act_cases {α : Type} (whole : Disk) (part : Option Nat → Option Letters → Disk)
    (yes no : α) (m : Mortal) :
    (∃ m', act whole part yes no m = (yes, m') ∧ m'.disk = whole) ∨
      act whole part yes no m = (no, m) ∨
      ∃ written litter m', act whole part yes no m = (no, m') ∧ m'.disk = part written litter := by
  obtain ⟨d, fates, alive⟩ := m
  cases alive with
  | false => exact .inr (.inl rfl)
  | true =>
    cases fates with
    | nil => exact .inl ⟨_, rfl, rfl⟩
    | cons fate fates =>
      cases fate with
      | done => exact .inl ⟨_, rfl, rfl⟩
      | broken dies written litter => exact .inr (.inr ⟨written, litter, _, rfl, rfl⟩)

/-- A file is replaced, or it stays and there may be a new file beside it. -/
theorem replace_cases (path : Path) (content : Bytes) (m : Mortal) :
    (∃ m', host.replace path content m = (none, m') ∧
        m'.disk = AList.insert path.steps content m.disk) ∨
      ∃ written litter m', host.replace path content m = (some path, m') ∧
        m'.disk = littered m.disk path.steps content written litter := by
  obtain h | h | h := act_cases (AList.insert path.steps content m.disk)
    (littered m.disk path.steps content) none (some path) m
  · exact .inl h
  · exact .inr ⟨none, none, m, h, rfl⟩
  · exact .inr h

/-- A file is removed, or nothing happens. -/
theorem remove_cases (path : Path) (m : Mortal) :
    ∃ removed m', host.remove path m = (removed, m') ∧
      (m'.disk = AList.erase path.steps m.disk ∨ m'.disk = m.disk) := by
  change ∃ removed m', (if path.steps ∈ m.disk then _ else _) = (removed, m') ∧ _
  by_cases hmem : path.steps ∈ m.disk
  · simp only [if_pos hmem]
    obtain ⟨m', h, hdisk⟩ | h | ⟨_, _, m', h, hdisk⟩ :=
      act_cases (AList.erase path.steps m.disk) (fun _ _ => m.disk) true false m
    · exact ⟨true, m', h, .inl hdisk⟩
    · exact ⟨false, m, h, .inr rfl⟩
    · exact ⟨false, m', h, .inr hdisk⟩
  · exact ⟨false, m, by rw [if_neg hmem], .inr rfl⟩

end Mortal

end MutationTesting
