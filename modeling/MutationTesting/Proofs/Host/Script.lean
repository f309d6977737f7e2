import MutationTesting.Proofs.Host.Disk
/-!
# A host that follows a script

A process works on a disk that others change as well. What it sees between two of its steps, and
what each step answers, is laid down by a script; the host notes each step with what was seen before
it. Whatever may happen to the process is the beginning of what it does by some script, so a
property that all scripts have is one of the process among any others.

A step that succeeds does to a disk what it is for, in one piece; one that fails does nothing. A
contract says what the steps of a process keep true of a disk as long as it alone works there: an
invariant after each single step, so that the process may as well die there, and a property of its
result and the disk in the end.

## Main definitions

* `View`, `View.Shows`, `View.Updates` — what a process sees
* `Deed`, `Deed.Does` — what a process does
* `Turn`, `Oracle`, `Script.host`
* `Disk.Endures`, `Contract`

## Main results

* `Contract.bind`, `Contract.deed`
* `Contract.write`, `Contract.replace`, `Contract.copy`, `Contract.remove`
-/

namespace MutationTesting

/-! ### What a process sees -/

/-- What a process sees of the machine, each question with its answer. -/
structure View where
  read : Path → Option Bytes
  isDirectory : Path → Bool
  filesBelow : Path → Option (List Path)
  leavesBelow : Path → List Path
  now : Nat

namespace View

variable {v v' : View} {d : Disk}

/-- What is seen is on the disk. A file or a directory may be refused, but a list of everything
below a directory is a list of everything. -/
structure Shows (v : View) (d : Disk) : Prop where
  read : ∀ path content, v.read path = some content → d.read path = some content
  filesBelow : ∀ dir paths, v.filesBelow dir = some paths → ∀ path ∈ paths, path ∈ d.leaves dir
  leavesBelow : ∀ dir path, path ∈ v.leavesBelow dir ↔ path ∈ d.leaves dir

/-- Some questions were asked again meanwhile, and what is seen now is on the disk or was seen
before. -/
structure Updates (v' v : View) (d : Disk) : Prop where
  read : ∀ path content, v'.read path = some content →
    v.read path = some content ∨ d.read path = some content
  filesBelow : ∀ dir paths, v'.filesBelow dir = some paths → ∀ path ∈ paths,
    (∃ paths', v.filesBelow dir = some paths' ∧ path ∈ paths') ∨ path ∈ d.leaves dir
  leavesBelow : ∀ dir path, (path ∈ v'.leavesBelow dir ↔ path ∈ v.leavesBelow dir) ∨
    (path ∈ v'.leavesBelow dir ↔ path ∈ d.leaves dir)

/-- What is on a disk stays in sight as long as the disk stays the same. -/
theorem Shows.update (h : v.Shows d) (h' : v'.Updates v d) : v'.Shows d where
  read path content hread := (h'.read path content hread).elim (h.read path content) id
  filesBelow dir paths hpaths path hpath := by
    obtain ⟨paths', hpaths', hpath⟩ | hleaf := h'.filesBelow dir paths hpaths path hpath
    · exact h.filesBelow dir paths' hpaths' path hpath
    · exact hleaf
  leavesBelow dir path := by
    obtain hold | hnew := h'.leavesBelow dir path
    · exact hold.trans (h.leavesBelow dir path)
    · exact hnew

end View

/-! ### What a process does -/

/-- A step of a process that is more than a look. -/
inductive Deed where
  | write (path : Path) (content : Bytes)
  | replace (path : Path) (content : Bytes)
  | copy (source target : Path)
  | remove (path : Path)
  | claim (path : Path) (text : String)
  | release (claim : Nat)
  /-- It is found out whether to stop. -/
  | ask
  | start (command : Command) (timeoutMs : Nat) (heed : Bool)

namespace Deed

/-- The answers to a step. -/
abbrev Answer : Deed → Type
  | .write _ _ => Bool
  | .replace _ _ => Option Path
  | .copy _ _ => Bool
  | .remove _ => Bool
  | .claim _ _ => ClaimResult
  | .release _ => Unit
  | .ask => Bool
  | .start _ _ _ => Option ProcessOutput

/-- The step concerns no claim. -/
def isLocal : Deed → Bool
  | .claim _ _ | .release _ => false
  | _ => true

/-- A disk goes over into another one by a step with an answer. Claims are not among the steps. -/
inductive Does (d : Disk) : (deed : Deed) → deed.Answer → Disk → Prop
  | written {path : Path} {content : Bytes} :
      Does d (.write path content) true (AList.insert path.steps content d)
  | replaced {path : Path} {content : Bytes} :
      Does d (.replace path content) none (AList.insert path.steps content d)
  | copied {source target : Path} {content : Bytes} (held : d.read source = some content) :
      Does d (.copy source target) true (AList.insert target.steps content d)
  | removed {path : Path} : Does d (.remove path) true (AList.erase path.steps d)
  | notWritten {path : Path} {content : Bytes} : Does d (.write path content) false d
  | notReplaced {path blamed : Path} {content : Bytes} :
      Does d (.replace path content) (some blamed) d
  | notCopied {source target : Path} : Does d (.copy source target) false d
  | notRemoved {path : Path} : Does d (.remove path) false d
  | asked {answer : Bool} : Does d .ask answer d
  | started {command : Command} {timeoutMs : Nat} {heed : Bool} {output : Option ProcessOutput} :
      Does d (.start command timeoutMs heed) output d

end Deed

/-! ### The host -/

/-- A step with what was seen before it and what it answered. -/
structure Turn where
  view : View
  deed : Deed
  answer : deed.Answer

/-- A process in the middle of a script. -/
structure Script where
  /-- What it sees. -/
  view : View
  /-- The steps so far, in order. -/
  turns : List Turn

/-- The answers to steps, and what is seen afterwards, by how many steps there were before. -/
abbrev Oracle := Nat → (deed : Deed) → deed.Answer × View

namespace Script

/-- A step that goes as it is laid down. -/
def take (oracle : Oracle) (deed : Deed) : StateM Script deed.Answer := fun s =>
  let (answer, view) := oracle s.turns.length deed
  (answer, ⟨view, s.turns ++ [⟨s.view, deed, answer⟩]⟩)

/-- The host. -/
def host (oracle : Oracle) : Host Script where
  read s := s.view.read
  isDirectory s := s.view.isDirectory
  filesBelow s := s.view.filesBelow
  leavesBelow s := s.view.leavesBelow
  now s := s.view.now
  write path content := take oracle (.write path content)
  replace path content := take oracle (.replace path content)
  copy source target := take oracle (.copy source target)
  remove path := take oracle (.remove path)
  claim path text := take oracle (.claim path text)
  release claim := take oracle (.release claim)
  cancelled := take oracle .ask
  run command timeoutMs heed := take oracle (.start command timeoutMs heed)

end Script

/-! ### Contracts -/

/-- However steps go on a disk that is seen before each of them, none of them concerns a claim, the
first property holds after each of them and the second one in the end. -/
def Disk.Endures (I Q : Disk → Prop) : List Turn → Disk → Prop
  | [], d => Q d
  | t :: ts, d => t.view.Shows d →
    t.deed.isLocal = true ∧ ∀ d', t.deed.Does d t.answer d' → I d' ∧ Disk.Endures I Q ts d'

namespace Disk

variable {I Q R : Disk → Prop} {ts ts' : List Turn} {d : Disk}

theorem endures_append : Endures I Q (ts ++ ts') d ↔ Endures I (Endures I Q ts') ts d := by
  induction ts generalizing d with
  | nil => rfl
  | cons t ts ih => simp only [List.cons_append, Endures, ih]

theorem Endures.mono (h : Endures I Q ts d) (hd : I d) (hQR : ∀ d', I d' → Q d' → R d') :
    Endures I R ts d := by
  induction ts generalizing d with
  | nil => exact hQR d hd h
  | cons t ts ih =>
    intro hshows
    obtain ⟨hlocal, hdoes⟩ := h hshows
    refine ⟨hlocal, fun d' hd' => ?_⟩
    obtain ⟨hI, hrest⟩ := hdoes d' hd'
    exact ⟨hI, ih hrest hI⟩

end Disk

/-- The first view is what is seen before the first of the steps, and the second one if there are
none. -/
def View.LeadsTo (v : View) : List Turn → View → Prop
  | [], v' => v' = v
  | t :: _, _ => t.view = v

theorem View.LeadsTo.append {v v₁ v₂ : View} {ts ts' : List Turn} (h : v.LeadsTo ts v₁)
    (h' : v₁.LeadsTo ts' v₂) : v.LeadsTo (ts ++ ts') v₂ := by
  cases ts with
  | nil =>
    obtain rfl : v₁ = v := h
    exact h'
  | cons t ts => exact h

/-- What a process sees before its first step is on the disk then. -/
theorem View.LeadsTo.endures {v v' : View} {ts : List Turn} {I Q : Disk → Prop} {d : Disk}
    (h : v.LeadsTo ts v')
    (hd : v.Shows d → Disk.Endures I (fun d' => v'.Shows d' → Q d') ts d) :
    Disk.Endures I (fun d' => v'.Shows d' → Q d') ts d := by
  cases ts with
  | nil =>
    obtain rfl : v' = v := h
    exact fun hshows => hd hshows hshows
  | cons t ts =>
    obtain rfl : t.view = v := h
    exact fun hshows => hd hshows hshows

/-- **The contract of a process** that alone works on a disk: if the disk has the invariant and the
first property, it has the invariant after each step, and the last property for the result. -/
def Contract {α : Type} (I P : Disk → Prop) (x : StateM Script α) (Q : α → Disk → Prop) : Prop :=
  ∀ s, ∃ ts, (x s).2.turns = s.turns ++ ts ∧ s.view.LeadsTo ts (x s).2.view ∧
    ∀ d, I d → s.view.Shows d → P d →
      Disk.Endures I (fun d' => (x s).2.view.Shows d' → Q (x s).1 d') ts d

namespace Contract

variable {α β : Type} {I P P' : Disk → Prop} {x : StateM Script α} {Q Q' : α → Disk → Prop}
  {oracle : Oracle}

theorem pure {a : α} (h : ∀ d, I d → P d → Q a d) :
    Contract I P (Pure.pure a : StateM Script α) Q :=
  fun _ => ⟨[], (List.append_nil _).symm, rfl, fun d hI _ hP _ => h d hI hP⟩

/-- What is seen is on the disk. -/
theorem get : Contract I P (MonadState.get : StateM Script Script) fun s d =>
    s.view.Shows d ∧ P d :=
  fun _ => ⟨[], (List.append_nil _).symm, rfl, fun _ _ _ hP hshows => ⟨hshows, hP⟩⟩

/-- One contract after the other. -/
theorem bind {f : α → StateM Script β} {R : β → Disk → Prop} (hx : Contract I P x Q)
    (hf : ∀ a, Contract I (Q a) (f a) R) : Contract I P (x >>= f) R := by
  intro s
  obtain ⟨ts, hturns, hleads, hts⟩ := hx s
  obtain ⟨ts', hturns', hleads', hts'⟩ := hf (x s).1 (x s).2
  refine ⟨ts ++ ts', ?_, hleads.append hleads', fun d hI hshows hP => ?_⟩
  · change (f (x s).1 (x s).2).2.turns = _
    rw [hturns', hturns, List.append_assoc]
  · refine Disk.endures_append.mpr ((hts d hI hshows hP).mono hI fun d' hI' hQ => ?_)
    exact hleads'.endures fun hshows' => hts' d' hI' hshows' (hQ hshows')

theorem mono (h : Contract I P x Q) (hP : ∀ d, I d → P' d → P d)
    (hQ : ∀ a d, I d → Q a d → Q' a d) : Contract I P' x Q' := by
  intro s
  obtain ⟨ts, hturns, hleads, hts⟩ := h s
  refine ⟨ts, hturns, hleads, fun d hI hshows hP' => ?_⟩
  refine (hts d hI hshows (hP d hI hP')).mono hI fun d' hI' hQ' hshows' => ?_
  exact hQ _ d' hI' (hQ' hshows')

/-- A contract for more than what is asked for in the beginning. -/
theorem weaken (h : Contract I P x Q) (hP : ∀ d, I d → P' d → P d) : Contract I P' x Q :=
  h.mono hP fun _ _ _ hQ => hQ

/-- What does not depend on the disk stays as it is. -/
theorem keep {φ : Prop} (h : Contract I P x Q) :
    Contract I (fun d => φ ∧ P d) x fun a d => φ ∧ Q a d := by
  intro s
  obtain ⟨ts, hturns, hleads, hts⟩ := h s
  refine ⟨ts, hturns, hleads, fun d hI hshows hP => ?_⟩
  exact (hts d hI hshows hP.2).mono hI fun d' _ hQ hshows' => ⟨hP.1, hQ hshows'⟩

/-- A single step. -/
theorem deed {deed : Deed} {Q : deed.Answer → Disk → Prop} (hlocal : deed.isLocal = true)
    (h : ∀ d answer d', I d → P d → deed.Does d answer d' → I d' ∧ Q answer d') :
    Contract I P (Script.take oracle deed) Q := by
  intro s
  refine ⟨[_], rfl, rfl, fun d hI _ hP _ => ⟨hlocal, fun d' hdoes => ?_⟩⟩
  obtain ⟨hI', hQ⟩ := h d _ d' hI hP hdoes
  exact ⟨hI', fun _ => hQ⟩

section Primitive

variable {path source target : Path} {content : Bytes}

theorem write {Q : Bool → Disk → Prop} (h : ∀ d, I d → P d →
    (I (AList.insert path.steps content d) ∧ Q true (AList.insert path.steps content d)) ∧
      Q false d) : Contract I P ((Script.host oracle).write path content) Q :=
  deed rfl fun d _ _ hI hP hdoes => by
    cases hdoes with
    | written => exact (h d hI hP).1
    | notWritten => exact ⟨hI, (h d hI hP).2⟩

theorem replace {Q : Option Path → Disk → Prop} (h : ∀ d, I d → P d →
    (I (AList.insert path.steps content d) ∧ Q none (AList.insert path.steps content d)) ∧
      ∀ blamed, Q (some blamed) d) : Contract I P ((Script.host oracle).replace path content) Q :=
  deed rfl fun d _ _ hI hP hdoes => by
    cases hdoes with
    | replaced => exact (h d hI hP).1
    | notReplaced => exact ⟨hI, (h d hI hP).2 _⟩

theorem copy {Q : Bool → Disk → Prop} (h : ∀ d, I d → P d →
    (∀ held, d.read source = some held →
      I (AList.insert target.steps held d) ∧ Q true (AList.insert target.steps held d)) ∧
      Q false d) : Contract I P ((Script.host oracle).copy source target) Q :=
  deed rfl fun d _ _ hI hP hdoes => by
    cases hdoes with
    | copied held => exact (h d hI hP).1 _ held
    | notCopied => exact ⟨hI, (h d hI hP).2⟩

theorem remove {Q : Bool → Disk → Prop} (h : ∀ d, I d → P d →
    (I (AList.erase path.steps d) ∧ Q true (AList.erase path.steps d)) ∧ Q false d) :
    Contract I P ((Script.host oracle).remove path) Q :=
  deed rfl fun d _ _ hI hP hdoes => by
    cases hdoes with
    | removed => exact (h d hI hP).1
    | notRemoved => exact ⟨hI, (h d hI hP).2⟩

theorem cancelled : Contract I P (Script.host oracle).cancelled fun _ => P :=
  deed rfl fun d _ _ hI hP hdoes => by
    cases hdoes
    exact ⟨hI, hP⟩

theorem run (command : Command) (timeoutMs : Nat) (heed : Bool) :
    Contract I P ((Script.host oracle).run command timeoutMs heed) fun _ => P :=
  deed rfl fun d _ _ hI hP hdoes => by
    cases hdoes
    exact ⟨hI, hP⟩

end Primitive

end Contract

end MutationTesting
