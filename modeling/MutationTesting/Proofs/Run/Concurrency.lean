import Mathlib.Logic.Relation
import MutationTesting.Proofs.Run.Session
/-!
# Many sessions

Any number of mutation runs work on one disk, each step of each of them at any time. The claim on a
directory is a lock on a file of it, which goes with the process that has it: the file is opened,
and made if there is none; it is locked, unless another process has it locked; it is emptied, and
the name of the session is written into it. In the end the file is emptied again and closed.

A process may be refused or fail with any step, and may die at any time. What it sees was on the
disk at some time after its last step, each file and each directory at a time of its own.

## Main definitions

* `RunState`, `RunState.Step` — a process in the middle of a run, and what it does next
* `Sessions`, `Sessions.Step`, `Sessions.start`
* `Sessions.Alone` — steps of one process, undisturbed and without failures

## Main results

* `RunState.Step.fits` — a step keeps originals and claims in order
* `sessions_keep_originals`
-/

namespace MutationTesting

/-! ### A process -/

/-- What was done to the file of a claim that is asked for. -/
inductive ClaimProgress where
  | opened
  | locked
  | emptied

/-- What a process has to do with a claim, and on which file. -/
inductive Stage where
  | free
  | claiming (progress : ClaimProgress) (file : Location)
  | granted (file : Location) (claim : Nat)
  /-- The file was emptied again and is still locked. -/
  | leaving (file : Location)
  | dead

namespace Stage

/-- The file that the process has locked. -/
def locked? : Stage → Option Location
  | .claiming .locked file | .claiming .emptied file | .granted file _ | .leaving file => some file
  | .free | .claiming .opened _ | .dead => none

/-- The process is not busy with its claim. -/
def isSettled : Stage → Bool
  | .free | .granted _ _ => true
  | _ => false

end Stage

/-- What a process does. -/
inductive Move where
  | looked
  | opened
  | locked
  | refused
  | emptied
  | filled
  | failed
  | acted (t : Turn)
  | left
  | unlocked
  | died

/-- The process goes on as it wants to. -/
def Move.succeeds : Move → Bool
  | .failed | .died => false
  | _ => true

/-- A process in the middle of a run. -/
structure RunState where
  /-- The steps that it has yet to take. -/
  turns : List Turn
  /-- What it has seen since the last one. -/
  sight : View
  stage : Stage

/-- What a process can do on a disk on which the files are taken that others have locked. -/
inductive RunState.Step (d : Disk) (taken : Location → Prop) :
    RunState → Move → RunState → Disk → Prop
  | looked {turns : List Turn} {v v' : View} {stage : Stage} (alive : stage ≠ .dead)
      (updates : v'.Updates v d) : Step d taken ⟨turns, v, stage⟩ .looked ⟨turns, v', stage⟩ d
  | opened {turns : List Turn} {v : View} {path : Path} {text : String} {answer : ClaimResult} :
      Step d taken ⟨⟨v, .claim path text, answer⟩ :: turns, v, .free⟩ .opened
        ⟨⟨v, .claim path text, answer⟩ :: turns, v, .claiming .opened path.steps⟩
        (if path.steps ∈ d then d else AList.insert path.steps [] d)
  | notOpened {turns : List Turn} {v v' : View} {path : Path} {text : String}
      (shows : v'.Shows d) :
      Step d taken ⟨⟨v, .claim path text, .unavailable⟩ :: turns, v, .free⟩ .failed
        ⟨turns, v', .free⟩ d
  | locked {turns : List Turn} {v : View} {file : Location} (untaken : ¬ taken file) :
      Step d taken ⟨turns, v, .claiming .opened file⟩ .locked ⟨turns, v, .claiming .locked file⟩ d
  | refused {turns : List Turn} {v v' w : View} {path : Path} {text : String} {file : Location}
      (isTaken : taken file) (shows : v'.Shows d) :
      Step d taken ⟨⟨w, .claim path text, .busy⟩ :: turns, v, .claiming .opened file⟩ .refused
        ⟨turns, v', .free⟩ d
  | emptied {turns : List Turn} {v : View} {file : Location} :
      Step d taken ⟨turns, v, .claiming .locked file⟩ .emptied ⟨turns, v, .claiming .emptied file⟩
        (AList.insert file [] d)
  | filled {turns : List Turn} {v v' w : View} {path : Path} {text : String} {n : Nat}
      {file : Location} (shows : v'.Shows (AList.insert file (Utf8.encode text) d)) :
      Step d taken ⟨⟨w, .claim path text, .granted n⟩ :: turns, v, .claiming .emptied file⟩ .filled
        ⟨turns, v', .granted file n⟩ (AList.insert file (Utf8.encode text) d)
  /-- The file cannot be locked, emptied or written, and is closed. -/
  | failed {turns : List Turn} {v v' w : View} {path : Path} {text : String}
      {progress : ClaimProgress} {file : Location} (shows : v'.Shows d) :
      Step d taken ⟨⟨w, .claim path text, .unavailable⟩ :: turns, v, .claiming progress file⟩
        .failed ⟨turns, v', .free⟩ d
  | acted {turns : List Turn} {t : Turn} {v' : View} {stage : Stage} {d' : Disk}
      (settled : stage.isSettled = true) (does : t.deed.Does d t.answer d')
      (shows : v'.Shows d') :
      Step d taken ⟨t :: turns, t.view, stage⟩ (.acted t) ⟨turns, v', stage⟩ d'
  /-- The file is emptied again, if that is possible. -/
  | left {turns : List Turn} {v : View} {n : Nat} {file : Location} {d' : Disk}
      (emptied : d' = AList.insert file [] d ∨ d' = d) :
      Step d taken ⟨⟨v, .release n, ()⟩ :: turns, v, .granted file n⟩ .left
        ⟨⟨v, .release n, ()⟩ :: turns, v, .leaving file⟩ d'
  | unlocked {turns : List Turn} {t : Turn} {v v' : View} {file : Location}
      (shows : v'.Shows d) :
      Step d taken ⟨t :: turns, v, .leaving file⟩ .unlocked ⟨turns, v', .free⟩ d
  | died {turns : List Turn} {v : View} {stage : Stage} (alive : stage ≠ .dead) :
      Step d taken ⟨turns, v, stage⟩ .died ⟨turns, v, .dead⟩ d

/-! ### Many processes -/

/-- Processes that work on one disk. -/
structure Sessions (ι : Type) where
  disk : Disk
  states : ι → RunState

namespace Sessions

variable {ι : Type}

/-- The process has the file locked. -/
def Holds (s : Sessions ι) (p : ι) (file : Location) : Prop :=
  (s.states p).stage.locked? = some file

/-- The process was granted its claim and has not begun to give it up. -/
def HasClaim (s : Sessions ι) (p : ι) (file : Location) : Prop :=
  ∃ n, (s.states p).stage = .granted file n

/-- One process does something. -/
def Step [DecidableEq ι] (s : Sessions ι) (p : ι) (move : Move) (s' : Sessions ι) : Prop :=
  ∃ state' d', RunState.Step s.disk (fun file => ∃ q, s.Holds q file) (s.states p) move
    state' d' ∧ s' = ⟨d', Function.update s.states p state'⟩

/-- Steps lead from one state to another. -/
def Reaches [DecidableEq ι] : Sessions ι → Sessions ι → Prop :=
  Relation.ReflTransGen fun s s' => ∃ p move, s.Step p move s'

/-- Steps of one process lead from one state to another. No other process takes a step meanwhile,
and none of the steps fails. -/
def Alone [DecidableEq ι] (p : ι) : Sessions ι → Sessions ι → Prop :=
  Relation.ReflTransGen fun s s' => ∃ move, move.succeeds = true ∧ s.Step p move s'

end Sessions

/-- A mutation run that is about to begin, with the script that it will have followed. -/
structure Runner where
  request : CommandLine.RunRequest
  /-- The name of the session if the request gives none. -/
  name : String
  /-- What it has seen before its first step, true or not. -/
  first : View
  oracle : Oracle

namespace Runner

/-- The name of the session. -/
def session (r : Runner) : String := r.request.session.getD r.name

/-- The process of the run. -/
def initial (r : Runner) : RunState where
  turns :=
    (CommandLine.executeRun (Script.host r.oracle) r.name r.request ⟨r.first, []⟩).2.turns
  sight := r.first
  stage := .free

end Runner

/-- Runs that are about to begin on a disk. -/
def Sessions.start {ι : Type} (d : Disk) (runners : ι → Runner) : Sessions ι :=
  ⟨d, fun p => (runners p).initial⟩

/-! ### The order of things -/

/-- A process is where a session can be, with the disk as it is. -/
inductive RunState.Fits (originals : Location → Option Bytes) (dir : Path) (session : String)
    (d : Disk) : RunState → Prop
  | free {turns : List Turn} {v : View} (rest : IsSession dir session turns) :
      Fits originals dir session d ⟨turns, v, .free⟩
  | claiming {turns : List Turn} {v : View} {progress : ClaimProgress}
      (rest : IsSession dir session turns) (mem : claimLocation dir ∈ d) :
      Fits originals dir session d ⟨turns, v, .claiming progress (claimLocation dir)⟩
  | granted {turns body : List Turn} {v last : View} {n : Nat}
      (rest : turns = body ++ [⟨last, .release n, ()⟩])
      (guarded : d.Guarded originals dir session) (shows : v.Shows d)
      (endures : d.Endures (Disk.Guarded originals dir session) (fun _ => True) body) :
      Fits originals dir session d ⟨turns, v, .granted (claimLocation dir) n⟩
  | leaving {t : Turn} {v : View} (mem : claimLocation dir ∈ d) :
      Fits originals dir session d ⟨[t], v, .leaving (claimLocation dir)⟩
  | dead {turns : List Turn} {v : View} : Fits originals dir session d ⟨turns, v, .dead⟩

section

variable {originals : Location → Option Bytes} {dir : Path} {session : String} {d d' : Disk}
  {content : Bytes}

theorem Disk.mem_insert_self {place : Location} : place ∈ AList.insert place content d :=
  (AList.mem_insert d).mpr (.inl rfl)

/-- Nothing is kept in the file of a claim. -/
theorem Disk.Keeps.insert_claimLocation (h : d.Keeps originals dir) (content : Bytes) :
    Disk.Keeps originals dir (AList.insert (claimLocation dir) content d) :=
  h.idle (fun ha => ha.ne_claimLocation rfl) (fun hb => hb.ne_claimLocation rfl) content

/-- The file of a claim is there. -/
theorem Disk.Guarded.mem (h : d.Guarded originals dir session) : claimLocation dir ∈ d :=
  AList.lookup_isSome.mp (by rw [h.claimed]; rfl)

/-- A session begins with its claim, and is over if that is not granted. -/
theorem IsSession.of_claim {view : View} {path : Path} {text : String} {answer : ClaimResult}
    {turns : List Turn} (h : IsSession dir session (⟨view, .claim path text, answer⟩ :: turns)) :
    path.steps = claimLocation dir ∧ ((∀ n, answer ≠ .granted n) → turns = []) := by
  cases h with
  | refused isClaimed isRefused => exact ⟨isClaimed, fun _ => rfl⟩
  | granted isClaimed endures => exact ⟨isClaimed, fun h => absurd rfl (h _)⟩

theorem IsSession.isLocal_head {t : Turn} {turns : List Turn}
    (h : IsSession dir session (t :: turns)) : t.deed.isLocal = false := by
  cases h <;> rfl

theorem Deed.Does.isLocal {deed : Deed} {answer : deed.Answer} (h : deed.Does d answer d') :
    deed.isLocal = true := by
  cases h <;> rfl

end

namespace RunState

variable {originals : Location → Option Bytes} {dir : Path} {session : String} {d d' : Disk}
  {taken : Location → Prop} {state state' : RunState} {move : Move}

/-- Only a process that has its claim does anything else, and what it does is in order. -/
theorem Fits.act {t : Turn} {turns : List Turn} {stage : Stage}
    (hfits : Fits originals dir session d ⟨t :: turns, t.view, stage⟩)
    (settled : stage.isSettled = true) (does : t.deed.Does d t.answer d') :
    (∃ n, stage = .granted (claimLocation dir) n) ∧ d'.Guarded originals dir session ∧
      ∀ v, v.Shows d' → Fits originals dir session d' ⟨turns, v, stage⟩ := by
  cases hfits with
  | free rest =>
    have hlocal := does.isLocal
    rw [rest.isLocal_head] at hlocal
    cases hlocal
  | claiming rest mem => cases settled
  | @granted _ body _ last n rest guarded hshows endures =>
    cases body with
    | nil =>
      obtain ⟨rfl, -⟩ := List.cons.inj rest
      cases does
    | cons t body =>
      obtain ⟨rfl, rfl⟩ := List.cons.inj rest
      obtain ⟨hguarded, hendures⟩ := (endures hshows).2 _ does
      exact ⟨⟨n, rfl⟩, hguarded, fun v shows => .granted rfl hguarded shows hendures⟩
  | leaving mem => cases settled
  | dead => cases settled

/-- **A step keeps originals**, and the process stays where a session can be. -/
theorem Step.fits (h : Step d taken state move state' d') (hkeeps : d.Keeps originals dir)
    (hfits : state.Fits originals dir session d) :
    d'.Keeps originals dir ∧ state'.Fits originals dir session d' := by
  cases h with
  | looked alive updates =>
    refine ⟨hkeeps, ?_⟩
    cases hfits with
    | free rest => exact .free rest
    | claiming rest mem => exact .claiming rest mem
    | granted rest guarded shows endures =>
      exact .granted rest guarded (shows.update updates) endures
    | leaving mem => exact .leaving mem
    | dead => exact absurd rfl alive
  | opened =>
    cases hfits with
    | free rest =>
      rw [rest.of_claim.1]
      split
      · next hmem => exact ⟨hkeeps, .claiming rest hmem⟩
      · exact ⟨hkeeps.insert_claimLocation [], .claiming rest Disk.mem_insert_self⟩
  | notOpened shows =>
    cases hfits with
    | free rest =>
      rw [rest.of_claim.2 nofun]
      exact ⟨hkeeps, .free .idle⟩
  | locked untaken =>
    cases hfits with
    | claiming rest mem =>
      exact ⟨hkeeps, .claiming rest mem⟩
  | refused isTaken shows =>
    cases hfits with
    | claiming rest mem =>
      rw [rest.of_claim.2 nofun]
      exact ⟨hkeeps, .free .idle⟩
  | emptied =>
    cases hfits with
    | claiming rest mem =>
      exact ⟨hkeeps.insert_claimLocation [], .claiming rest Disk.mem_insert_self⟩
  | filled shows =>
    cases hfits with
    | claiming rest mem =>
      cases rest with
      | refused isClaimed isRefused => exact absurd rfl (isRefused _)
      | granted isClaimed endures =>
        have hguarded := Disk.Guarded.mk (hkeeps.insert_claimLocation (Utf8.encode session))
          (AList.lookup_insert d)
        exact ⟨hguarded.keeps, .granted rfl hguarded shows (endures originals _ hguarded)⟩
  | failed shows =>
    cases hfits with
    | claiming rest mem =>
      rw [rest.of_claim.2 nofun]
      exact ⟨hkeeps, .free .idle⟩
  | acted settled does shows =>
    obtain ⟨-, hguarded, hfits⟩ := hfits.act settled does
    exact ⟨hguarded.keeps, hfits _ shows⟩
  | left emptied =>
    cases hfits with
    | @granted _ body _ last n rest guarded hshows endures =>
      cases body with
      | nil =>
        obtain ⟨-, rfl⟩ := List.cons.inj rest
        obtain rfl | rfl := emptied
        · exact ⟨hkeeps.insert_claimLocation [], .leaving (Disk.mem_insert_self)⟩
        · exact ⟨hkeeps, .leaving guarded.mem⟩
      | cons t body =>
        obtain ⟨rfl, rfl⟩ := List.cons.inj rest
        cases (endures hshows).1
  | unlocked shows =>
    cases hfits with
    | leaving mem => exact ⟨hkeeps, .free .idle⟩
  | died alive => exact ⟨hkeeps, .dead⟩

/-- The file of the claim stays, and only the process that has it locked changes the disk once it
is there. -/
theorem Step.frame (h : Step d taken state move state' d')
    (hfits : state.Fits originals dir session d) (hmem : claimLocation dir ∈ d) :
    claimLocation dir ∈ d' ∧ (d' = d ∨ state.stage.locked? = some (claimLocation dir)) := by
  cases h with
  | opened =>
    cases hfits with
    | free rest =>
      rw [rest.of_claim.1, if_pos hmem]
      exact ⟨hmem, .inl rfl⟩
  | emptied =>
    cases hfits with
    | claiming rest mem =>
      exact ⟨Disk.mem_insert_self, .inr rfl⟩
  | filled shows =>
    cases hfits with
    | claiming rest mem =>
      exact ⟨Disk.mem_insert_self, .inr rfl⟩
  | acted settled does shows =>
    obtain ⟨⟨n, rfl⟩, hguarded, -⟩ := hfits.act settled does
    exact ⟨hguarded.mem, .inr rfl⟩
  | left emptied =>
    cases hfits with
    | granted rest guarded shows endures =>
      obtain rfl | rfl := emptied
      · exact ⟨Disk.mem_insert_self, .inr rfl⟩
      · exact ⟨hmem, .inl rfl⟩
  | _ => exact ⟨hmem, .inl rfl⟩

/-- Nothing changes for a process that has no part in a step. -/
theorem Fits.of_disk (h : state.Fits originals dir session d)
    (hmem : claimLocation dir ∈ d → claimLocation dir ∈ d')
    (hdisk : claimLocation dir ∈ d → state.stage.locked? = some (claimLocation dir) → d' = d) :
    state.Fits originals dir session d' := by
  cases h with
  | free rest => exact .free rest
  | claiming rest mem => exact .claiming rest (hmem mem)
  | granted rest guarded shows endures =>
    obtain rfl := hdisk guarded.mem rfl
    exact .granted rest guarded shows endures
  | leaving mem => exact .leaving (hmem mem)
  | dead => exact .dead

/-- A file that a process has locked after a step was locked by it before or by nobody. -/
theorem Step.locked?_cases (h : Step d taken state move state' d') {file : Location}
    (hlocked : state'.stage.locked? = some file) :
    state.stage.locked? = some file ∨ ¬ taken file := by
  cases h with
  | locked untaken =>
    obtain rfl := Option.some.inj hlocked
    exact .inr untaken
  | _ => first | exact .inl hlocked | cases hlocked

/-- Who opens a file or is refused it has nothing locked and changes no content. -/
theorem Step.of_opened_or_refused (h : Step d taken state move state' d')
    (hmove : move = .opened ∨ move = .refused) :
    state.stage.locked? = none ∧ state'.stage.locked? = none ∧
      ∀ place content, d.lookup place = some content → d'.lookup place = some content := by
  cases h with
  | @opened _ _ path =>
    refine ⟨rfl, rfl, fun place content hplace => ?_⟩
    split
    · exact hplace
    · next hmem =>
      refine (AList.lookup_insert_ne ?_).trans hplace
      rintro rfl
      exact hmem (AList.lookup_isSome.mp (by rw [hplace]; rfl))
  | refused isTaken shows => exact ⟨rfl, rfl, fun place content hplace => hplace⟩
  | _ => obtain hmove | hmove := hmove <;> cases hmove

/-- A process that has its claim has the name of its session in the file. -/
theorem Fits.guarded (h : state.Fits originals dir session d) {file : Location} {n : Nat}
    (hstage : state.stage = .granted file n) : d.Guarded originals dir session := by
  cases h with
  | granted rest guarded shows endures => exact guarded
  | _ => cases hstage

end RunState

/-! ### All processes -/

namespace Sessions

variable {ι : Type} {originals : Location → Option Bytes} {dir : Path} {names : ι → String}
  {s s' : Sessions ι} {p : ι} {move : Move}

/-- The originals can be had back, at most one process has a file locked, and each is where its
session can be. -/
structure IsSound (originals : Location → Option Bytes) (dir : Path) (names : ι → String)
    (s : Sessions ι) : Prop where
  keeps : s.disk.Keeps originals dir
  alone : ∀ p q file, s.Holds p file → s.Holds q file → p = q
  fits : ∀ p, (s.states p).Fits originals dir (names p) s.disk

variable [DecidableEq ι]

/-- A file that is locked after a step was locked by the same process before, or by nobody. -/
theorem Step.holds_cases (h : s.Step p move s') {q : ι} {file : Location}
    (hq : s'.Holds q file) : s.Holds q file ∨ q = p ∧ ∀ q', ¬ s.Holds q' file := by
  obtain ⟨state', d', hmove, rfl⟩ := h
  by_cases hqp : q = p
  · subst hqp
    simp only [Holds, Function.update_self] at hq
    obtain hbefore | hfree := hmove.locked?_cases hq
    · exact .inl hbefore
    · exact .inr ⟨rfl, fun q' hq' => hfree ⟨q', hq'⟩⟩
  · simp only [Holds, Function.update_of_ne hqp] at hq
    exact .inl hq

/-- **A step leaves everything in order.** -/
theorem IsSound.step (h : s.IsSound originals dir names) (hstep : s.Step p move s') :
    s'.IsSound originals dir names := by
  have halone : ∀ q q' file, s'.Holds q file → s'.Holds q' file → q = q' := by
    intro q q' file hq hq'
    obtain hq | ⟨rfl, hfree⟩ := hstep.holds_cases hq <;>
      obtain hq' | ⟨rfl, hfree'⟩ := hstep.holds_cases hq'
    · exact h.alone q q' file hq hq'
    · exact absurd hq (hfree' q)
    · exact absurd hq' (hfree q')
    · rfl
  obtain ⟨state', d', hmove, rfl⟩ := hstep
  obtain ⟨hkeeps, hfits⟩ := hmove.fits h.keeps (h.fits p)
  refine ⟨hkeeps, halone, fun q => ?_⟩
  -- a process that takes no part has nothing to lose: with its claim it is the only one that writes
  by_cases hqp : q = p
  · subst hqp
    simpa only [Function.update_self] using hfits
  · simp only [Function.update_of_ne hqp]
    refine (h.fits q).of_disk (fun hmem => (hmove.frame (h.fits p) hmem).1) fun hmem hlocked => ?_
    obtain hdisk | hp := (hmove.frame (h.fits p) hmem).2
    · exact hdisk
    · exact absurd (h.alone q p _ hlocked hp) hqp

/-- Who opens a file or is refused it changes no lock and no content. -/
theorem Step.of_opened_or_refused (h : s.Step p move s')
    (hmove : move = .opened ∨ move = .refused) :
    (∀ q file, s'.Holds q file ↔ s.Holds q file) ∧
      ∀ place content, s.disk.lookup place = some content →
        s'.disk.lookup place = some content := by
  obtain ⟨state', d', hstep, rfl⟩ := h
  obtain ⟨hbefore, hafter, hcontent⟩ := hstep.of_opened_or_refused hmove
  refine ⟨fun q file => ?_, hcontent⟩
  by_cases hqp : q = p
  · subst hqp
    simp only [Holds, Function.update_self, hbefore, hafter]
  · simp only [Holds, Function.update_of_ne hqp]

/-- What is more than a look is done under the claim. -/
theorem IsSound.hasClaim_of_acted (h : s.IsSound originals dir names) {t : Turn}
    (hstep : s.Step p (.acted t) s') :
    s.HasClaim p (claimLocation dir) ∧ ∀ q, q ≠ p → ¬ s.Holds q (claimLocation dir) := by
  obtain ⟨state', d', hstep, rfl⟩ := hstep
  have hfits := h.fits p
  generalize hstate : s.states p = state at hstep hfits
  cases hstep with
  | acted settled does shows =>
    obtain ⟨⟨n, rfl⟩, -, -⟩ := hfits.act settled does
    have hholds : s.Holds p (claimLocation dir) := by
      rw [Holds, hstate]
      rfl
    exact ⟨⟨n, by rw [hstate]⟩, fun q hq hq' => hq (h.alone q p _ hq' hholds)⟩

/-- What is saved in the backup of an artifact is its original. -/
theorem IsSound.original_of_write (h : s.IsSound originals dir names) {view : View} {path : Path}
    {content : Bytes} (hstep : s.Step p (.acted ⟨view, .write path content, true⟩) s')
    {a : Location} (ha : a.IsArtifact dir) (hpath : path.steps = a.backup) :
    originals a = some content := by
  have hkeeps := (h.step hstep).keeps
  obtain ⟨state', d', hstep, rfl⟩ := hstep
  generalize s.states p = state at hstep
  cases hstep with
  | acted settled does shows =>
    cases does
    refine hkeeps.original_of_backup ha ?_
    rw [hpath, AList.lookup_insert]

/-- **Runs that begin without backups** leave everything in order with every step. -/
theorem isSound_of_reaches {d : Disk} {runners : ι → Runner}
    (hdir : ∀ p, (runners p).request.device.classesDir.steps = dir.steps)
    (hbackups : ∀ leaf ∈ d.leaves dir, artifactOfBackup? leaf = none)
    (hs : (start d runners).Reaches s) :
    s.IsSound (d.lookup ·) dir fun p => (runners p).session := by
  induction hs with
  | refl =>
    refine ⟨Disk.keeps_lookup fun place hplace => Disk.not_isBackup_of_leaves hbackups hplace,
      ?_, fun p => .free ((isSession_executeRun _ _ _ _).of_steps (hdir p))⟩
    intro p q file hp
    cases hp
  | tail _ hstep ih =>
    obtain ⟨p, move, hstep⟩ := hstep
    exact ih.step hstep

end Sessions

/-- **Sessions keep the originals.** Any number of runs work on one directory of classes that has no
backups in the beginning; each takes its steps at any time, is refused or fails with any of them, or
dies. At most one live run has the file of the claim locked. While a run has its claim, the file
holds the name of its session, whatever was in it. Every artifact holds its original, or its backup
does. Who opens the file of the claim or is refused it changes no content and no lock. Whatever else
a run does, it does while it has its claim and nobody else has the file locked, and what it saves in
a backup is the original. -/
theorem sessions_keep_originals {ι : Type} [DecidableEq ι] {dir : Path} {d : Disk}
    {runners : ι → Runner} (hdir : ∀ p, (runners p).request.device.classesDir.steps = dir.steps)
    (hbackups : ∀ leaf ∈ d.leaves dir, artifactOfBackup? leaf = none) {s : Sessions ι}
    (hs : (Sessions.start d runners).Reaches s) :
    (∀ p q, s.Holds p (claimLocation dir) → s.Holds q (claimLocation dir) → p = q) ∧
    (∀ p, s.HasClaim p (claimLocation dir) →
      s.disk.lookup (claimLocation dir) = some (Utf8.encode (runners p).session)) ∧
    (∀ a o, a.IsArtifact dir → d.lookup a = some o →
      s.disk.lookup a.backup = some o ∨
        s.disk.lookup a.backup = none ∧ s.disk.lookup a = some o) ∧
    ∀ p move s', s.Step p move s' →
      (move = .opened ∨ move = .refused → (∀ q file, s'.Holds q file ↔ s.Holds q file) ∧
        ∀ place content, s.disk.lookup place = some content →
          s'.disk.lookup place = some content) ∧
      (∀ t, move = .acted t → s.HasClaim p (claimLocation dir) ∧
        ∀ q, q ≠ p → ¬ s.Holds q (claimLocation dir)) ∧
      ∀ view path content a, move = .acted ⟨view, .write path content, true⟩ →
        a.IsArtifact dir → path.steps = a.backup → d.lookup a = some content := by
  have hsound := Sessions.isSound_of_reaches hdir hbackups hs
  refine ⟨fun p q => hsound.alone p q _, fun p hp => ?_, hsound.keeps.original,
    fun p move s' hstep => ⟨hstep.of_opened_or_refused, ?_, ?_⟩⟩
  · obtain ⟨n, hn⟩ := hp
    exact ((hsound.fits p).guarded hn).claimed
  · rintro t rfl
    exact hsound.hasClaim_of_acted hstep
  · rintro view path content a rfl ha hpath
    exact hsound.original_of_write hstep ha hpath

/-! ### Two sessions -/

/-- Everything that can be seen of a disk. -/
def Disk.view (d : Disk) : View where
  read := d.read
  isDirectory _ := true
  filesBelow dir := some (d.leaves dir)
  leavesBelow := d.leaves
  now := 0

theorem Disk.shows_view (d : Disk) : d.view.Shows d :=
  ⟨fun _ _ => id, fun _ _ h _ hpath => Option.some.inj h ▸ hpath, fun _ _ => Iff.rfl⟩

/-- A script in which a claim is answered as given and everything else fails. -/
def Oracle.failing (answer : ClaimResult) (v : View) : Oracle := fun _ deed =>
  match deed with
  | .claim _ _ => (answer, v)
  | .release _ => ((), v)
  | .write _ _ | .copy _ _ | .remove _ | .ask => (false, v)
  | .replace path _ => (some path, v)
  | .start _ _ _ => (none, v)

namespace Sessions

variable {ι : Type} [DecidableEq ι] {s : Sessions ι} {p : ι}

/-- What one process does is a step of all of them. -/
theorem exists_step {move : Move} {state state' : RunState} {d' : Disk}
    (hstate : s.states p = state)
    (h : RunState.Step s.disk (fun file => ∃ q, s.Holds q file) state move state' d') :
    ∃ s', s.Step p move s' ∧ s'.disk = d' ∧ s'.states p = state' ∧
      ∀ q, q ≠ p → s'.states q = s.states q :=
  ⟨_, ⟨state', d', hstate ▸ h, rfl⟩, rfl, Function.update_self ..,
    fun _ hq => Function.update_of_ne hq ..⟩

theorem Alone.reaches {s' : Sessions ι} (h : s.Alone p s') : s.Reaches s' :=
  Relation.ReflTransGen.mono (fun _ _ ⟨move, _, hstep⟩ => ⟨p, move, hstep⟩) _ _ h

/-- A claim can be granted if nobody has its file locked. -/
theorem exists_granted {turns : List Turn} {v : View} {path : Path} {text : String} {n : Nat}
    (hstate : s.states p = ⟨⟨v, .claim path text, .granted n⟩ :: turns, v, .free⟩)
    (huntaken : ∀ q, ¬ s.Holds q path.steps) :
    ∃ s', s.Alone p s' ∧ s'.states p = ⟨turns, s'.disk.view, .granted path.steps n⟩ ∧
      ∀ q, q ≠ p → s'.states q = s.states q := by
  obtain ⟨s₁, hstep₁, -, hp₁, hq₁⟩ := exists_step hstate .opened
  have huntaken₁ : ¬ ∃ q, s₁.Holds q path.steps := by
    rintro ⟨q, hq⟩
    by_cases hqp : q = p
    · rw [Holds, hqp, hp₁] at hq
      cases hq
    · rw [Holds, hq₁ q hqp] at hq
      exact huntaken q hq
  obtain ⟨s₂, hstep₂, -, hp₂, hq₂⟩ := exists_step hp₁ (.locked huntaken₁)
  obtain ⟨s₃, hstep₃, -, hp₃, hq₃⟩ := exists_step hp₂ .emptied
  obtain ⟨s₄, hstep₄, hdisk₄, hp₄, hq₄⟩ := exists_step hp₃ (.filled (Disk.shows_view _))
  refine ⟨s₄, ?_, by rw [hp₄, hdisk₄], fun q hq => ?_⟩
  · exact .tail (.tail (.tail (.tail .refl ⟨_, rfl, hstep₁⟩) ⟨_, rfl, hstep₂⟩)
      ⟨_, rfl, hstep₃⟩) ⟨_, rfl, hstep₄⟩
  · rw [hq₄ q hq, hq₃ q hq, hq₂ q hq, hq₁ q hq]

/-- A claim can be refused if somebody else has its file locked. -/
theorem exists_refused {turns : List Turn} {v : View} {path : Path} {text : String}
    (hstate : s.states p = ⟨⟨v, .claim path text, .busy⟩ :: turns, v, .free⟩)
    (htaken : ∃ q, s.Holds q path.steps) :
    ∃ s', s.Alone p s' ∧ s'.states p = ⟨turns, s'.disk.view, .free⟩ := by
  obtain ⟨s₁, hstep₁, -, hp₁, hq₁⟩ := exists_step hstate .opened
  have htaken₁ : ∃ q, s₁.Holds q path.steps := by
    obtain ⟨q, hq⟩ := htaken
    have hqp : q ≠ p := by
      rintro rfl
      rw [Holds, hstate] at hq
      cases hq
    exact ⟨q, by rwa [Holds, hq₁ q hqp]⟩
  obtain ⟨s₂, hstep₂, hdisk₂, hp₂, -⟩ := exists_step hp₁ (.refused htaken₁ (Disk.shows_view _))
  exact ⟨s₂, .tail (.tail .refl ⟨_, rfl, hstep₁⟩) ⟨_, rfl, hstep₂⟩, by rw [hp₂, hdisk₂]⟩

end Sessions

/-- A run has its claim on a directory with one artifact, in which the file of a claim was left, and
another run is refused. -/
theorem second_session_is_refused :
    let dir : Path := "classes".toList
    let artifact : Location := dir.steps ++ [.name "A.class".toList]
    let d : Disk := AList.insert artifact [1, 2] (AList.insert (claimLocation dir) [7, 7, 7] ∅)
    let request : CommandLine.RunRequest := ⟨⟨dir, "a.test", "a", "Runner", [], "bridge"⟩,
      "tests".toList, [], none, ⟨none, 1000⟩, false, false, none⟩
    let runners : Bool → Runner := fun p => ⟨request, if p then "one" else "two", d.view,
      .failing (if p then .granted 0 else .busy) d.view⟩
    (∀ p, (runners p).request.device.classesDir.steps = dir.steps) ∧
      (∀ leaf ∈ d.leaves dir, artifactOfBackup? leaf = none) ∧
      ∃ s s', (Sessions.start d runners).Reaches s ∧ s.Step false .refused s' ∧
        s.HasClaim true (claimLocation dir) ∧
        s.disk.lookup (claimLocation dir) = some (Utf8.encode "one") ∧
        s'.disk.lookup (claimLocation dir) = some (Utf8.encode "one") ∧
        ∀ p, s'.Holds p (claimLocation dir) → p = true := by
  intro dir artifact d request runners
  have hbackups : ∀ leaf ∈ d.leaves dir, artifactOfBackup? leaf = none := by decide
  have hdir : ∀ p, (runners p).request.device.classesDir.steps = dir.steps := fun _ => rfl
  refine ⟨hdir, hbackups, ?_⟩
  have hstate : ∀ p, ∃ rest, (runners p).initial =
      ⟨⟨d.view, .claim (Path.join dir claimFile.toList) (if p then "one" else "two"),
        if p then .granted 0 else .busy⟩ :: rest, d.view, .free⟩ := by
    intro p
    obtain ⟨rest, hrest⟩ := exists_claim_executeRun (runners p).oracle (runners p).name request
      d.view rfl
    exact ⟨rest, by rw [Runner.initial, hrest]; rfl⟩
  obtain ⟨rest, hone⟩ := hstate true
  obtain ⟨rest', htwo⟩ := hstate false
  obtain ⟨s₁, hreach, hone₁, htwo₁⟩ :=
    Sessions.exists_granted (s := Sessions.start d runners) hone fun q hq => by cases hq
  obtain ⟨s₂, hopened, -, htwo₂, hone₂⟩ :=
    Sessions.exists_step ((htwo₁ false (by decide)).trans htwo) .opened
  have hone₂ := (hone₂ true (by decide)).trans hone₁
  rw [steps_claimPath] at hone₂
  have hholds : s₂.Holds true (claimLocation dir) := by
    rw [Sessions.Holds, hone₂]
    rfl
  have htaken : ∃ q, s₂.Holds q (Path.join dir claimFile.toList).steps :=
    ⟨true, by rwa [steps_claimPath]⟩
  obtain ⟨s₃, hrefused, -⟩ := Sessions.exists_step htwo₂ (.refused htaken (Disk.shows_view _))
  have hreach₂ : (Sessions.start d runners).Reaches s₂ :=
    hreach.reaches.tail ⟨false, _, hopened⟩
  obtain ⟨halone, hname, -, hsteps⟩ :=
    sessions_keep_originals hdir hbackups hreach₂
  obtain ⟨hholders, hcontent⟩ := (hsteps false _ s₃ hrefused).1 (.inr rfl)
  have hclaim : s₂.HasClaim true (claimLocation dir) := ⟨0, by rw [hone₂]⟩
  refine ⟨s₂, s₃, hreach₂, hrefused, hclaim, hname true hclaim,
    hcontent _ _ (hname true hclaim), fun p hp => ?_⟩
  exact halone p true ((hholders p _).mp hp) hholds

end MutationTesting
