import Mathlib.Logic.Function.Basic
import MutationTesting.Host.Basic
/-!
# A host that is watched

A host on which files do what they are told while everything outside the run is left open: what
processes answer, when the run is asked to stop, what can be read and where a new file may be put.
The outside may answer otherwise each time, and processes see the files. Each step that the run
takes is noted with the files as they are after it, so that a property of the whole run is a
property of the notes.

Only the steps that a mutation run takes do anything; there are no directories and no claims.

## Main definitions

* `Files`, `Event`, `Snapshot`, `World`
* `Outside`, `Outside.host`
* `World.Idles`, `IsIdle` — steps that touch no file
-/

namespace MutationTesting

/-! ### Files -/

/-- What files hold, none where there is no file. -/
abbrev Files := Path → Option Bytes

/-! ### Notes -/

/-- A step that was taken. -/
inductive Event where
  /-- It was found out whether the run is asked to stop. -/
  | asked
  /-- A command was started, or could not be; it is given up when the run is asked to stop if it
  heeds that. -/
  | started (command : Command) (heeds : Bool)
  | wrote (path : Path)
  /-- A new file was put in the place of another. -/
  | replaced (path : Path)
  | removed (path : Path)
  deriving DecidableEq

/-- The step leaves the files as they are. -/
def Event.isIdle : Event → Bool
  | .asked | .started _ _ => true
  | .wrote _ | .replaced _ | .removed _ => false

/-- A step with the files after it. -/
structure Snapshot where
  event : Event
  files : Files

/-- The state of a watched host. -/
structure World (ε : Type) where
  outside : ε
  files : Files
  /-- The steps so far, in order. -/
  log : List Snapshot

namespace World

variable {ε : Type}

/-- The world after a step that left the files alone. -/
def noted (w : World ε) (event : Event) : World ε :=
  { w with log := w.log ++ [⟨event, w.files⟩] }

/-- The world after a path got a content by a step. -/
def put (w : World ε) (path : Path) (content : Option Bytes) (event : Event) : World ε :=
  { w with files := Function.update w.files path content }.noted event

@[simp] theorem files_noted (w : World ε) (event : Event) : (w.noted event).files = w.files := rfl

@[simp] theorem log_noted (w : World ε) (event : Event) :
    (w.noted event).log = w.log ++ [⟨event, w.files⟩] := rfl

@[simp] theorem files_put (w : World ε) (path : Path) (content : Option Bytes) (event : Event) :
    (w.put path content event).files = Function.update w.files path content := rfl

@[simp] theorem log_put (w : World ε) (path : Path) (content : Option Bytes) (event : Event) :
    (w.put path content event).log = w.log ++ [⟨event, Function.update w.files path content⟩] := rfl

end World

/-! ### The host -/

/-- What is outside the run. -/
structure Outside (ε : Type) where
  now : ε → Nat
  /-- The file can be read, if there is one. -/
  readable : ε → Path → Bool
  /-- The file can be written in place. -/
  writable : Path → StateM ε Bool
  /-- The run is asked to stop. -/
  cancelled : StateM ε Bool
  /-- What becomes of a command that is started while the files are as given. -/
  run : Files → Command → Nat → Bool → StateM ε (Option ProcessOutput)

namespace Outside

variable {ε : Type}

/-- The watched host. A file that cannot be written in place is not touched. -/
def host (E : Outside ε) : Host (World ε) where
  read w path := if E.readable w.outside path then w.files path else none
  isDirectory _ _ := false
  filesBelow _ _ := none
  leavesBelow _ _ := []
  now w := E.now w.outside
  write path bytes := fun w =>
    let (granted, outside) := E.writable path w.outside
    if granted then (true, { w with outside }.put path (some bytes) (.wrote path))
    else (false, { w with outside })
  replace path bytes := fun w => (none, w.put path (some bytes) (.replaced path))
  copy _ _ := pure false
  remove path := fun w => (true, w.put path none (.removed path))
  claim _ _ := pure .unavailable
  release _ := pure ()
  cancelled := fun w =>
    let (answer, outside) := E.cancelled w.outside
    (answer, { w with outside }.noted .asked)
  run command timeoutMs heed := fun w =>
    let (output, outside) := E.run w.files command timeoutMs heed w.outside
    (output, { w with outside }.noted (.started command heed))

/-- What is read is what the file holds. -/
theorem files_of_read (E : Outside ε) {path : Path} {bytes : Bytes} {w : World ε}
    (h : E.host.read w path = some bytes) : w.files path = some bytes := by
  simp only [host] at h
  split at h
  · exact h
  · cases h

/-- A file is written, or it is not touched. -/
theorem write_cases (E : Outside ε) (path : Path) (bytes : Bytes) (w : World ε) :
    (∃ outside, E.host.write path bytes w = (false, { w with outside })) ∨
      ∃ outside, E.host.write path bytes w =
        (true, { w with outside }.put path (some bytes) (.wrote path)) := by
  rcases hanswer : E.writable path w.outside with ⟨granted, outside⟩
  simp only [host, hanswer]
  cases granted with
  | false => exact .inl ⟨outside, rfl⟩
  | true => exact .inr ⟨outside, rfl⟩

end Outside

/-- Steps after others, which are known. -/
theorem bind_of_eq {σ α β : Type} {x : StateM σ α} {f : α → StateM σ β} {s s' : σ} {a : α}
    (h : x s = (a, s')) : (x >>= f) s = f a s' := by
  change f (x s).1 (x s).2 = f a s'
  rw [h]

/-- Steps that look at the state first. -/
theorem get_bind {σ α : Type} (f : σ → StateM σ α) (s : σ) : (get >>= f) s = f s s := rfl

/-! ### Idle steps -/

section Idle

variable {ε α β : Type}

/-- Between two worlds no file was touched. -/
structure World.Idles (w w' : World ε) : Prop where
  files : w'.files = w.files
  log : ∃ idle, w'.log = w.log ++ idle ∧ ∀ s ∈ idle, s.files = w.files ∧ s.event.isIdle = true

theorem World.Idles.refl (w : World ε) : w.Idles w := ⟨rfl, [], by simp, by simp⟩

theorem World.Idles.trans {w w₁ w₂ : World ε} (h : w.Idles w₁) (h' : w₁.Idles w₂) : w.Idles w₂ := by
  obtain ⟨hfiles, idle, hlog, hidle⟩ := h
  obtain ⟨hfiles', idle', hlog', hidle'⟩ := h'
  refine ⟨hfiles'.trans hfiles, idle ++ idle', by rw [hlog', hlog, List.append_assoc], ?_⟩
  intro s hs
  obtain hs | hs := List.mem_append.mp hs
  · exact hidle s hs
  · exact hfiles ▸ hidle' s hs

theorem World.idles_noted (w : World ε) (outside : ε) {event : Event} (h : event.isIdle = true) :
    w.Idles ({ w with outside }.noted event) :=
  ⟨rfl, [⟨event, w.files⟩], rfl, by simp [h]⟩

/-- Steps that touch no file, wherever they are taken. -/
def IsIdle (x : StateM (World ε) α) : Prop := ∀ w : World ε, w.Idles (x w).2

theorem isIdle_pure (a : α) : IsIdle (pure a : StateM (World ε) α) := fun w => .refl w

theorem IsIdle.bind {x : StateM (World ε) α} {f : α → StateM (World ε) β} (hx : IsIdle x)
    (hf : ∀ a, IsIdle (f a)) : IsIdle (x >>= f) :=
  fun w => (hx w).trans (hf (x w).1 (x w).2)

theorem isIdle_cancelled (E : Outside ε) : IsIdle E.host.cancelled :=
  fun w => w.idles_noted _ rfl

theorem isIdle_run (E : Outside ε) (command : Command) (timeoutMs : Nat) (heed : Bool) :
    IsIdle (E.host.run command timeoutMs heed) :=
  fun w => w.idles_noted _ rfl

end Idle

end MutationTesting
