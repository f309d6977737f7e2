import MutationTesting.Failure
import MutationTesting.Host.Basic
import MutationTesting.Host.Path
/-!
# Guards over artifacts

A mutant takes the place of an artifact while it is tested. Before that the bytes of the artifact
are saved in a backup beside it; putting them back removes the backup. A backup that is found later
was left by a run that did not come to its end.

## Main definitions

* `ArtifactGuard`, `ArtifactGuard.install`, `ArtifactGuard.restore`, `ArtifactGuard.drop`
* `interruptedRuns`, `restoreFromBackup`
-/

namespace MutationTesting

/-- The end of the name of a backup. -/
def backupSuffix : String := ".droidmut.bak"

/-- The path of the backup of an artifact. It is named by the text of the artifact's name, also
where the name itself is none. -/
def backupPath (artifact : Path) : Path :=
  let name := ((Path.fileName? artifact).getD []).text
  Path.withFileName artifact (Octets.ofString ("." ++ name ++ backupSuffix))

/-- The name of the artifact to which a backup of the given name belongs. -/
def artifactName? (backup : Octets) : Option Octets :=
  match backup with
  | '.' :: name =>
    if backup.text?.isSome && backupSuffix.toList.isSuffixOf name then
      some (name.take (name.length - backupSuffix.toList.length))
    else none
  | _ => none

/-- The artifact to which a backup belongs. -/
def artifactOfBackup? (backup : Path) : Option Path :=
  ((Path.fileName? backup).bind artifactName?).map (Path.withFileName backup)

/-- An artifact with a mutant in its place. -/
structure ArtifactGuard where
  path : Path
  backup : Path
  /-- What the artifact held before. -/
  saved : Bytes
  deriving DecidableEq

namespace ArtifactGuard

variable {σ : Type} (host : Host σ)

/-- Puts the saved bytes back and removes the backup, if the first succeeds. -/
def putBack (g : ArtifactGuard) : StateM σ (Except Failure Unit) := do
  match ← host.replace g.path g.saved with
  | some path => pure (.error (.io path))
  | none =>
    let _ ← host.remove g.backup
    pure (.ok ())

/-- Gives up a guard; the saved bytes are put back if that is possible. -/
def drop (g : ArtifactGuard) : StateM σ Unit := do
  let _ ← g.putBack host
  pure ()

/-- Puts the saved bytes back and says if it could not; a second attempt is made in that case. -/
def restore (g : ArtifactGuard) : StateM σ (Except Failure Unit) := do
  match ← g.putBack host with
  | .ok () => pure (.ok ())
  | .error e =>
    g.drop host
    pure (.error e)

/-- Puts a mutant in the place of an artifact. If that fails, the saved bytes are put back. -/
def install (path : Path) (mutant : Bytes) : StateM σ (Except Failure ArtifactGuard) := do
  match host.read (← get) path with
  | none => pure (.error (.io path))
  | some saved =>
    let g : ArtifactGuard := ⟨path, backupPath path, saved⟩
    if ← host.write g.backup saved then
      match ← host.replace path mutant with
      | none => pure (.ok g)
      | some failed =>
        g.drop host
        pure (.error (.io failed))
    else pure (.error (.io g.backup))

end ArtifactGuard

variable {σ : Type} (host : Host σ)

/-- The order of pairs of paths. -/
def pairLe (a b : Path × Path) : Bool :=
  ((Path.compareSteps (Path.components a.1) (Path.components b.1)).then
    (Path.compareSteps (Path.components a.2) (Path.components b.2))).isLE

/-- The artifacts below a directory that have a backup, with it, in order. -/
def interruptedRuns (s : σ) (dir : Path) : List (Path × Path) :=
  ((host.leavesBelow s dir).filterMap fun path =>
    (artifactOfBackup? path).map (·, path)).mergeSort pairLe

/-- Puts back an artifact from its backup. -/
def restoreFromBackup (artifact backup : Path) : StateM σ (Except Failure Unit) := do
  if ← host.copy backup artifact then
    if ← host.remove backup then pure (.ok ()) else pure (.error (.io backup))
  else pure (.error (.io artifact))

end MutationTesting
