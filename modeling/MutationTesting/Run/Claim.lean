import MutationTesting.Failure
import MutationTesting.Host.Basic
import MutationTesting.Host.Path
/-!
# Claims on artifact directories

One session at a time works on a directory of artifacts. Its name stands in a file of the
directory while it does; the claim ends with the session, however that ends, and the file stays.
-/

namespace MutationTesting

/-- The name of the file that is claimed. -/
def claimFile : String := ".droidmut.lock"

variable {σ : Type} (host : Host σ)

/-- Claims a directory for a session. -/
def claimDirectory (dir : Path) (session : String) : StateM σ (Except Failure Nat) := do
  let path := Path.join dir claimFile.toList
  match ← host.claim path session with
  | .granted claim => pure (.ok claim)
  | .busy => pure (.error (.locked dir))
  | .unavailable => pure (.error (.io path))

end MutationTesting
