import SwarmSampler.Failure
import SwarmSampler.Files

/-
Starting the log in a directory. The directory is made first. The process can
have one log only and has one already, so starting another never succeeds.
-/

namespace SwarmSampler.Logging

/-- Why a second log cannot be started. -/
def alreadyStarted : Failure :=
  ⟨.internal, "tracing init failed: a global default trace dispatcher has already been set"⟩

def start (files : Files) (dir : List Char) : Except Failure Unit × Files :=
  match files.makeDirectory dir with
  | .ok files => (.error alreadyStarted, files)
  | .error fault => (.error ⟨.io, fault.message⟩, files)

end SwarmSampler.Logging
