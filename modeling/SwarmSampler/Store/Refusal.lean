/-
Why a store cannot be opened at a path, in the words of the storage.
-/

namespace SwarmSampler.Store

/-- Why a store is not opened. -/
inductive Refusal
  /-- A zero byte in the path, after so many others. -/
  | nulByte (position : Nat)
  | foreignAuthority (authority : String)
  | unknownAccess (mode : String)
  | accessNotAllowed (mode : String)
  | unknownCache (mode : String)
  | unknownSystem (name : String)
  | cannotOpen (path : String)
  /-- A file the storage keeps beside the store's own cannot be opened. -/
  | cannotOpenBeside
  | ioFault
  | readOnly
  | notStore
  | malformed
  | unsupported
  deriving DecidableEq

def Refusal.message : Refusal → String
  | nulByte position => "nul byte found in provided data at position: " ++ toString position
  | foreignAuthority authority => "invalid uri authority: " ++ authority
  | unknownAccess mode => "no such access mode: " ++ mode
  | accessNotAllowed mode => "access mode not allowed: " ++ mode
  | unknownCache mode => "no such cache mode: " ++ mode
  | unknownSystem name => "no such vfs: " ++ name
  | cannotOpen path => "unable to open database file: " ++ path
  | cannotOpenBeside => "unable to open database file"
  | ioFault => "disk I/O error"
  | readOnly => "attempt to write a readonly database"
  | notStore => "file is not a database"
  | malformed => "database disk image is malformed"
  | unsupported => "unsupported file format"

/-- The first refusal of a list whose condition holds. -/
def firstRefusal? (checks : List (Bool × Refusal)) : Option Refusal :=
  (checks.find? (·.1)).map (·.2)

end SwarmSampler.Store
