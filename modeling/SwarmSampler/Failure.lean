/-
What can fail in the whole program, by kind. Only an unavailable store ends a
run; every other failure is counted or reported and the run goes on.
-/

namespace SwarmSampler

inductive FailureKind
  | config | store | storeWrite | storeUnavailable | io | notFound | internal
  deriving DecidableEq, Repr

def FailureKind.label : FailureKind → String
  | config => "CONFIG_INVALID: "
  | store => "STORE_FAILURE: "
  | storeWrite => "STORE_WRITE_FAILURE: "
  | storeUnavailable => "STORE_UNAVAILABLE: "
  | io => "IO_FAILURE: "
  | notFound => "NOT_FOUND: "
  | internal => "INTERNAL: "

structure Failure where
  kind : FailureKind
  detail : String
  deriving DecidableEq, Repr

def Failure.message (f : Failure) : String := f.kind.label ++ f.detail

/-- Whether a run ends with it. -/
def Failure.fatal (f : Failure) : Bool := f.kind == .storeUnavailable

end SwarmSampler
