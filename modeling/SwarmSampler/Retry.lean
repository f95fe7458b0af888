import SwarmSampler.Peers
import SwarmSampler.Sample

/-
How a check goes on after an attempt. A non-empty answer or a malformed magnet
settles it; otherwise it tries again while it may. Only a check whose attempts
all came back empty has found no peers, one that saw an error ends with it.
-/

namespace SwarmSampler

/-- How often and how long to try. -/
structure RetryPolicy where
  maxAttempts : UInt32
  backoff : Span
  queryTimeout : Span
  /-- The bound on one attempt, warm-up included. -/
  attemptDeadline : Span
  deriving DecidableEq

/-- Where a check stands between its waits. -/
inductive CheckState
  | querying (attempt : UInt32)
  | empty (attempt : UInt32) (error : Option QueryError)
  | success (attempt : UInt32) (counts : PeerCounts)
  | failed (attempt : UInt32) (reason : String) (outcome : Outcome)
  deriving DecidableEq

namespace CheckState

def terminal : CheckState → Bool
  | success _ _ => true
  | failed _ _ _ => true
  | _ => false

/-- Where an attempt's result leads. -/
def afterAttempt (attempt : UInt32) (result : QueryResult) : CheckState :=
  match result with
  | .ok counts => if 0 < counts.total then success attempt counts else empty attempt none
  | .error (.invalidMagnet detail) =>
    failed attempt (QueryError.invalidMagnet detail).message .error
  | .error e => empty attempt (some e)

/-- Where a check without peers goes: to another attempt, or to its end, which the most recent
error decides. -/
def afterEmpty (attempt : UInt32) (error : Option QueryError) (policy : RetryPolicy) : CheckState :=
  if attempt < policy.maxAttempts then querying (attempt + 1)
  else
    match error with
    | none => failed attempt ("no peers after " ++ toString attempt.toNat ++ " attempts") .noPeers
    | some e => failed attempt e.message .error

end CheckState

end SwarmSampler
