import SwarmSampler.Peers
import SwarmSampler.Time.Stamp

/-
One row of a target's history: when it was checked, what the check found and
how many attempts it took.
-/

namespace SwarmSampler

/-- How a check ended. -/
inductive Outcome
  | ok | noPeers | error
  deriving DecidableEq, Repr

namespace Outcome

def text : Outcome → String
  | ok => "ok"
  | noPeers => "no_peers"
  | error => "error"

def ofText? (raw : String) : Option Outcome :=
  if raw = "ok" then some ok
  else if raw = "no_peers" then some noPeers
  else if raw = "error" then some error
  else none

theorem ofText?_text (o : Outcome) : ofText? o.text = some o := by cases o <;> decide

end Outcome

/-- A sample of a swarm's health. -/
structure HealthSample where
  id : String
  targetId : String
  timestamp : Stamp
  seeders : UInt32
  leechers : UInt32
  totalPeers : UInt32
  outcome : Outcome
  attempts : UInt32
  reason : Option String
  deriving DecidableEq

namespace HealthSample

/-- A sample whose total is that of its counts. -/
def ofCounts (id targetId : String) (timestamp : Stamp) (counts : PeerCounts) (outcome : Outcome)
    (attempts : UInt32) (reason : Option String) : HealthSample :=
  ⟨id, targetId, timestamp, counts.seeders, counts.leechers, counts.total, outcome, attempts, reason⟩

def counts (s : HealthSample) : PeerCounts := ⟨s.seeders, s.leechers⟩

end HealthSample

end SwarmSampler
