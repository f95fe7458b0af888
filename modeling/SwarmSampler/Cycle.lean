import SwarmSampler.Check
import SwarmSampler.Failure
import SwarmSampler.Summary

/-
One pass over the targets: which of the listed targets it checks, and how its
checks are counted. Targets that are not eligible are passed over, and of those
with one id only the first is checked.
-/

namespace SwarmSampler

/-- Published for every check whose sample was stored. -/
structure CheckReport where
  sampleId : String
  targetId : String
  url : String
  outcome : Outcome
  counts : PeerCounts
  attempts : UInt32
  reason : Option String
  metrics : MetricsReading
  timestamp : Stamp

def CheckReport.ofSample (target : MonitoringTarget) (metrics : MetricsReading)
    (stored : HealthSample) : CheckReport where
  sampleId := stored.id
  targetId := target.id
  url := target.url
  outcome := stored.outcome
  counts := stored.counts
  attempts := stored.attempts
  reason := stored.reason
  metrics := metrics
  timestamp := stored.timestamp

/-- How a started check ended. -/
inductive CheckResult
  | reported (report : CheckReport)
  | failed (failure : Failure)
  | crashed

/-- What a cycle has come to. -/
structure CycleSummary where
  selected : Nat
  ineligible : Nat
  ok : Nat
  noPeers : Nat
  errors : Nat
  storeFailures : Nat
  deriving DecidableEq, Repr

namespace CycleSummary

/-- A cycle that has checked nothing yet. -/
def start (selected ineligible : Nat) : CycleSummary := ⟨selected, ineligible, 0, 0, 0, 0⟩

def count (s : CycleSummary) : CheckResult → CycleSummary
  | .reported report =>
    match report.outcome with
    | .ok => { s with ok := s.ok + 1 }
    | .noPeers => { s with noPeers := s.noPeers + 1 }
    | .error => { s with errors := s.errors + 1 }
  | .failed _ => { s with storeFailures := s.storeFailures + 1 }
  | .crashed => { s with errors := s.errors + 1 }

def counted (s : CycleSummary) : Nat := s.ok + s.noPeers + s.errors + s.storeFailures

theorem counted_count (s : CycleSummary) (r : CheckResult) :
    (s.count r).counted = s.counted + 1 := by
  cases r with
  | reported report => cases h : report.outcome <;> simp only [count, counted, h] <;> omega
  | failed f => simp only [count, counted]; omega
  | crashed => simp only [count, counted]; omega

end CycleSummary

/-- The first target of each id. -/
def firstById : List MonitoringTarget → List MonitoringTarget
  | [] => []
  | t :: rest => t :: (firstById rest).filter fun u => u.id ≠ t.id

/-- The targets a cycle may check. -/
def eligibleOnce (targets : List MonitoringTarget) : List MonitoringTarget :=
  firstById (targets.filter (·.eligible))

def ineligibleCount (targets : List MonitoringTarget) : Nat := targets.countP (!·.eligible)

/-- The targets a cycle checks, of which a subset is drawn by shuffling. -/
def Selection.choose (shuffle : List MonitoringTarget → List MonitoringTarget)
    (eligible : List MonitoringTarget) : Selection → List MonitoringTarget
  | all => eligible
  | randomSubset size => (shuffle eligible).take size.toNat

end SwarmSampler
