import SwarmSampler.Target
import SwarmSampler.Trend

/-
What a reader of the store is shown of a target, and how a cycle chooses among
the eligible ones.
-/

namespace SwarmSampler

/-- A target with its latest sample and its trend. -/
structure TargetSummary where
  target : MonitoringTarget
  source : String
  firstSeenAt : Stamp
  lastCheckedAt : Option Stamp
  checkCount : UInt32
  latestSample : Option HealthSample
  latestMetrics : Option MetricsSnapshot

/-- Which of the eligible targets a cycle checks. -/
inductive Selection
  | all
  | randomSubset (size : UInt64)
  deriving DecidableEq, Repr

end SwarmSampler
