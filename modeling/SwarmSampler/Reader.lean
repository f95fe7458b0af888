import SwarmSampler.Store.Query

/-
The read side for dashboards: trends computed on demand from the stored ok
samples, at least two of them. Only registered targets can be asked about.
-/

namespace SwarmSampler

/-- A reader that looks at so many ok samples. -/
structure MetricsReader where
  historyDepth : UInt64

namespace MetricsReader

/-- A reader of some depth, two at least. -/
def ofDepth (depth : UInt64) : MetricsReader := ⟨if depth < 2 then 2 else depth⟩

/-- Fails for an id that is not registered. -/
def requireTarget (s : Store) (targetId : String) : Except Failure Unit := do
  match ← s.target? targetId with
  | some _ => return ()
  | none => throw ⟨.notFound, "target " ++ targetId⟩

/-- The trend of a target's history, registered or not. -/
def history (r : MetricsReader) (s : Store) (targetId : String) : Except Failure MetricsReading :=
  (s.lastOkSamples targetId r.historyDepth).map (Reading.ofSamples peerConfidence)

def latestMetrics (r : MetricsReader) (s : Store) (targetId : String) :
    Except Failure MetricsReading := do
  requireTarget s targetId
  r.history s targetId

def withTrend (r : MetricsReader) (s : Store) (summary : TargetSummary) :
    Except Failure TargetSummary := do
  let reading ← r.history s summary.target.id
  return { summary with latestMetrics := reading.snapshot? }

/-- All targets with their latest samples and current trends. -/
def listTargets (r : MetricsReader) (s : Store) : Except Failure (List TargetSummary) := do
  (← s.summaries).mapM (r.withTrend s)

/-- The newest samples of a target, the newest first. -/
def recentSamples (s : Store) (targetId : String) (n : UInt64) :
    Except Failure (List HealthSample) := do
  requireTarget s targetId
  s.recentSamples targetId n

end MetricsReader

end SwarmSampler
