import SwarmSampler.Store.Query

/-
Where a cycle's targets come from: a list held in memory, or the store, which
serves the most due of its eligible targets. A catalog may list targets that
are not eligible; the cycle passes over them.
-/

namespace SwarmSampler

/-- A source of targets. -/
inductive Catalog
  | fixed (targets : List MonitoringTarget)
  | stored (batch : Option UInt64)

namespace Catalog

def ofRecords (records : List TargetRecord) : Catalog :=
  .fixed (records.map MonitoringTarget.ofRecord)

/-- The name targets are registered under. -/
def sourceName : Catalog → String
  | fixed _ => "static"
  | stored _ => "store"

def targets (c : Catalog) (s : Store) : Except Failure (List MonitoringTarget) :=
  match c with
  | fixed targets => .ok targets
  | stored batch => s.eligibleTargets batch

end Catalog

end SwarmSampler
