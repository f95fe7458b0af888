import SwarmSampler.Proofs.Store.History

/-
Asking the reader about a target. One that is registered is told of from its samples;
of any other id the reader says that there is no such target.
-/

namespace SwarmSampler.MetricsReader

open Store

variable {s : Store} {targetId : String} {r : MetricsReader}

/-- What is said of an id that is not registered. -/
def absent (targetId : String) : Failure := ⟨.notFound, "target " ++ targetId⟩

theorem requireTarget_of_registered (h : Legible s) (hr : s.Registered targetId) :
    requireTarget s targetId = .ok () := by
  obtain ⟨t, ht⟩ := h.target? hr
  rw [requireTarget, ht]
  rfl

theorem requireTarget_of_not_registered (hr : ¬ s.Registered targetId) :
    requireTarget s targetId = .error (absent targetId) := by
  rw [requireTarget, target?_of_not_registered hr]
  rfl

theorem latestMetrics_of_registered (h : Legible s) (hr : s.Registered targetId) :
    r.latestMetrics s targetId = r.history s targetId := by
  rw [latestMetrics, requireTarget_of_registered h hr]
  rfl

theorem latestMetrics_of_not_registered (hr : ¬ s.Registered targetId) :
    r.latestMetrics s targetId = .error (absent targetId) := by
  rw [latestMetrics, requireTarget_of_not_registered hr]
  rfl

theorem recentSamples_of_registered (h : Legible s) (hr : s.Registered targetId) (n : UInt64) :
    MetricsReader.recentSamples s targetId n = s.recentSamples targetId n := by
  rw [MetricsReader.recentSamples, requireTarget_of_registered h hr]
  rfl

theorem recentSamples_of_not_registered (hr : ¬ s.Registered targetId) (n : UInt64) :
    MetricsReader.recentSamples s targetId n = .error (absent targetId) := by
  rw [MetricsReader.recentSamples, requireTarget_of_not_registered hr]
  rfl

/-- A reader looks at two samples at least. -/
theorem two_le_historyDepth (depth : UInt64) : 2 ≤ (ofDepth depth).historyDepth := by
  show 2 ≤ if depth < 2 then 2 else depth
  split
  · exact UInt64.le_refl 2
  · next h => exact UInt64.not_lt.1 h

theorem le_historyDepth (depth : UInt64) : depth ≤ (ofDepth depth).historyDepth := by
  show depth ≤ if depth < 2 then 2 else depth
  split
  · next h => exact UInt64.le_of_lt h
  · exact UInt64.le_refl depth

end SwarmSampler.MetricsReader
