import SwarmSampler.Json.Value
import SwarmSampler.Summary
import SwarmSampler.Time.Stamp.Text

/-
Writing the records of the program as JSON values, each under the names it is
read by. How a machine number is written is left open.
-/

namespace SwarmSampler.Exchange

def ofCount (n : UInt32) : Json := .int n.toNat

def ofStamp (s : Stamp) : Json := .text s.text

def ofTargetRecord (r : TargetRecord) : Json :=
  .record [("url", .text r.url), ("license", .text r.license), ("magnet", .text r.magnet)]

def ofMonitoringTarget (t : MonitoringTarget) : Json :=
  .record [("id", .text t.id), ("url", .text t.url), ("license", .text t.license),
    ("magnet", .text t.magnet), ("eligible", .bool t.eligible)]

def ofOutcome (o : Outcome) : Json := .text o.text

def ofPeerCounts (c : PeerCounts) : Json :=
  .record [("seeders", ofCount c.seeders), ("leechers", ofCount c.leechers)]

def ofHealthSample (s : HealthSample) : Json :=
  .record [("id", .text s.id), ("targetId", .text s.targetId), ("timestamp", ofStamp s.timestamp),
    ("seeders", ofCount s.seeders), ("leechers", ofCount s.leechers),
    ("totalPeers", ofCount s.totalPeers), ("outcome", ofOutcome s.outcome),
    ("attempts", ofCount s.attempts), ("reason", .optional .text s.reason)]

def snapshotFields {α : Type} (number : α → Json) (s : Snapshot α) : List (String × Json) :=
  [("growthPct", number s.growth), ("shrinkPct", number s.shrink),
   ("explodingScore", number s.score), ("samplesConsidered", ofCount s.samplesConsidered)]

def ofSnapshot {α : Type} (number : α → Json) (s : Snapshot α) : Json :=
  .record (snapshotFields number s)

/-- A trend under its tag, or the number of samples there were. -/
def ofReading {α : Type} (number : α → Json) : Reading α → Json
  | .ready s => .record (("status", .text "ready") :: snapshotFields number s)
  | .insufficient n =>
    .record [("status", .text "insufficient"), ("samples_available", ofCount n)]

def ofTargetSummary (number : Float → Json) (s : TargetSummary) : Json :=
  .record [("target", ofMonitoringTarget s.target), ("source", .text s.source),
    ("firstSeenAt", ofStamp s.firstSeenAt), ("lastCheckedAt", .optional ofStamp s.lastCheckedAt),
    ("checkCount", ofCount s.checkCount), ("latestSample", .optional ofHealthSample s.latestSample),
    ("latestMetrics", .optional (ofSnapshot number) s.latestMetrics)]

def ofSelection : Selection → Json
  | .all => .record [("kind", .text "all")]
  | .randomSubset size => .record [("kind", .text "random_subset"), ("size", .int size.toNat)]

end SwarmSampler.Exchange
