import SwarmSampler.Failure
import SwarmSampler.Store.Cell
import SwarmSampler.Target
import SwarmSampler.Time.Stamp.Text
import SwarmSampler.Trend

/-
The store: a table of targets and an append-only table of samples. A target is
registered once and kept as it came; a sample is appended with a time that is
later than all times of its target, together with the marks of the check in
its target's row, or not at all.
-/

namespace SwarmSampler

/-- A row of the table of targets. Any cell may have been set to anything by another program. -/
structure TargetRow where
  id : Cell
  url : Cell
  license : Cell
  magnet : Cell
  eligible : Cell
  source : Cell
  firstSeenAt : Cell
  lastCheckedAt : Cell
  checkCount : Cell

def TargetRow.isOf (r : TargetRow) (targetId : String) : Bool :=
  match r.id with
  | .text id => id = targetId
  | _ => false

/-- The row of a checked target with the marks of the check. -/
def TargetRow.marked (r : TargetRow) (checkedAt : Stamp) : TargetRow :=
  { r with lastCheckedAt := .text checkedAt.storedText, checkCount := r.checkCount.increment }

/-- A row of the table of samples, with the trend that was stored along. -/
structure SampleRow where
  id : String
  targetId : String
  millis : Int
  seeders : Int
  leechers : Int
  totalPeers : Int
  outcome : String
  attempts : Int
  reason : Option String
  growth : Option Float
  shrink : Option Float
  score : Option Float
  considered : Option UInt32

/-- Both tables, each in the order its rows came. -/
structure Store where
  targets : List TargetRow
  samples : List SampleRow

namespace Store

def empty : Store := ⟨[], []⟩

/-- A broken rule of the tables. -/
inductive Violation
  | negativeSeeders
  | negativeLeechers
  | wrongTotal
  | unknownOutcome
  | sameInstant
  | sameId
  | unknownTarget
  | missingValue (column : String)
  | sameTargetId
  | appendOnly
  | noTable (name : String)
  deriving DecidableEq

def Violation.message : Violation → String
  | negativeSeeders => "CHECK constraint failed: seeders >= 0"
  | negativeLeechers => "CHECK constraint failed: leechers >= 0"
  | wrongTotal => "CHECK constraint failed: total_peers = seeders + leechers"
  | unknownOutcome => "CHECK constraint failed: outcome IN ('ok', 'no_peers', 'error')"
  | sameInstant => "UNIQUE constraint failed: samples.target_id, samples.ts_ms"
  | sameId => "UNIQUE constraint failed: samples.id"
  | unknownTarget => "FOREIGN KEY constraint failed"
  | missingValue column => "NOT NULL constraint failed: targets." ++ column
  | sameTargetId => "UNIQUE constraint failed: targets.id"
  | appendOnly => "samples are append-only"
  | noTable name => "no such table: " ++ name

/-- The rules a sample's own values keep. -/
def checkViolation? (r : SampleRow) : Option Violation :=
  if r.seeders < 0 then some .negativeSeeders
  else if r.leechers < 0 then some .negativeLeechers
  else if r.totalPeers ≠ r.seeders + r.leechers then some .wrongTotal
  else if (Outcome.ofText? r.outcome).isNone then some .unknownOutcome
  else none

/-- The rules a sample keeps beside the other rows. -/
def keyViolation? (s : Store) (r : SampleRow) : Option Violation :=
  if s.samples.any fun o => o.targetId = r.targetId ∧ o.millis = r.millis then some .sameInstant
  else if s.samples.any fun o => o.id = r.id then some .sameId
  else if s.targets.any fun t => t.isOf r.targetId then none
  else some .unknownTarget

/-- Adds a row to the samples unless a rule is broken; `checked` says whether the row's own
values are looked at. -/
def insertSample (s : Store) (r : SampleRow) (checked : Bool) : Except Violation Store :=
  match (if checked then checkViolation? r else none).or (s.keyViolation? r) with
  | some v => .error v
  | none => .ok { s with samples := s.samples ++ [r] }

/-- Runs a body as a whole: its changes stay only if it succeeds. -/
def transaction {α : Type} (body : Store → Except Failure (α × Store)) (s : Store) :
    Except Failure α × Store :=
  match body s with
  | .ok (x, s') => (.ok x, s')
  | .error e => (.error e, s)

def newRow (now : Stamp) (source : String) (t : MonitoringTarget) : TargetRow where
  id := .text t.id
  url := .text t.url
  license := .text t.license
  magnet := .text t.magnet
  eligible := .integer (if t.eligible then 1 else 0)
  source := .text source
  firstSeenAt := .text now.storedText
  lastCheckedAt := .null
  checkCount := .integer 0

/-- Registers one target unless its id is there already. -/
def registerOne (now : Stamp) (source : String) (acc : Nat × Store) (t : MonitoringTarget) :
    Nat × Store :=
  if acc.2.targets.any fun r => r.isOf t.id then acc
  else (acc.1 + 1, { acc.2 with targets := acc.2.targets ++ [newRow now source t] })

/-- Registers targets at one instant. Answers how many were new. -/
def register (now : Stamp) (source : String) (targets : List MonitoringTarget) (s : Store) :
    Except Failure Nat × Store :=
  s.transaction fun s => .ok (targets.foldl (registerOne now source) (0, s))

/-- How many records were newly registered and how many were passed over. -/
structure IngestSummary where
  accepted : Nat
  skipped : Nat
  deriving DecidableEq

/-- Registers the eligible ones of some records. -/
def ingest (now : Stamp) (source : String) (records : List TargetRecord) (s : Store) :
    Except Failure IngestSummary × Store :=
  let eligible := (records.map MonitoringTarget.ofRecord).filter (·.eligible)
  let (result, s') := register now source eligible s
  (result.map fun n => ⟨n, records.length - eligible.length⟩, s')

def latestMillis? (s : Store) (targetId : String) : Option Int :=
  ((s.samples.filter (·.targetId = targetId)).map (·.millis)).max?

/-- A sum in 64 bits, which starts over beyond the greatest number. -/
def wrap (n : Int) : Int :=
  (n + 9_223_372_036_854_775_808) % 18_446_744_073_709_551_616 - 9_223_372_036_854_775_808

/-- The time a sample is stored at: as requested, or just after the target's latest. -/
def effectiveMillis (latest : Option Int) (requested : Int) : Int :=
  match latest with
  | some last => if requested ≤ last then wrap (last + 1) else requested
  | none => requested

/-- A real as a cell keeps it, which has no place for what is no number. -/
def realCell (x : Float) : Option Float := if x.isNaN then none else some x

def sampleRow (sample : HealthSample) (millis : Int) (metrics : Option MetricsSnapshot) :
    SampleRow where
  id := sample.id
  targetId := sample.targetId
  millis := millis
  seeders := sample.seeders.toNat
  leechers := sample.leechers.toNat
  totalPeers := sample.totalPeers.toNat
  outcome := sample.outcome.text
  attempts := sample.attempts.toNat
  reason := sample.reason
  growth := metrics.bind fun m => realCell m.growth
  shrink := metrics.bind fun m => realCell m.shrink
  score := metrics.bind fun m => realCell m.score
  considered := metrics.map (·.samplesConsidered)

def markChecked (s : Store) (targetId : String) (checkedAt : Stamp) : Store :=
  { s with targets := s.targets.map fun r =>
      if r.isOf targetId then r.marked checkedAt else r }

def appendBody (sample : HealthSample) (metrics : Option MetricsSnapshot) (s : Store) :
    Except Failure (HealthSample × Store) :=
  let millis := effectiveMillis (s.latestMillis? sample.targetId) sample.timestamp.toMillis
  match Stamp.ofMillis? millis with
  | none => .error ⟨.internal, "timestamp " ++ toString millis ++ " out of range"⟩
  | some timestamp =>
    match s.insertSample (sampleRow sample millis metrics) true with
    | .error v => .error ⟨.store, v.message⟩
    | .ok s =>
      if s.targets.any fun r => r.isOf sample.targetId then
        .ok ({ sample with timestamp := timestamp }, s.markChecked sample.targetId timestamp)
      else .error ⟨.notFound, "target " ++ sample.targetId ++ " is not registered"⟩

/-- Appends a sample. Answers it as stored, with the time it was given. -/
def append (sample : HealthSample) (metrics : Option MetricsSnapshot) (s : Store) :
    Except Failure HealthSample × Store :=
  s.transaction (appendBody sample metrics)

end Store

end SwarmSampler
