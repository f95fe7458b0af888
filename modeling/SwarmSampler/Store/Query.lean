import SwarmSampler.Store
import SwarmSampler.Summary

/-
Reading the store. Rows are picked and ordered first and then read cell by
cell in a fixed order, so that of several unreadable cells the first in that
order is reported. Cells are told apart by their place and name in the query.
-/

namespace SwarmSampler.Store

inductive ReadFault
  | wrongKind (kind : String) (index : Nat) (name : String)
  | outOfRange (value : Int) (index : Nat)
  | unknownOutcome (raw : String) (index : Nat)
  | badInstant (index : Nat)
  | badTime (fault : Stamp.Fault)
  deriving DecidableEq

def ReadFault.message : ReadFault → String
  | wrongKind kind index name =>
    "Invalid column type " ++ kind ++ " at index: " ++ toString index ++ ", name: " ++ name
  | outOfRange value index =>
    "Integer " ++ toString value ++ " out of range at index " ++ toString index
  | unknownOutcome raw index =>
    "Conversion error from type Text at index: " ++ toString index ++ ", unknown outcome '" ++
      raw ++ "'"
  | badInstant index =>
    "Conversion error from type Integer at index: " ++ toString index ++
      ", timestamp out of range"
  | badTime fault => "Conversion error from type Text at index: 0, " ++ fault.message

def ReadFault.failure (f : ReadFault) : Failure := ⟨.store, f.message⟩

abbrev Read (α : Type) := Except ReadFault α

def readText (c : Cell) (index : Nat) (name : String) : Read String :=
  match c with
  | .text s => .ok s
  | c => .error (.wrongKind c.kindName index name)

def readInteger (c : Cell) (index : Nat) (name : String) : Read Int :=
  match c with
  | .integer n => .ok n
  | c => .error (.wrongKind c.kindName index name)

def countOf (n : Int) (index : Nat) : Read UInt32 :=
  if 0 ≤ n ∧ n < 4_294_967_296 then .ok (UInt32.ofNat n.toNat) else .error (.outOfRange n index)

def timeOf (raw : String) : Read Stamp :=
  match Stamp.read raw with
  | .ok s => .ok s
  | .error f => .error (.badTime f)

/-- A target from the first five cells of its row. -/
def readTarget (r : TargetRow) : Read MonitoringTarget := do
  let id ← readText r.id 0 "id"
  let url ← readText r.url 1 "url"
  let license ← readText r.license 2 "license"
  let magnet ← readText r.magnet 3 "magnet"
  let eligible ← readInteger r.eligible 4 "eligible"
  return ⟨id, url, license, magnet, eligible != 0⟩

/-- A sample from the cells of its row, which stand from `offset` on. -/
def readSample (offset : Nat) (r : SampleRow) : Read HealthSample := do
  let outcome ←
    match Outcome.ofText? r.outcome with
    | some o => .ok o
    | none => .error (.unknownOutcome r.outcome (offset + 6))
  let timestamp ←
    match Stamp.ofMillis? r.millis with
    | some s => .ok s
    | none => .error (.badInstant (offset + 2))
  let seeders ← countOf r.seeders (offset + 3)
  let leechers ← countOf r.leechers (offset + 4)
  let total ← countOf r.totalPeers (offset + 5)
  let attempts ← countOf r.attempts (offset + 7)
  return ⟨r.id, r.targetId, timestamp, seeders, leechers, total, outcome, attempts, r.reason⟩

/-- The trend stored along with a sample, if all of it is there. -/
def storedMetrics (r : SampleRow) : Option MetricsSnapshot := do
  let growth ← r.growth
  let shrink ← r.shrink
  let score ← r.score
  let considered ← r.considered
  return ⟨growth, shrink, score, considered⟩

/-- The first rows up to a limit, which is none when it has no place among the numbers of a
cell. -/
def limited {α : Type} (limit : Option UInt64) (rows : List α) : List α :=
  match limit with
  | some n => if n.toNat < 9_223_372_036_854_775_808 then rows.take n.toNat else rows
  | none => rows

def newestFirst (s : Store) (targetId : String) : List SampleRow :=
  (s.samples.filter (·.targetId = targetId)).mergeSort fun a b => b.millis ≤ a.millis

def newestOk (s : Store) (targetId : String) : List SampleRow :=
  (s.samples.filter fun r => r.targetId = targetId ∧ r.outcome = Outcome.ok.text).mergeSort
    fun a b => b.millis ≤ a.millis

/-- The reading of rows as a result of the program. -/
def report {α : Type} (r : Read α) : Except Failure α := r.mapError ReadFault.failure

/-- Whether a row is due before another: never checked ones first, then the longest unchecked,
and of equal ones the one registered later. -/
def dueBefore (a b : TargetRow) : Bool :=
  a.lastCheckedAt.before b.lastCheckedAt ||
    (!b.lastCheckedAt.before a.lastCheckedAt && !a.firstSeenAt.before b.firstSeenAt)

def markedEligible (r : TargetRow) : Bool :=
  match r.eligible with
  | .integer n => n == 1
  | _ => false

/-- The rows of eligible targets, the most due first. -/
def dueRows (s : Store) : List TargetRow := (s.targets.filter markedEligible).mergeSort dueBefore

/-- The eligible targets up to a limit, the most due first. -/
def eligibleTargets (s : Store) (limit : Option UInt64) : Except Failure (List MonitoringTarget) :=
  report ((limited limit s.dueRows).mapM readTarget)

def target? (s : Store) (targetId : String) : Except Failure (Option MonitoringTarget) :=
  match s.targets.find? (·.isOf targetId) with
  | some r => (report (readTarget r)).map some
  | none => .ok none

/-- The newest samples of a target, the newest first. -/
def recentSamples (s : Store) (targetId : String) (n : UInt64) :
    Except Failure (List HealthSample) :=
  report ((limited (some n) (s.newestFirst targetId)).mapM (readSample 0))

/-- The newest ok samples of a target, the oldest first. -/
def lastOkSamples (s : Store) (targetId : String) (n : UInt64) :
    Except Failure (List HealthSample) :=
  (report ((limited (some n) (s.newestOk targetId)).mapM (readSample 0))).map List.reverse

def countSamples (s : Store) (targetId : String) : UInt32 :=
  UInt32.ofNat (s.samples.filter (·.targetId = targetId)).length

/-- The trend stored along with the newest ok sample. -/
def persistedMetrics (s : Store) (targetId : String) : Option MetricsSnapshot :=
  (s.newestOk targetId).head?.bind storedMetrics

def readLatest (latest : Option SampleRow) : Read (Option HealthSample) :=
  match latest with
  | some row => (readSample 9 row).map some
  | none => .ok none

def readTime? (c : Cell) (index : Nat) (name : String) : Read (Option Stamp) :=
  match c with
  | .null => .ok none
  | c => do
    let raw ← readText c index name
    (timeOf raw).map some

/-- A target's summary from its row and its newest sample. -/
def readSummary (r : TargetRow) (latest : Option SampleRow) : Read TargetSummary := do
  let target ← readTarget r
  let sample ← readLatest latest
  let source ← readText r.source 5 "source"
  let firstSeenAt ← timeOf (← readText r.firstSeenAt 6 "first_seen_at")
  let lastCheckedAt ← readTime? r.lastCheckedAt 7 "last_checked_at"
  let checkCount ← countOf (← readInteger r.checkCount 8 "check_count") 8
  return ⟨target, source, firstSeenAt, lastCheckedAt, checkCount, sample,
    latest.bind storedMetrics⟩

/-- Whether a row was registered before another, or at the same time with an id no greater. -/
def seenBefore (a b : TargetRow) : Bool :=
  a.firstSeenAt.before b.firstSeenAt ||
    (!b.firstSeenAt.before a.firstSeenAt && !b.id.before a.id)

def newestOf? (s : Store) (r : TargetRow) : Option SampleRow :=
  match r.id with
  | .text id => (s.newestFirst id).head?
  | _ => none

/-- The summaries of all targets in the order they were registered. -/
def summaries (s : Store) : Except Failure (List TargetSummary) :=
  report ((s.targets.mergeSort seenBefore).mapM fun r => readSummary r (s.newestOf? r))

end SwarmSampler.Store
