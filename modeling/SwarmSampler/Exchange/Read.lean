import SwarmSampler.Json.Document
import SwarmSampler.Json.Read
import SwarmSampler.Summary
import SwarmSampler.Time.Stamp.Text

/-
Reading the records of the program from documents. Unknown fields are ignored,
a field given twice is refused, and only fields that may be null may be
missing. Records that also stand in settings are read from any form of
document, the others from JSON.
-/

namespace SwarmSampler.Exchange

open Document

/-- A record as it comes in; its magnet has two spellings. -/
def targetRecord? {δ : Type} [Document δ] (v : δ) : Option TargetRecord := do
  match ← slots? [["url"], ["license"], ["magnet", "magnet_link"]] false (← members? v) with
  | [url, license, magnet] =>
    some ⟨← required? text? url, ← required? text? license, ← required? text? magnet⟩
  | _ => none

/-- The selection a tag names. Taking all, whatever else is given by name is ignored. -/
def selectionOf? (kind : String) (rest : Content) : Option Selection := do
  if kind = "all" then
    match rest with
    | .items (_ :: _) => none
    | _ => some .all
  else if kind = "random_subset" then
    match ← slots? [["size"]] false (← members? rest) with
    | [size] => some (.randomSubset (← required? count64? size))
    | _ => none
  else none

/-- A selection that stands inside so many records. -/
def selection? {δ : Type} [TaggedDocument δ] (depth : Nat) (v : δ) : Option Selection := do
  let (kind, rest) ← TaggedDocument.tagged? "kind" depth v
  selectionOf? kind rest

def monitoringTarget? (v : Json) : Option MonitoringTarget := do
  match ← slots? [["id"], ["url"], ["license"], ["magnet"], ["eligible"]] false (← members? v) with
  | [id, url, license, magnet, eligible] =>
    some ⟨← required? text? id, ← required? text? url, ← required? text? license,
      ← required? text? magnet, ← required? Json.truth? eligible⟩
  | _ => none

/-- An outcome, by its text alone or as the name of an empty field. -/
def outcome? : Json → Option Outcome
  | .string s => s.bind Outcome.ofText?
  | .object [(some name, .null)] => Outcome.ofText? name
  | _ => none

def peerCounts? (v : Json) : Option PeerCounts := do
  match ← slots? [["seeders"], ["leechers"]] false (← members? v) with
  | [seeders, leechers] => some ⟨← required? count32? seeders, ← required? count32? leechers⟩
  | _ => none

def stamp? (v : Json) : Option Stamp := do
  match Stamp.readLoose (← text? v) with
  | .ok s => some s
  | .error _ => none

def sampleFields : List (List String) :=
  [["id"], ["targetId"], ["timestamp"], ["seeders"], ["leechers"], ["totalPeers"], ["outcome"],
   ["attempts"], ["reason"]]

def healthSample? (v : Json) : Option HealthSample := do
  match ← slots? sampleFields false (← members? v) with
  | [id, targetId, timestamp, seeders, leechers, total, outcome, attempts, reason] =>
    some ⟨← required? text? id, ← required? text? targetId, ← required? stamp? timestamp,
      ← required? count32? seeders, ← required? count32? leechers, ← required? count32? total,
      ← required? outcome? outcome, ← required? count32? attempts, ← optional? text? reason⟩
  | _ => none

/-- A trend, read from a form of documents that can tell numbers. -/
def snapshot? {δ : Type} [Document δ] (real? : δ → Option Float) (v : δ) :
    Option MetricsSnapshot := do
  match ← slots? [["growthPct"], ["shrinkPct"], ["explodingScore"], ["samplesConsidered"]] false
      (← members? v) with
  | [growth, shrink, score, considered] =>
    some ⟨← required? real? growth, ← required? real? shrink, ← required? real? score,
      ← required? count32? considered⟩
  | _ => none

def metricsSnapshot? (v : Json) : Option MetricsSnapshot := snapshot? Json.real? v

def readingOf? (status : String) (rest : Content) : Option MetricsReading := do
  if status = "ready" then
    some (.ready (← snapshot? Content.real? rest))
  else if status = "insufficient" then
    match ← slots? [["samples_available"]] false (← members? rest) with
    | [available] => some (.insufficient (← required? count32? available))
    | _ => none
  else none

def metricsReading? (v : Json) : Option MetricsReading := do
  let (status, rest) ← TaggedDocument.tagged? "status" 0 v
  readingOf? status rest

def summaryFields : List (List String) :=
  [["target"], ["source"], ["firstSeenAt"], ["lastCheckedAt"], ["checkCount"], ["latestSample"],
   ["latestMetrics"]]

def targetSummary? (v : Json) : Option TargetSummary := do
  match ← slots? summaryFields false (← members? v) with
  | [target, source, firstSeenAt, lastCheckedAt, checkCount, latestSample, latestMetrics] =>
    some ⟨← required? monitoringTarget? target, ← required? text? source,
      ← required? stamp? firstSeenAt, ← optional? stamp? lastCheckedAt,
      ← required? count32? checkCount, ← optional? healthSample? latestSample,
      ← optional? metricsSnapshot? latestMetrics⟩
  | _ => none

/-- Reads a text as JSON and the value as a record. -/
def decode? {α : Type} (read : Json → Option α) (text : String) : Option α :=
  (Json.read? text).bind read

end SwarmSampler.Exchange
