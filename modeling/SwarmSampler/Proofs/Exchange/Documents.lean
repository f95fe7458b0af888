import SwarmSampler.Exchange.Read
import SwarmSampler.Exchange.Write
import SwarmSampler.Proofs.Json.Records
import SwarmSampler.Proofs.Json.RoundTrip
import SwarmSampler.Proofs.Time.Loose

/-
The records of the program as JSON values, read back as they are: each field
under its own name, an instant through its text, and what is left of a tagged
record beside its tag through content. How machine numbers are written is left
open, so numbers come back where their numerals do.
-/

namespace SwarmSampler

/-- The numbers in a trend. -/
def Snapshot.numbers {α : Type} (s : Snapshot α) : List α := [s.growth, s.shrink, s.score]

/-- The numbers in a trend, if it is one. -/
def Reading.numbers {α : Type} (r : Reading α) : List α := r.snapshot?.elim [] Snapshot.numbers

def TargetSummary.numbers (s : TargetSummary) : List Float := s.latestMetrics.elim [] Snapshot.numbers

end SwarmSampler

namespace SwarmSampler.Exchange

open Document Json

/-- A number is lost by no step from its numeral to the text and back: the numeral is one of the grammar, and what is
read of it is the number. -/
structure Lossless (numeral : Float → Numeral) (x : Float) : Prop where
  regular : Regular (numeral x)
  read : real? (.number (numeral x)) = some x

/-! ## Fields -/

theorem text?_text (s : String) : Document.text? (Json.text s) = some s := rfl

theorem stamp?_ofStamp (s : Stamp) : stamp? (ofStamp s) = some s := by
  rw [stamp?, ofStamp, text?_text, Option.bind_eq_bind, Option.bind_some, Stamp.readLoose_text]

theorem count32?_ofCount (n : UInt32) : count32? (ofCount n) = some n := count32?_int n

/-- A count as content is the count. -/
theorem contentWithin_ofCount (n : UInt32) (depth : Nat) :
    ∃ c, contentWithin depth (ofCount n) = some c ∧ count32? c = some n :=
  ⟨.natural n.toNat, contentWithin_int (Nat.lt_trans n.toNat_lt (by decide)) depth, count32?_of_integer? rfl⟩

/-- A value that may be missing is read back, as long as it is not written as if it were. -/
theorem optional?_optional {α : Type} {read : Json → Option α} {write : α → Json} {o : Option α}
    (h : ∀ x ∈ o, isNull? (write x) = some false ∧ read (write x) = some x) :
    optional? read (some (Json.optional write o)) = some o := by
  cases o with
  | none => rfl
  | some x =>
    obtain ⟨hnull, hread⟩ := h x rfl
    rw [optional?, Json.optional, hnull, Option.bind_eq_bind, Option.bind_some, hread]
    rfl

theorem optional?_text (o : Option String) : optional? Document.text? (some (Json.optional .text o)) = some o :=
  optional?_optional fun _ _ => ⟨rfl, rfl⟩

theorem optional?_stamp (o : Option Stamp) : optional? stamp? (some (Json.optional ofStamp o)) = some o :=
  optional?_optional fun s _ => ⟨rfl, stamp?_ofStamp s⟩

/-! ## Records -/

theorem targetRecord?_ofTargetRecord (r : TargetRecord) : targetRecord? (ofTargetRecord r) = some r := by
  unfold targetRecord? ofTargetRecord
  refine (slots?_record (by rfl) _).trans ?_
  rfl

theorem monitoringTarget?_ofMonitoringTarget (t : MonitoringTarget) :
    monitoringTarget? (ofMonitoringTarget t) = some t := by
  unfold monitoringTarget? ofMonitoringTarget
  refine (slots?_record (by rfl) _).trans ?_
  rfl

theorem outcome?_ofOutcome (o : Outcome) : outcome? (ofOutcome o) = some o := Outcome.ofText?_text o

theorem peerCounts?_ofPeerCounts (c : PeerCounts) : peerCounts? (ofPeerCounts c) = some c := by
  unfold peerCounts? ofPeerCounts
  refine (slots?_record (by rfl) _).trans ?_
  simp only [List.map_cons, List.map_nil, required?, count32?_ofCount, Option.bind_eq_bind, Option.bind_some]

theorem healthSample?_ofHealthSample (s : HealthSample) : healthSample? (ofHealthSample s) = some s := by
  unfold healthSample? ofHealthSample
  refine (slots?_record (by rfl) _).trans ?_
  simp only [List.map_cons, List.map_nil, required?, text?_text, stamp?_ofStamp, count32?_ofCount, outcome?_ofOutcome,
    optional?_text, Option.bind_eq_bind, Option.bind_some]

/-! ## Trends -/

section Trends

variable {numeral : Float → Numeral}

theorem metricsSnapshot?_ofSnapshot {s : MetricsSnapshot} (h : ∀ x ∈ s.numbers, Lossless numeral x) :
    metricsSnapshot? (ofSnapshot (fun x => .number (numeral x)) s) = some s := by
  simp only [Snapshot.numbers, List.forall_mem_cons] at h
  obtain ⟨growth, shrink, score, -⟩ := h
  unfold metricsSnapshot? snapshot? ofSnapshot snapshotFields
  refine (slots?_record (by rfl) _).trans ?_
  simp only [List.map_cons, List.map_nil, required?, growth.read, shrink.read, score.read, count32?_ofCount,
    Option.bind_eq_bind, Option.bind_some]

/-- A trend that is taken in as content is the trend. -/
theorem snapshot?_contents {s : MetricsSnapshot} (h : ∀ x ∈ s.numbers, Lossless numeral x) (depth : Nat) :
    ∃ contents, contentFields depth ((snapshotFields (fun x => .number (numeral x)) s).map fun f => (some f.1, f.2)) =
      some contents ∧ snapshot? Content.real? (.fields contents) = some s := by
  simp only [Snapshot.numbers, List.forall_mem_cons] at h
  obtain ⟨growth, shrink, score, -⟩ := h
  obtain ⟨g, hg, readG⟩ := contentWithin_number growth.read depth
  obtain ⟨l, hl, readL⟩ := contentWithin_number shrink.read depth
  obtain ⟨p, hp, readP⟩ := contentWithin_number score.read depth
  obtain ⟨n, hn, readN⟩ := contentWithin_ofCount s.samplesConsidered depth
  refine ⟨[(.text "growthPct", g), (.text "shrinkPct", l), (.text "explodingScore", p),
    (.text "samplesConsidered", n)], ?_, ?_⟩
  · simp only [snapshotFields, List.map_cons, List.map_nil, contentFields, hg, hl, hp, hn, Option.bind_eq_bind,
      Option.bind_some]
  · unfold snapshot?
    refine (slots?_of_members? [("growthPct", g), ("shrinkPct", l), ("explodingScore", p),
      ("samplesConsidered", n)] (by rfl) (by rfl) _).trans ?_
    simp only [List.map_cons, List.map_nil, required?, readG, readL, readP, readN, Option.bind_eq_bind,
      Option.bind_some]

theorem metricsReading?_ofReading {r : MetricsReading} (h : ∀ x ∈ r.numbers, Lossless numeral x) :
    metricsReading? (ofReading (fun x => .number (numeral x)) r) = some r := by
  cases r with
  | ready s =>
    obtain ⟨contents, hcontents, hread⟩ := snapshot?_contents h (depthLimit - 1)
    have htagged : TaggedDocument.tagged? "status" 0 (ofReading (fun x => .number (numeral x)) (.ready s)) =
        some ("ready", .fields contents) := tagged?_record _ (by simp [snapshotFields]) hcontents
    rw [metricsReading?, htagged, Option.bind_eq_bind, Option.bind_some]
    dsimp only
    rw [readingOf?, if_pos rfl, hread]
    rfl
  | insufficient n =>
    obtain ⟨c, hc, hread⟩ := contentWithin_ofCount n (depthLimit - 1)
    have htagged : TaggedDocument.tagged? "status" 0 (ofReading (fun x => .number (numeral x)) (.insufficient n)) =
        some ("insufficient", .fields [(.text "samples_available", c)]) :=
      tagged?_record [("samples_available", ofCount n)] (by simp) (by simp [contentFields, hc])
    rw [metricsReading?, htagged, Option.bind_eq_bind, Option.bind_some]
    dsimp only
    rw [readingOf?, if_neg (by decide), if_pos rfl]
    refine (slots?_of_members? [("samples_available", c)] (by rfl) (by rfl) _).trans ?_
    simp only [List.map_cons, List.map_nil, required?, hread, Option.bind_eq_bind, Option.bind_some]

theorem targetSummary?_ofTargetSummary {s : TargetSummary} (h : ∀ x ∈ s.numbers, Lossless numeral x) :
    targetSummary? (ofTargetSummary (fun x => .number (numeral x)) s) = some s := by
  have hsample : optional? healthSample? (some (Json.optional ofHealthSample s.latestSample)) = some s.latestSample :=
    optional?_optional fun sample _ => ⟨rfl, healthSample?_ofHealthSample sample⟩
  have hmetrics : optional? metricsSnapshot?
      (some (Json.optional (ofSnapshot fun x => .number (numeral x)) s.latestMetrics)) = some s.latestMetrics := by
    refine optional?_optional fun snapshot hsnapshot => ⟨rfl, metricsSnapshot?_ofSnapshot ?_⟩
    rwa [TargetSummary.numbers, Option.mem_def.1 hsnapshot] at h
  unfold targetSummary? ofTargetSummary
  refine (slots?_record (by rfl) _).trans ?_
  simp only [List.map_cons, List.map_nil, required?, monitoringTarget?_ofMonitoringTarget, text?_text, stamp?_ofStamp,
    count32?_ofCount, optional?_stamp, hsample, hmetrics, Option.bind_eq_bind, Option.bind_some]

end Trends

/-! ## Selections -/

theorem selection?_ofSelection (s : Selection) (depth : Nat) : selection? depth (ofSelection s) = some s := by
  cases s with
  | all => rfl
  | randomSubset size =>
    obtain ⟨c, hc, hread⟩ : ∃ c, contentWithin (depthLimit - (depth + 1)) (.int size.toNat) = some c ∧
        count64? c = some size := ⟨.natural size.toNat, contentWithin_int size.toNat_lt _, count64?_of_integer? rfl⟩
    have htagged : TaggedDocument.tagged? "kind" depth (ofSelection (.randomSubset size)) =
        some ("random_subset", .fields [(.text "size", c)]) :=
      tagged?_record [("size", .int size.toNat)] (by simp) (by simp [contentFields, hc])
    rw [selection?, htagged, Option.bind_eq_bind, Option.bind_some]
    dsimp only
    unfold selectionOf?
    rw [if_neg (by decide), if_pos rfl]
    refine (slots?_of_members? [("size", c)] (by rfl) (by rfl) _).trans ?_
    simp only [List.map_cons, List.map_nil, required?, hread, Option.bind_eq_bind, Option.bind_some]

end SwarmSampler.Exchange
