import SwarmSampler.Proofs.Exchange.Documents

/-
The records of the program as JSON text. The text of a value is read as the
value; so a text that is read at all is written back as one that is read as the
same value, and that is written back as itself.
-/

namespace SwarmSampler.Exchange

open Json

variable {α : Type}

/-- The text of a value. -/
def encode (write : α → Json) (v : α) : String := Json.write (write v)

/-- What a text is written back as, if it is read. -/
def rewritten? (read : Json → Option α) (write : α → Json) (text : String) : Option String :=
  (decode? read text).map (encode write)

/-- A value outlives being written and read: it is read from its own text, and from whatever text it is read, that
text is written back as one that it is read from again and that is written back as it stands. -/
structure Restored (read : Json → Option α) (write : α → Json) (v : α) : Prop where
  own : decode? read (encode write v) = some v
  any : ∀ text, decode? read text = some v → ∃ again, rewritten? read write text = some again ∧
    decode? read again = some v ∧ rewritten? read write again = some again

theorem Restored.of_document {read : Json → Option α} {write : α → Json} {v : α} (hwrite : Writable (write v))
    (hread : read (write v) = some v) : Restored read write v := by
  have hown : decode? read (encode write v) = some v := by
    rw [decode?, encode, read?_write hwrite, Option.bind_some, hread]
  have hagain (text : String) (h : decode? read text = some v) :
      rewritten? read write text = some (encode write v) := by
    rw [rewritten?, h, Option.map_some]
  exact ⟨hown, fun text h => ⟨encode write v, hagain text h, hown, hagain _ hown⟩⟩

/-! ## What is written -/

@[simp] theorem writable_ofCount (n : UInt32) : Writable (ofCount n) := .int n.toNat

@[simp] theorem writable_ofStamp (s : Stamp) : Writable (ofStamp s) := .text s.text

@[simp] theorem writable_ofOutcome (o : Outcome) : Writable (ofOutcome o) := .text o.text

@[simp] theorem writable_ofTargetRecord (r : TargetRecord) : Writable (ofTargetRecord r) := .record (by simp)

@[simp] theorem writable_ofMonitoringTarget (t : MonitoringTarget) : Writable (ofMonitoringTarget t) :=
  .record (by simp)

theorem writable_ofPeerCounts (c : PeerCounts) : Writable (ofPeerCounts c) := .record (by simp)

@[simp] theorem writable_ofHealthSample (s : HealthSample) : Writable (ofHealthSample s) := .record (by simp)

@[simp] theorem writable_ofSelection (selection : Selection) : Writable (ofSelection selection) := by
  cases selection <;> exact .record (by simp)

section Trends

variable {numeral : Float → Numeral}

theorem writable_snapshotFields {s : MetricsSnapshot} (h : ∀ x ∈ s.numbers, Lossless numeral x) :
    ∀ f ∈ snapshotFields (fun x => .number (numeral x)) s, Writable f.2 := by
  simp only [Snapshot.numbers, List.forall_mem_cons] at h
  obtain ⟨growth, shrink, score, -⟩ := h
  simp [snapshotFields, Writable.number growth.regular, Writable.number shrink.regular, Writable.number score.regular]

theorem writable_ofSnapshot {s : MetricsSnapshot} (h : ∀ x ∈ s.numbers, Lossless numeral x) :
    Writable (ofSnapshot (fun x => .number (numeral x)) s) := .record (writable_snapshotFields h)

theorem writable_ofReading {r : MetricsReading} (h : ∀ x ∈ r.numbers, Lossless numeral x) :
    Writable (ofReading (fun x => .number (numeral x)) r) := by
  cases r with
  | ready s => exact .record (List.forall_mem_cons.2 ⟨.text _, writable_snapshotFields h⟩)
  | insufficient n => exact .record (by simp)

theorem writable_ofTargetSummary {s : TargetSummary} (h : ∀ x ∈ s.numbers, Lossless numeral x) :
    Writable (ofTargetSummary (fun x => .number (numeral x)) s) := by
  have hmetrics : Writable (.optional (ofSnapshot fun x => .number (numeral x)) s.latestMetrics) := by
    refine .optional fun snapshot hsnapshot => writable_ofSnapshot ?_
    rwa [TargetSummary.numbers, Option.mem_def.1 hsnapshot] at h
  exact .record (by simp [hmetrics])

end Trends

/-! ## Round trips -/

/-- A number with one decimal, cut off after it. -/
def inTenths (x : Float) : Numeral :=
  let tenths := (x.abs * 10).toUInt64.toNat
  ⟨x < 0, Text.decimal (tenths / 10), Text.decimal (tenths % 10), none⟩

theorem regular_inTenths (x : Float) : Regular (inTenths x) :=
  ⟨Nat.toDigits_ne_nil, fun _ => Text.isDigit_of_mem_decimal, Text.head?_decimal,
    fun _ => Text.isDigit_of_mem_decimal⟩

end SwarmSampler.Exchange
