import SwarmSampler.Proofs.Writer.Books

/-
Reading back what was stored: the row of a sample that an append has stored is
read as that sample. A view of a store says so of any store that sampling may
use, and that registering targets leaves its rows alone.
-/

namespace SwarmSampler

/-- A view of a store whose rows are read back as the samples they were stored for. -/
structure SampleView (σ ρ : Type) [SampleStore σ] extends RowView σ ρ where
  read : ρ → Option HealthSample
  read_row : ∀ {sample metrics stored} {store store' : σ},
    SampleStore.append sample metrics store = (.ok stored, store') →
      read (row sample metrics stored) = some stored
  /-- A sample is stored as it is, but for its time. -/
  asked : ∀ {sample metrics stored} {store store' : σ},
    SampleStore.append sample metrics store = (.ok stored, store') →
      stored = { sample with timestamp := stored.timestamp }
  rows_register : ∀ now source targets (store : σ),
    rows (SampleStore.register now source targets store).2 = rows store

namespace Store

variable {s s' : Store} {sample stored : HealthSample} {metrics : Option MetricsSnapshot}

theorem countOf_toNat (n : UInt32) (index : Nat) : countOf n.toNat index = .ok n := by
  have hlt := n.toNat_lt
  have hr : (0 : Int) ≤ n.toNat ∧ (n.toNat : Int) < 4_294_967_296 := by omega
  rw [countOf, if_pos hr, Int.toNat_natCast, UInt32.ofNat_toNat]

/-- A row of a sample that is dated by it is read as the sample, wherever its cells stand. -/
theorem readSample_rowOf (dated : Stamp.ofMillis? (rowOf stored metrics).millis = some stored.timestamp)
    (offset : Nat) : readSample offset (rowOf stored metrics) = .ok stored := by
  simp only [readSample, dated]
  simp only [rowOf, sampleRow, Outcome.ofText?_text, countOf_toNat]
  rfl

/-- **The row of a stored sample is read back as that sample.** -/
theorem Appended.readSample (h : Appended sample metrics s stored s') (offset : Nat) :
    readSample offset (rowOf stored metrics) = .ok stored := readSample_rowOf h.ofMillis? offset

theorem appended_of_append (h : append sample metrics s = (.ok stored, s')) :
    Appended sample metrics s stored s' := by
  obtain ⟨_, _, heq, ha⟩ | ⟨e, heq⟩ := append_cases sample metrics s
  · cases h.symm.trans heq
    exact ha
  · cases h.symm.trans heq

/-- The table of samples, read sample by sample. -/
def sampleView : SampleView Store SampleRow where
  toRowView := rowView
  read r := (readSample 0 r).toOption
  read_row h := congrArg Except.toOption ((appended_of_append h).readSample 0)
  asked h := (appended_of_append h).asked
  rows_register now source targets store := by
    obtain ⟨added, -, -, heq⟩ := register_eq now source targets store
    exact congrArg (fun x => samples x.2) heq

end Store

theorem FaultyStore.stored_of_append {sample stored : HealthSample} {f f' : FaultyStore}
    (h : f.append sample = (.ok stored, f')) : stored = sample := by
  unfold append at h
  simp only at h
  split at h
  · cases h
  · cases h
    rfl

/-- The rows of a store that fails on demand are the samples themselves. -/
def FaultyStore.sampleView : SampleView FaultyStore HealthSample where
  toRowView := rowView
  read := some
  read_row h := congrArg some (stored_of_append h).symm
  asked h := by rw [stored_of_append h]
  rows_register now source targets store := by
    show (SampleStore.register now source targets store).2.rows = store.rows
    simp only [SampleStore.register]
    split <;> rfl

end SwarmSampler
