import SwarmSampler.Proofs.Sampler.Right

/-
A store that has taken every sample so far. Its writer has no failures behind
it and does not pause, so it has answered every request in the order they came,
and no check has lost its sample.
-/

namespace SwarmSampler

/-- A writer that was never refused a sample. -/
structure Writer.Unrefused (w : Writer) : Prop where
  patient : w.settings.failureThreshold ≠ 0
  idle : w.writing = .idle
  failures : w.failures = 0
  answers : ∀ a ∈ w.answers, ∃ stored, a.2 = .ok stored

theorem Sampler.New.unrefused {κ τ σ : Type} {s : Sampler (Observed κ) (Nat × τ) σ} (h : s.New) :
    s.writer.Unrefused := by
  obtain ⟨settings, hw, patient⟩ := h.writer
  rw [hw]
  exact ⟨patient, rfl, rfl, fun a ha => absurd ha List.not_mem_nil⟩

namespace Chronicle

open Sampler

variable {κ τ σ ρ : Type}

/-- The store has taken every sample so far. -/
def Accepting (c : Chronicle κ τ σ ρ) : Prop := ∀ e ∈ c.journal, e ≠ .vain

variable [SwarmClient κ τ] [SampleStore σ] {view : SampleView σ ρ} {before : List ρ}
  {c : Chronicle κ τ σ ρ} {s : Sampler (Observed κ) (Nat × τ) σ}

omit [SwarmClient κ τ] in
/-- A call of the store that is not noted as one in vain has succeeded, and it is the first request in
line that it was made for. -/
theorem work_accepted (h : s.writer.Unrefused)
    (quiet : ∀ e ∈ noteWork view.toRowView s s.work, e ≠ .vain) :
    s.writer.line = [] ∧ s.work.writer = s.writer ∨
      ∃ r rest stored, s.writer.line = r :: rest ∧ s.work.writer = { s.writer with
        pending := rest, calls := s.writer.calls ++ [s.now],
        answers := s.writer.answers ++ [(r.ticket, .ok stored)] } := by
  obtain ⟨patient, idle, failures, -⟩ := h
  cases hp : s.writer.pending with
  | nil =>
    exact .inl ⟨by simp [Writer.line, Writer.current, idle, hp], by simp [Sampler.work, Writer.work, idle, hp]⟩
  | cons r rest =>
    have hline : s.writer.line = r :: rest := by simp [Writer.line, Writer.current, idle, hp]
    cases ha : SampleStore.append r.sample r.metrics s.store with
    | mk result store =>
      cases result with
      | ok stored =>
        refine .inr ⟨r, rest, stored, hline, ?_⟩
        simp [Sampler.work, Writer.work, Writer.tryOnce, idle, hp, patient, ha, Writer.answer, failures]
      | error e =>
        -- Such a call brings no row, and is noted.
        have hwork : s.work.store = store ∧ s.work.writer.calls = s.writer.calls ++ [s.now] := by
          simp only [Sampler.work, Writer.work, idle, hp, failures, UInt32.le_zero_iff, patient, if_false,
            Writer.tryOnce, ha]
          split <;> simp [Writer.fail_eq, Writer.answer]
        have hgained : gained view.toRowView s s.work = [] := by
          rw [gained, hwork.1, view.rows_of_error ha, List.drop_length]
        have hvain : noteWork view.toRowView s s.work = [.vain] := by
          rw [noteWork, hline, hgained, hwork.2]
          exact if_neg (by simp)
        exact absurd rfl (quiet .vain (by rw [hvain]; exact List.mem_singleton_self _))

/-- While the store takes every sample, the writer is never refused one. -/
theorem Right.unrefused_step (h : Right view before c) (hw : c.sampler.writer.Unrefused) (m : Move σ)
    (quiet : (c.step view.toRowView m).Accepting) : (c.sampler.move m).writer.Unrefused := by
  cases m with
  | run id =>
    rw [move, (resumeRun_turn c.sampler id).writer]
    exact hw
  | check id =>
    have ht := h.checkTurn id
    rw [move]
    generalize c.sampler.resumeCheck id = s' at ht ⊢
    cases ht with
    | absent | stands | waits | ends => exact hw
    | settles => exact ⟨hw.patient, hw.idle, hw.failures, hw.answers⟩
  | work =>
    have hquiet : ∀ e ∈ noteWork view.toRowView c.sampler c.sampler.work, e ≠ .vain := fun e he =>
      quiet e (List.mem_append_right _ he)
    rw [move]
    obtain ⟨-, hsame⟩ | ⟨r, rest, stored, -, hnew⟩ := work_accepted hw hquiet
    · rw [hsame]
      exact hw
    · rw [hnew]
      refine ⟨hw.patient, hw.idle, hw.failures, fun a ha => ?_⟩
      rcases List.mem_append.1 ha with ha | ha
      · exact hw.answers a ha
      · exact ⟨stored, by rw [List.mem_singleton.1 ha]⟩
  | clock | cancel | cancelRun | addRun | relist | register | append => exact hw

omit [SwarmClient κ τ] [SampleStore σ] in
/-- A store that has taken every sample had done so before. -/
theorem Accepting.of_journal {c' : Chronicle κ τ σ ρ} (h : c'.Accepting) (hp : c.journal <+: c'.journal) :
    c.Accepting := fun e he => h e (hp.subset he)

theorem Accepting.earlier (ms : List (Move σ)) (h : (c.run view.toRowView ms).Accepting) : c.Accepting :=
  h.of_journal (journal_grows ms)

theorem Right.unrefused (ms : List (Move σ)) : ∀ {c : Chronicle κ τ σ ρ}, Right view before c →
    c.sampler.writer.Unrefused → (c.run view.toRowView ms).Accepting →
    (c.run view.toRowView ms).sampler.writer.Unrefused := by
  induction ms with
  | nil => exact fun _ hw _ => hw
  | cons m ms ih =>
    exact fun h hw quiet =>
      ih (h.step m) (h.unrefused_step hw m (quiet.earlier ms)) quiet

end Chronicle

end SwarmSampler
