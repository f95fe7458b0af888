import SwarmSampler.Store.Open
import SwarmSampler.Proofs.Store.Writing

/-
A store in use: the calls that write to it and those that open it again, one
after another, and the samples that its appends answered. The clock may say
anything at any call.
-/

namespace SwarmSampler.Store

/-- A call that may change a store. -/
inductive Call
  | register (now : Stamp) (source : String) (targets : List MonitoringTarget)
  | ingest (now : Stamp) (source : String) (records : List TargetRecord)
  | append (sample : HealthSample) (metrics : Option MetricsSnapshot)
  | reopen

/-- A sample as an append answered it, with the trend it came with. -/
abbrev Kept := HealthSample × Option MetricsSnapshot

/-- The row of a kept sample. -/
def Kept.row (k : Kept) : SampleRow := rowOf k.1 k.2

namespace Opened

/-- A store where it is, after a call. -/
def perform (o : Opened) : Call → Opened
  | .register now source targets => { o with store := (register now source targets o.store).2 }
  | .ingest now source records => { o with store := (ingest now source records o.store).2 }
  | .append sample metrics => { o with store := (append sample metrics o.store).2 }
  | .reopen => o.reopen

/-- The sample a call keeps, if it is an append that succeeds. -/
def kept? (o : Opened) : Call → Option Kept
  | .append sample metrics => (append sample metrics o.store).1.toOption.map fun stored => (stored, metrics)
  | _ => none

/-- A store where it is, after some calls. -/
def performAll (o : Opened) (calls : List Call) : Opened := calls.foldl perform o

/-- The samples some calls keep, in the order of the calls. -/
def keptBy (o : Opened) : List Call → List Kept
  | [] => []
  | c :: cs => (o.kept? c).toList ++ (o.perform c).keptBy cs

/-- Calls that do not open a private store again, which would be a new one. -/
def Lasting (o : Opened) (calls : List Call) : Prop := o.home.isPrivate = false ∨ Call.reopen ∉ calls

variable {o : Opened} {c : Call} {cs : List Call}

theorem perform_home : (o.perform c).home = o.home := by
  cases c
  case reopen =>
    simp only [perform, reopen]
    split <;> rfl
  all_goals rfl

theorem Lasting.head (h : o.Lasting (c :: cs)) : o.Lasting [c] :=
  h.imp_right fun h hm => h (by simp only [List.mem_singleton.1 hm, List.mem_cons, true_or])

theorem Lasting.tail (h : o.Lasting (c :: cs)) : (o.perform c).Lasting cs := by
  obtain h | h := h
  · exact .inl (by rw [perform_home, h])
  · exact .inr fun hm => h (List.mem_cons_of_mem c hm)

/-- What a lasting call does to the store: it adds new targets, or it is an append that succeeds,
or it changes nothing. -/
theorem perform_cases (h : o.Lasting [c]) :
    (∃ now source added, o.store.Fresh added ∧ o.kept? c = none ∧
      (o.perform c).store = o.store.enrol now source added) ∨
    (∃ sample metrics stored, o.kept? c = some (stored, metrics) ∧
      Appended sample metrics o.store stored (o.perform c).store) ∨
    o.kept? c = none ∧ (o.perform c).store = o.store := by
  cases c with
  | register now source targets =>
    obtain ⟨added, -, hfresh, heq⟩ := register_eq now source targets o.store
    exact .inl ⟨now, source, added, hfresh, rfl, by simp only [perform, heq]⟩
  | ingest now source records =>
    obtain ⟨added, hfresh, heq⟩ := ingest_eq now source records o.store
    exact .inl ⟨now, source, added, hfresh, rfl, by simp only [perform, heq]⟩
  | append sample metrics =>
    obtain ⟨stored, s', heq, ha⟩ | ⟨e, heq⟩ := append_cases sample metrics o.store
    · refine .inr (.inl ⟨sample, metrics, stored, ?_, ?_⟩)
      · simp only [kept?, heq, Except.toOption, Option.map_some]
      · simpa only [perform, heq] using ha
    · refine .inr (.inr ⟨?_, ?_⟩)
      · simp only [kept?, heq, Except.toOption, Option.map_none]
      · simp only [perform, heq]
  | reopen =>
    refine .inr (.inr ⟨rfl, ?_⟩)
    obtain h | h := h
    · simp only [perform, reopen, h, Bool.false_eq_true, ↓reduceIte]
    · simp only [List.mem_singleton, not_true_eq_false] at h

/-- A call that does not last leaves an empty store. -/
theorem perform_of_not_lasting (h : ¬ o.Lasting [c]) : (o.perform c).store = empty := by
  simp only [Lasting, List.mem_singleton, not_or, Bool.not_eq_false, Classical.not_not] at h
  obtain ⟨hp, rfl⟩ := h
  simp only [perform, reopen, hp, ↓reduceIte]

end Opened

end SwarmSampler.Store
