import SwarmSampler.Proofs.Sampler.Turns

/-
What a cycle's own numbers say of the checks it has started and of those that
have ended: the targets still left are those it has not started, its summary
counts the results in the order they ended, all but those it has still to
count, and the first failure of the whole store among these halts it. A cycle
counts nothing before it has started its last check.
-/

namespace SwarmSampler

/-- The failure of the whole store that a check ended with. -/
def CheckResult.fatal? : CheckResult → Option Failure
  | .failed f => if f.fatal then some f else none
  | _ => none

theorem CheckResult.fatal_of_fatal? {r : CheckResult} {f : Failure} (h : r.fatal? = some f) :
    f.fatal = true := by
  cases r with
  | failed g =>
    cases hg : g.fatal with
    | true =>
      rw [fatal?, if_pos hg, Option.some.injEq] at h
      exact h ▸ hg
    | false =>
      rw [fatal?, hg, if_neg Bool.false_ne_true] at h
      cases h
  | reported | crashed => cases h

namespace Cycle

/-! ## Counting -/

theorem take_eq (c : Cycle) (result : CheckResult) :
    c.take result = { c with
      summary := c.summary.count result
      uncounted := c.uncounted - 1
      halted := c.halted || result.fatal?.isSome
      fatal := c.fatal.or result.fatal? } := by
  cases result with
  | failed f =>
    cases hf : f.fatal <;>
      simp only [take, CheckResult.fatal?, hf, Bool.false_eq_true, ↓reduceIte, Option.isSome_none,
        Option.isSome_some, Bool.or_false, Bool.or_true, Option.or_none]
  | reported | crashed =>
    simp only [take, CheckResult.fatal?, Option.isSome_none, Bool.or_false, Option.or_none]

/-- What results that are counted one after another make of a cycle. -/
theorem foldl_take (results : List CheckResult) : ∀ c : Cycle,
    results.foldl take c = { c with
      summary := results.foldl CycleSummary.count c.summary
      uncounted := c.uncounted - results.length
      halted := c.halted || (results.findSome? CheckResult.fatal?).isSome
      fatal := c.fatal.or (results.findSome? CheckResult.fatal?) } := by
  induction results with
  | nil => intro c; simp
  | cons r rs ih =>
    intro c
    rw [List.foldl_cons, ih, take_eq]
    cases hr : r.fatal? <;>
      simp [hr, Nat.sub_sub, Nat.add_comm 1]

theorem takeArrived_eq (c : Cycle) :
    c.takeArrived = { c with
      summary := c.arrived.foldl CycleSummary.count c.summary
      uncounted := c.uncounted - c.arrived.length
      arrived := []
      halted := c.halted || (c.arrived.findSome? CheckResult.fatal?).isSome
      fatal := c.fatal.or (c.arrived.findSome? CheckResult.fatal?) } := by
  rw [takeArrived, foldl_take]

/-! ## The tally -/

/-- A cycle that was given targets, with those it has started and the results that have come in. Some
of the targets are never started if the run is cancelled. -/
structure Tally (chosen : List MonitoringTarget) (ineligible : Nat) (cancelled : Bool)
    (started : List MonitoringTarget) (results counted : List CheckResult) (c : Cycle) : Prop where
  split : started ++ c.left = chosen ∨ c.left = [] ∧ started <+: chosen ∧ cancelled = true
  arrived : results = counted ++ c.arrived
  summary : c.summary = counted.foldl CycleSummary.count (.start chosen.length ineligible)
  uncounted : started.length = counted.length + c.uncounted
  fatal : c.fatal = counted.findSome? CheckResult.fatal?
  halted : c.halted = c.fatal.isSome
  /-- Counting begins when no target is left. -/
  early : c.left ≠ [] → counted = []

variable {chosen started : List MonitoringTarget} {ineligible : Nat} {cancelled : Bool}
  {results counted : List CheckResult} {c : Cycle}

theorem Tally.start (chosen : List MonitoringTarget) (ineligible : Nat) (cancelled : Bool) :
    Tally chosen ineligible cancelled [] [] []
      ⟨.start chosen.length ineligible, chosen, 0, [], false, none⟩ where
  split := .inl rfl
  arrived := rfl
  summary := rfl
  uncounted := rfl
  fatal := rfl
  halted := rfl
  early _ := rfl

/-- A cycle is halted only after it has counted something. -/
theorem Tally.left_of_halted (h : Tally chosen ineligible cancelled started results counted c)
    (hh : c.halted = true) : c.left = [] := by
  refine Classical.not_not.1 fun hl => ?_
  have hf := h.halted
  rw [h.fatal, h.early hl, hh] at hf
  cases hf

/-- Checks are started for the first of the targets that are left. -/
theorem Tally.begin {κ τ σ : Type} {s : Sampler κ τ σ} {run : Nat} {first rest : List MonitoringTarget}
    {x : Cycle × Sampler κ τ σ}
    (h : Tally chosen ineligible (s.runHalted run) started results counted c)
    (hs : Sampler.Starting s run c.left c first rest x) :
    Tally chosen ineligible (s.runHalted run) (started ++ first) results counted x.1 := by
  have hk := hs.kept
  refine ⟨?_, by rw [hk]; exact h.arrived, by rw [hk]; exact h.summary, ?_, by rw [hk]; exact h.fatal,
    by rw [hk]; exact h.halted, fun hl => ?_⟩
  · obtain hsplit | ⟨hl, hpre, hc⟩ := h.split
    · rw [hs.split, ← List.append_assoc] at hsplit
      obtain hx | ⟨hx, hhalt⟩ := hs.left
      · exact .inl (hx ▸ hsplit)
      · rcases Bool.or_eq_true_iff.1 hhalt with hr | hh
        · exact .inr ⟨hx, hsplit ▸ List.prefix_append .., hr⟩
        · -- What halts a cycle has been counted, so no target was left.
          have hnil := h.left_of_halted hh
          rw [hs.split, List.append_eq_nil_iff] at hnil
          rw [hnil.2] at hsplit
          exact .inl (hx ▸ hsplit)
    · have hnil := hs.split
      rw [hl, eq_comm, List.append_eq_nil_iff] at hnil
      refine .inr ⟨?_, by rw [hnil.1, List.append_nil]; exact hpre, hc⟩
      obtain hx | ⟨hx, -⟩ := hs.left
      · rw [hx, hnil.2]
      · exact hx
  · rw [hk, List.length_append, h.uncounted]
    simp only
    omega
  · refine h.early fun hnil => hl ?_
    rw [hs.split, List.append_eq_nil_iff] at hnil
    obtain hx | ⟨hx, -⟩ := hs.left
    · rw [hx, hnil.2]
    · exact hx

theorem Tally.arrive (h : Tally chosen ineligible cancelled started results counted c)
    (new : List CheckResult) :
    Tally chosen ineligible cancelled started (results ++ new) counted
      { c with arrived := c.arrived ++ new } where
  split := h.split
  arrived := by rw [h.arrived, List.append_assoc]
  summary := h.summary
  uncounted := h.uncounted
  fatal := h.fatal
  halted := h.halted
  early := h.early

theorem Tally.takeArrived (h : Tally chosen ineligible cancelled started results counted c)
    (left : c.left = []) (open' : c.arrived.length ≤ c.uncounted) :
    Tally chosen ineligible cancelled started results results c.takeArrived := by
  have htake := c.takeArrived_eq
  refine ⟨by rw [htake]; exact h.split, by rw [htake]; exact (List.append_nil _).symm, ?_, ?_, ?_, ?_,
    fun hl => absurd (by rw [htake]; exact left) hl⟩
  · rw [htake, h.arrived, List.foldl_append, ← h.summary]
  · rw [htake, h.uncounted, h.arrived, List.length_append]
    simp only
    omega
  · rw [htake, h.arrived, List.findSome?_append, ← h.fatal]
  · rw [htake]
    simp only [h.halted]
    cases c.fatal <;> simp

theorem Tally.cancel (h : Tally chosen ineligible cancelled started results counted c) {cancelled' : Bool}
    (hc : cancelled = true → cancelled' = true) :
    Tally chosen ineligible cancelled' started results counted c where
  split := h.split.imp_right fun ⟨hl, hp, hh⟩ => ⟨hl, hp, hc hh⟩
  arrived := h.arrived
  summary := h.summary
  uncounted := h.uncounted
  fatal := h.fatal
  halted := h.halted
  early := h.early

theorem counted_foldl (results : List CheckResult) (s : CycleSummary) :
    (results.foldl CycleSummary.count s).counted = s.counted + results.length := by
  induction results generalizing s with
  | nil => rfl
  | cons r rs ih =>
    rw [List.foldl_cons, ih, CycleSummary.counted_count, List.length_cons]
    omega

/-- Counting changes neither how many were chosen nor how many were passed over. -/
theorem kept_foldl (results : List CheckResult) (s : CycleSummary) :
    (results.foldl CycleSummary.count s).selected = s.selected ∧
      (results.foldl CycleSummary.count s).ineligible = s.ineligible := by
  induction results generalizing s with
  | nil => exact ⟨rfl, rfl⟩
  | cons r rs ih =>
    have hone : (s.count r).selected = s.selected ∧ (s.count r).ineligible = s.ineligible := by
      cases r with
      | reported report => cases h : report.outcome <;> simp only [CycleSummary.count, h, and_self]
      | failed | crashed => exact ⟨rfl, rfl⟩
    rw [List.foldl_cons, (ih _).1, (ih _).2]
    exact hone

end Cycle

end SwarmSampler
