import Mathlib.Data.List.DropRight
import SwarmSampler.Proofs.Trend.Exact

/-
The trend of a history is a matter of its last totals: two of them tell how the swarm
grows, three how that changes, and a sixth adds nothing to how much a score is trusted.
So whoever looks at some of the last samples finds what one finds who looks at all of
them, but for how many there are.
-/

namespace SwarmSampler

namespace Trend

open Quantity

variable {α β : Type} [Quantity α] {n k : Nat} {f : List UInt32 → β}

/-! ## The last of a list -/

theorem rtake_of_length_le {l : List β} (h : l.length ≤ n) : l.rtake n = l := by
  rw [List.rtake, Nat.sub_eq_zero_of_le h, List.drop_zero]

theorem map_rtake {γ : Type} (g : β → γ) (l : List β) (n : Nat) : (l.rtake n).map g = (l.map g).rtake n := by
  rw [List.rtake, List.rtake, List.map_drop, List.length_map]

/-! ## What is a matter of the last totals -/

/-- No totals before the last `k` matter, where there are so many. -/
def Recent (k : Nat) (f : List UInt32 → β) : Prop :=
  ∀ older totals, k ≤ totals.length → f (older ++ totals) = f totals

/-- What comes of a history comes of as many of its last totals as matter. -/
theorem Recent.rtake (h : Recent k f) (enough : k ≤ n) (totals : List UInt32) : f (totals.rtake n) = f totals := by
  rcases Nat.le_total totals.length n with hall | hmore
  · rw [rtake_of_length_le hall]
  · have hlength : (totals.rtake n).length = n := by
      rw [List.rtake, List.length_drop]
      omega
    conv_rhs => rw [← totals.take_append_drop (totals.length - n)]
    exact (h _ _ (enough.trans hlength.ge)).symm

theorem recent_growth? : Recent 2 (growth? : List UInt32 → Option α) := fun older _ => growth?_append older

theorem recent_sampleConfidence : Recent sampleCap fun totals => (sampleConfidence totals.length : α) := by
  intro older totals h
  have hcap : min (older ++ totals).length sampleCap = min totals.length sampleCap := by
    rw [List.length_append, Nat.min_eq_right h, Nat.min_eq_right (h.trans (Nat.le_add_left _ _))]
  simp only [sampleConfidence, hcap]

/-- **A score is a matter of the last totals that add to its confidence.** -/
theorem recent_score (peerConfidence : UInt32 → α) : Recent sampleCap (score peerConfidence) := by
  intro older totals h
  have hfive : 5 ≤ totals.length := h
  have hcurrent : (older ++ totals).getLastD 0 = totals.getLastD 0 := by
    have hne : totals ≠ [] := List.ne_nil_of_length_pos (by omega)
    rw [List.getLastD_eq_getLast?, List.getLastD_eq_getLast?, List.getLast?_append_of_ne_nil _ hne]
  have htrust : (sampleConfidence (older ++ totals).length : α) = sampleConfidence totals.length :=
    recent_sampleConfidence older totals h
  simp only [score, growth?_append older (show 2 ≤ totals.length by omega),
    acceleration?_append older (show 3 ≤ totals.length by omega), hcurrent, htrust]

end Trend

namespace Reading

variable {α : Type} [Quantity α] {n : Nat}

/-- A reading that does not say how many samples its trend was made from. -/
def uncounted : Reading α → Reading α
  | ready x => ready { x with samplesConsidered := 0 }
  | insufficient n => insufficient n

/-- A reading that says no more of a trend than how the swarm grows or shrinks. -/
def unscored : Reading α → Reading α
  | ready x => ready { x with score := Quantity.count 0, samplesConsidered := 0 }
  | insufficient n => insufficient n

theorem ofTotals_of_growth? {peerConfidence : UInt32 → α} {totals : List UInt32} {growth : α}
    (h : Trend.growth? totals = some growth) : ofTotals peerConfidence totals =
      ready ⟨growth, Trend.shrink growth, Trend.score peerConfidence totals, UInt32.ofNat totals.length⟩ := by
  rw [ofTotals, h]

/-- Totals too few for a trend are among the last ones, and the last ones of others grow as all of them do. -/
theorem rtake_cases (enough : 2 ≤ n) (totals : List UInt32) : totals.rtake n = totals ∨
    ∃ growth : α, Trend.growth? totals = some growth ∧ Trend.growth? (totals.rtake n) = some growth := by
  rcases Nat.lt_or_ge totals.length 2 with hfew | hmany
  · exact .inl (Trend.rtake_of_length_le (by omega))
  · obtain ⟨older, previous, current, rfl⟩ := Trend.exists_pair hmany
    exact .inr ⟨_, Trend.growth?_pair .., (Trend.recent_growth?.rtake enough _).trans (Trend.growth?_pair ..)⟩

/-- **The last totals, two at least, tell how a swarm grows or shrinks as all of them do.** -/
theorem unscored_rtake (peerConfidence : UInt32 → α) (enough : 2 ≤ n) (totals : List UInt32) :
    (ofTotals peerConfidence (totals.rtake n)).unscored = (ofTotals peerConfidence totals).unscored := by
  rcases rtake_cases (α := α) enough totals with hall | ⟨growth, hg, hrecent⟩
  · rw [hall]
  · rw [ofTotals_of_growth? hg, ofTotals_of_growth? hrecent]
    rfl

/-- **Of five totals or more the score is theirs as well.** -/
theorem uncounted_rtake (peerConfidence : UInt32 → α) (enough : 5 ≤ n) (totals : List UInt32) :
    (ofTotals peerConfidence (totals.rtake n)).uncounted = (ofTotals peerConfidence totals).uncounted := by
  rcases rtake_cases (α := α) (by omega : 2 ≤ n) totals with hall | ⟨growth, hg, hrecent⟩
  · rw [hall]
  · rw [ofTotals_of_growth? hg, ofTotals_of_growth? hrecent, (Trend.recent_score _).rtake enough]
    rfl

end Reading

end SwarmSampler
