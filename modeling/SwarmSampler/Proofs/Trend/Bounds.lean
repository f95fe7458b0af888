import SwarmSampler.Proofs.Trend.Checked

/-
The bounds of a trend, for any totals whatever. Growth is at least the loss of all
peers and its sign is that of the difference; a loss is its negative, and none for a
growing swarm; a score is a percentage, small for small swarms, and only a swarm that
grows or that shrinks no longer as fast has one above zero.
-/

namespace SwarmSampler

namespace Trend

open Quantity

variable {α : Type} [Field α] [LinearOrder α]

/-! ## Scores -/

theorem rated_le_percent (growth acceleration weight : α) (samples : Nat) (current : UInt32) :
    rated growth acceleration samples current weight ≤
      percent (momentum growth acceleration * sampleConfidence samples * weight) := by
  rw [rated, least_eq]
  split
  · exact min_le_left _ _
  · exact le_refl _

/-- Small swarms have small scores. -/
theorem rated_le_cap (growth acceleration weight : α) (samples : Nat) {current : UInt32}
    (h : current.toNat < peerFloor) : rated growth acceleration samples current weight ≤ 30 := by
  rw [rated, if_pos h, least_eq]
  exact (min_le_right _ _).trans_eq Nat.cast_ofNat

variable [IsStrictOrderedRing α]

/-- A score above zero comes of growth, or of a change for the better. -/
theorem pos_of_rated_pos {growth acceleration weight : α} {samples : Nat} {current : UInt32}
    (h : 0 < rated growth acceleration samples current weight) : 0 < growth ∨ 0 < acceleration := by
  by_contra hneither
  rw [not_or, not_lt, not_lt] at hneither
  have hle := rated_le_percent growth acceleration weight samples current
  rw [momentum_of_nonpos hneither.1 hneither.2, zero_mul, zero_mul, percent_eq,
    max_eq_left (min_le_left _ _)] at hle
  exact absurd h (not_lt.2 hle)

end Trend

open Trend

variable {α : Type} [Field α] [LinearOrder α]

/-! ## Readings -/

theorem Reading.ofTotals_of_lt (peerConfidence : UInt32 → α) {totals : List UInt32} (h : totals.length < 2) :
    ofTotals peerConfidence totals = .insufficient (UInt32.ofNat totals.length) := by
  rw [ofTotals, growth?_eq_none h]

theorem Reading.ofTotals_pair (peerConfidence : UInt32 → α) (older : List UInt32) (previous current : UInt32) :
    ofTotals peerConfidence (older ++ [previous, current]) =
      .ready ⟨growthBetween previous current, shrink (growthBetween previous current),
        Trend.score peerConfidence (older ++ [previous, current]), UInt32.ofNat (older ++ [previous, current]).length⟩ := by
  rw [ofTotals, growth?_pair]

/-- A reading is wanting just when there are fewer than two totals, and says how many there are. -/
theorem Reading.ofTotals_eq_insufficient_iff (peerConfidence : UInt32 → α) (totals : List UInt32) (n : UInt32) :
    ofTotals peerConfidence totals = .insufficient n ↔ totals.length < 2 ∧ n.toNat = totals.length := by
  rcases Nat.lt_or_ge totals.length 2 with h | h
  · have hsize : (UInt32.ofNat totals.length).toNat = totals.length := UInt32.toNat_ofNat_of_lt' (h.trans (by decide))
    rw [ofTotals_of_lt peerConfidence h, insufficient.injEq, ← UInt32.toNat_inj, hsize, and_iff_right h, eq_comm]
  · obtain ⟨older, previous, current, rfl⟩ := exists_pair h
    rw [ofTotals_pair]
    exact iff_of_false (by simp only [reduceCtorEq, not_false_eq_true]) fun hfew => absurd hfew.1 (Nat.not_lt.2 h)

/-! ## Trends -/

variable [IsStrictOrderedRing α]

/-- What holds of a trend after two last totals, given the change of growth if that is known. -/
structure Snapshot.Sound (s : Snapshot α) (previous current : UInt32) (acceleration : Option α) : Prop where
  growth_ge : -100 ≤ s.growth
  growth_pos_iff : 0 < s.growth ↔ previous < current
  growth_neg_iff : s.growth < 0 ↔ current < previous
  shrink_eq : s.shrink = max 0 (-s.growth)
  shrink_nonneg : 0 ≤ s.shrink
  shrink_le : s.shrink ≤ 100
  /-- No swarm both grows and shrinks. -/
  apart : ¬ (0 < s.growth ∧ 0 < s.shrink)
  score_nonneg : 0 ≤ s.score
  score_le : s.score ≤ 100
  capped : current < 5 → s.score ≤ 30
  driven : 0 < s.score → 0 < s.growth ∨ ∃ change ∈ acceleration, 0 < change

theorem Snapshot.sound_pair (peerConfidence : UInt32 → α) (older : List UInt32) (previous current : UInt32) :
    Sound ⟨growthBetween previous current, Trend.shrink (growthBetween previous current),
      Trend.score peerConfidence (older ++ [previous, current]), UInt32.ofNat (older ++ [previous, current]).length⟩
      previous current (acceleration? (older ++ [previous, current])) := by
  have hloss : (-100 : α) ≤ growthBetween previous current := neg_hundred_le_growthBetween previous current
  have hscore := score_pair peerConfidence older previous current
  constructor <;> dsimp only
  case growth_ge => exact hloss
  case growth_pos_iff => exact growthBetween_pos_iff previous current
  case growth_neg_iff => exact growthBetween_neg_iff previous current
  case shrink_eq => exact Trend.shrink_eq _
  case shrink_nonneg =>
    rw [Trend.shrink_eq]
    exact le_max_left _ _
  case shrink_le =>
    rw [Trend.shrink_eq]
    exact max_le (by norm_num) (by linarith)
  case apart =>
    rintro ⟨hgrows, hshrinks⟩
    rw [Trend.shrink_eq, max_eq_left (by linarith)] at hshrinks
    exact lt_irrefl 0 hshrinks
  case score_nonneg => exact Trend.score_nonneg _ _
  case score_le =>
    rw [hscore]
    exact (rated_le_percent _ _ _ _ _).trans (percent_le_hundred _)
  case capped =>
    intro hsmall
    rw [hscore]
    exact rated_le_cap _ _ _ _ (UInt32.lt_iff_toNat_lt.1 hsmall)
  case driven =>
    intro hpos
    rw [hscore] at hpos
    refine (pos_of_rated_pos hpos).imp_right fun hchange => ?_
    cases h : (acceleration? (older ++ [previous, current]) : Option α) with
    | none =>
      rw [h, Option.getD_none, count_eq, Nat.cast_zero] at hchange
      exact absurd hchange (lt_irrefl 0)
    | some change =>
      rw [h, Option.getD_some] at hchange
      exact ⟨change, rfl, hchange⟩

/-- **The bounds of a reading.** Let the peers there are now weigh as any function of theirs, kept within 0 and 1. A
history of fewer than two totals has no trend and a score of zero, and the reading says how many totals there are.
Any other has a trend that is sound. Its growth, the change of it and all that is computed of them are numbers, and the
same ones, in an arithmetic without quotients by zero. -/
theorem reading_bounds (weight : UInt32 → α) (totals : List UInt32) :
    (∀ n, Reading.ofTotals (unit ∘ weight) totals = .insufficient n ↔ totals.length < 2 ∧ n.toNat = totals.length) ∧
    (totals.length < 2 → score (unit ∘ weight) totals = 0 ∧ (Reading.ofTotals (unit ∘ weight) totals).score = 0) ∧
    (∀ older previous current, totals = older ++ [previous, current] →
      ∃ s, Reading.ofTotals (unit ∘ weight) totals = .ready s ∧ s.score = score (unit ∘ weight) totals ∧
        s.Sound previous current (acceleration? totals)) ∧
    ∀ judge : Option α → Option α → Bool,
      (growth? totals : Option (Checked α judge)) = (growth? totals : Option α).map Checked.of ∧
      (acceleration? totals : Option (Checked α judge)) = (acceleration? totals : Option α).map Checked.of ∧
      (Reading.ofTotals (Checked.of ∘ unit ∘ weight) totals : Reading (Checked α judge)) =
        (Reading.ofTotals (unit ∘ weight) totals).map Checked.of := by
  refine ⟨Reading.ofTotals_eq_insufficient_iff _ totals, fun h => ⟨?_, ?_⟩, ?_, fun judge => ⟨of_growth? totals,
    of_acceleration? totals, Reading.ofTotals_checked _ totals⟩⟩
  · rw [score_of_lt _ h, count_eq, Nat.cast_zero]
  · rw [Reading.ofTotals_of_lt _ h, Reading.score, count_eq, Nat.cast_zero]
  · rintro older previous current rfl
    exact ⟨_, Reading.ofTotals_pair _ older previous current, rfl, Snapshot.sound_pair _ older previous current⟩

/-- One total is too few. Seven peers out of nothing and then four: a loss of some, and a score of none, for growth only
got worse. -/
theorem reading_bounds_shrinking :
    let weight := fun peers : UInt32 => (peers.toNat : Rat) / 10
    score (unit ∘ weight) [7] = 0 ∧ ∃ s, Reading.ofTotals (unit ∘ weight) [0, 7, 4] = .ready s ∧ s.growth < 0 ∧
      0 < s.shrink ∧ s.shrink ≤ 100 ∧ s.score ≤ 30 ∧ ¬ 0 < s.score := by
  intro weight
  obtain ⟨-, few, -⟩ := reading_bounds weight [7]
  obtain ⟨-, -, sound, -⟩ := reading_bounds weight [0, 7, 4]
  obtain ⟨s, heq, -, sound⟩ := sound [0] 7 4 rfl
  have hfalls : s.growth < 0 := sound.growth_neg_iff.2 (by decide)
  have hshrinks : 0 < s.shrink := by
    rw [sound.shrink_eq, max_eq_right (neg_nonneg.2 hfalls.le)]
    exact neg_pos.2 hfalls
  have hchange : (acceleration? [0, 7, 4] : Option Rat) = some (-1000 / 7) := by decide +kernel
  refine ⟨(few (by decide)).1, s, heq, hfalls, hshrinks, sound.shrink_le, sound.capped (by decide), fun hpos => ?_⟩
  obtain hgrows | ⟨change, hmem, hbetter⟩ := sound.driven hpos
  · exact absurd hgrows hfalls.not_gt
  · rw [hchange] at hmem
    cases hmem
    exact absurd hbetter (by norm_num)

/-- Twice as many and twice as many again, and all the weight that peers can have. -/
example : score (fun _ => (1 : Rat)) [10, 20, 40] = 40 := by decide +kernel

end SwarmSampler
