import Mathlib.Analysis.SpecialFunctions.Log.Base
import SwarmSampler.Proofs.Trend.Exact

/-
A score falls with none of the things it is made of: growth, its change where it is
positive, the number of samples and the peers there are now. The cap of small swarms
does not spoil this, for it binds those with few peers only.
-/

namespace SwarmSampler.Trend

open Quantity

variable {α : Type} [Field α] [LinearOrder α]

/-! ## The parts of a score -/

/-- The cap of small swarms: a swarm that has grown out of it was capped before, or not. -/
theorem capped_mono {x y : α} {current current' : UInt32} (hxy : x ≤ y) (hcurrent : current ≤ current') :
    (if current.toNat < peerFloor then least x (count floorCap) else x) ≤
      if current'.toNat < peerFloor then least y (count floorCap) else y := by
  have hle : current.toNat ≤ current'.toNat := UInt32.le_iff_toNat_le.1 hcurrent
  simp only [least_eq]
  split
  · split
    · exact min_le_min_right _ hxy
    · exact (min_le_left _ _).trans hxy
  · next hlarge =>
    rw [if_neg fun hsmall => hlarge (hle.trans_lt hsmall)]
    exact hxy

variable [IsStrictOrderedRing α]

/-- A change of growth that is negative counts as none. -/
theorem unit_mono_of_max {x y : α} (h : max x 0 ≤ max y 0) : unit (x / 100) ≤ unit (y / 100) := by
  rcases le_or_gt x 0 with hx | hx
  · rw [unit_of_nonpos (div_nonpos_of_nonpos_of_nonneg hx (by norm_num))]
    exact unit_nonneg _
  · have hxy : x ≤ y := by
      rcases le_max_iff.1 ((le_max_left x 0).trans h) with hxy | hx0
      · exact hxy
      · exact absurd hx (not_lt.2 hx0)
    exact unit_mono (by gcongr)

theorem momentum_mono {growth growth' acceleration acceleration' : α} (hgrowth : growth ≤ growth')
    (hacceleration : max acceleration 0 ≤ max acceleration' 0) :
    momentum growth acceleration ≤ momentum growth' acceleration' := by
  have hfirst : unit (growth / 100) ≤ unit (growth' / 100) := unit_mono (by gcongr)
  have hsecond := unit_mono_of_max hacceleration
  rw [momentum_eq, momentum_eq]
  linarith

/-- Whatever a score is made of, it rises with it. -/
theorem rated_mono {growth growth' acceleration acceleration' weight weight' : α} {samples samples' : Nat}
    {current current' : UInt32} (hgrowth : growth ≤ growth')
    (hacceleration : max acceleration 0 ≤ max acceleration' 0) (hsamples : samples ≤ samples')
    (hcurrent : current ≤ current') (hweight : 0 ≤ weight) (hweights : weight ≤ weight') :
    rated growth acceleration samples current weight ≤ rated growth' acceleration' samples' current' weight' := by
  have hbase : momentum growth acceleration * sampleConfidence samples ≤
      momentum growth' acceleration' * sampleConfidence samples' :=
    mul_le_mul (momentum_mono hgrowth hacceleration) (sampleConfidence_mono hsamples) (sampleConfidence_nonneg _)
      (momentum_nonneg _ _)
  have hproduct := mul_le_mul hbase hweights hweight (mul_nonneg (momentum_nonneg _ _) (sampleConfidence_nonneg _))
  exact capped_mono (percent_mono hproduct) hcurrent

/-! ## Histories -/

variable {weight : UInt32 → α}

theorem score_mono (rising : ∀ m n, m ≤ n → weight m ≤ weight n) {first second : List UInt32} (hfirst : 2 ≤ first.length)
    (hsecond : 2 ≤ second.length) (hgrowth : (growth? first).getD 0 ≤ ((growth? second).getD 0 : α))
    (hacceleration : max ((acceleration? first).getD 0) 0 ≤ (max ((acceleration? second).getD 0) 0 : α))
    (hlength : first.length ≤ second.length) (hcurrent : first.getLastD 0 ≤ second.getLastD 0) :
    score (unit ∘ weight) first ≤ score (unit ∘ weight) second := by
  obtain ⟨older, previous, current, rfl⟩ := exists_pair hfirst
  obtain ⟨older', previous', current', rfl⟩ := exists_pair hsecond
  simp only [growth?_pair, getLastD_pair, List.length_append, List.length_cons, List.length_nil, Option.getD_some]
    at hgrowth hlength hcurrent
  rw [score_pair, score_pair, count_eq, Nat.cast_zero]
  exact rated_mono hgrowth hacceleration hlength hcurrent (unit_nonneg _) (unit_mono (rising _ _ hcurrent))

/-- More peers at the end make no smaller change of growth. -/
theorem acceleration?_mono (older : List UInt32) (previous : UInt32) {current current' : UInt32} (h : current ≤ current') :
    max ((acceleration? (older ++ [previous, current])).getD 0) 0 ≤
      (max ((acceleration? (older ++ [previous, current'])).getD 0) 0 : α) := by
  obtain rfl | ⟨shorter, first, rfl⟩ := older.eq_nil_or_concat
  · exact le_refl _
  · simp only [List.concat_eq_append, List.append_assoc, List.singleton_append, acceleration?_triple]
    exact max_le_max_right 0 (sub_le_sub_right (growthBetween_mono previous h) _)

theorem score_mono_last (rising : ∀ m n, m ≤ n → weight m ≤ weight n) (older : List UInt32) {current current' : UInt32}
    (h : current ≤ current') :
    score (unit ∘ weight) (older ++ [current]) ≤ score (unit ∘ weight) (older ++ [current']) := by
  obtain rfl | ⟨shorter, previous, rfl⟩ := older.eq_nil_or_concat
  · exact le_refl _
  · simp only [List.concat_eq_append, List.append_assoc, List.singleton_append]
    have htwo (c : UInt32) : 2 ≤ (shorter ++ [previous, c]).length := List.length_append ▸ Nat.le_add_left _ _
    refine score_mono rising (htwo _) (htwo _) ?_ (acceleration?_mono shorter previous h) ?_ ?_
    · rw [growth?_pair, growth?_pair]
      exact growthBetween_mono previous h
    · rw [List.length_append, List.length_append]
      rfl
    · rw [getLastD_pair, getLastD_pair]
      exact h

omit [IsStrictOrderedRing α] in
/-- Older totals make the change of growth known where there were two totals only. -/
theorem acceleration?_le_append (older totals : List UInt32) :
    max ((acceleration? totals).getD 0) 0 ≤ (max ((acceleration? (older ++ totals)).getD 0) 0 : α) := by
  rcases Nat.lt_or_ge totals.length 3 with hshort | hlong
  · rw [acceleration?_eq_none hshort]
    exact max_le (le_max_right _ _) (le_max_right _ _)
  · rw [acceleration?_append older hlong]

theorem score_le_append (rising : ∀ m n, m ≤ n → weight m ≤ weight n) (older totals : List UInt32) :
    score (unit ∘ weight) totals ≤ score (unit ∘ weight) (older ++ totals) := by
  rcases Nat.lt_or_ge totals.length 2 with hshort | hlong
  · rw [score_of_lt _ hshort, count_eq, Nat.cast_zero]
    exact score_nonneg _ _
  · have hlength : totals.length ≤ (older ++ totals).length := List.length_append ▸ Nat.le_add_left _ _
    have hlast : totals.getLastD 0 = (older ++ totals).getLastD 0 := by
      obtain ⟨shorter, previous, current, rfl⟩ := exists_pair hlong
      rw [← List.append_assoc, getLastD_pair, getLastD_pair]
    refine score_mono rising hlong (hlong.trans hlength) ?_ (acceleration?_le_append older totals) hlength
      (UInt32.le_of_eq hlast)
    rw [growth?_append older hlong]

/-- **A score falls with nothing it is made of.** Let the peers there are now weigh as some function of theirs that
does not fall, kept within 0 and 1. A history with no less growth, no less change of growth, one that is negative or
unknown counted as none, no fewer samples and no fewer peers at its end has no lower score. So more peers at the end
of a history never lower its score, and neither do older totals in front of it. -/
theorem score_rising (weight : UInt32 → α) (rising : ∀ m n, m ≤ n → weight m ≤ weight n) :
    (∀ first second : List UInt32, 2 ≤ first.length → 2 ≤ second.length →
      (growth? first).getD 0 ≤ ((growth? second).getD 0 : α) →
      max ((acceleration? first).getD 0) 0 ≤ (max ((acceleration? second).getD 0) 0 : α) →
      first.length ≤ second.length → first.getLastD 0 ≤ second.getLastD 0 →
      score (unit ∘ weight) first ≤ score (unit ∘ weight) second) ∧
    (∀ (older : List UInt32) (current current' : UInt32), current ≤ current' →
      score (unit ∘ weight) (older ++ [current]) ≤ score (unit ∘ weight) (older ++ [current'])) ∧
    ∀ older totals : List UInt32, score (unit ∘ weight) totals ≤ score (unit ∘ weight) (older ++ totals) :=
  ⟨fun _ _ hfirst hsecond hgrowth hacceleration hlength hcurrent =>
    score_mono rising hfirst hsecond hgrowth hacceleration hlength hcurrent,
    fun older _ _ h => score_mono_last rising older h, score_le_append rising⟩

/-- What peers weigh in exact numbers: the ratio of logarithms, one at the saturation. -/
noncomputable def logarithmic (peers : UInt32) : ℝ :=
  Real.logb 10 (1 + count peers.toNat) / Real.logb 10 (1 + count peerSaturation)

theorem logarithmic_mono (m n : UInt32) (h : m ≤ n) : logarithmic m ≤ logarithmic n := by
  have hle : (m.toNat : ℝ) ≤ n.toNat := Nat.cast_le.2 (UInt32.le_iff_toNat_le.1 h)
  have hm : (0 : ℝ) ≤ m.toNat := Nat.cast_nonneg _
  have hsaturation : 0 ≤ Real.logb 10 (1 + count peerSaturation) :=
    Real.logb_nonneg (by norm_num) (le_add_of_nonneg_right (Nat.cast_nonneg _))
  refine div_le_div_of_nonneg_right (Real.logb_le_logb_of_le (by norm_num) ?_ ?_) hsaturation
  · rw [count_eq]
    linarith
  · rw [count_eq, count_eq]
    linarith

/-- From twelve peers after ten to thirteen after ten and ten: more growth, a change of it, one more sample and one more
peer. -/
theorem score_rising_logarithmic :
    score (unit ∘ logarithmic) [10, 12] ≤ score (unit ∘ logarithmic) [10, 10, 13] ∧
      score (unit ∘ logarithmic) [10, 10, 12] ≤ score (unit ∘ logarithmic) [10, 10, 13] ∧
      score (unit ∘ logarithmic) [10, 13] ≤ score (unit ∘ logarithmic) [10, 10, 13] := by
  obtain ⟨mono, last, front⟩ := score_rising logarithmic logarithmic_mono
  have hgrowth : (growth? [10, 12]).getD 0 ≤ ((growth? [10, 10, 13]).getD 0 : ℝ) := growthBetween_mono 10 (by decide)
  have hacceleration : max ((acceleration? [10, 12]).getD 0) 0 ≤ (max ((acceleration? [10, 10, 13]).getD 0) 0 : ℝ) :=
    max_le (le_max_right _ _) (le_max_right _ _)
  exact ⟨mono [10, 12] [10, 10, 13] (by decide) (by decide) hgrowth hacceleration (by decide) (by decide),
    last [10, 10] 12 13 (by decide), front [10] [10, 13]⟩

end SwarmSampler.Trend
