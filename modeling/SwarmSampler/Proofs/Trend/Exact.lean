import Mathlib.Algebra.Order.Field.Basic
import Mathlib.Data.Nat.Cast.Order.Field
import Mathlib.Tactic.Linarith
import Mathlib.Tactic.NormNum
import SwarmSampler.Trend

/-
Trends in exact arithmetic. What keeps a value within bounds is there the greatest
and the least of two; growth is positive, negative or none as the second total is
above, below or at the first; and only the last two totals matter for growth, only
the last three for its change.
-/

namespace SwarmSampler

/-- Exact arithmetic: that of an ordered field. -/
instance (priority := low) exactQuantity {α : Type} [Field α] [LinearOrder α] : Quantity α where
  count n := n
  less x y := decide (x < y)

namespace Trend

open Quantity

/-! ## Histories -/

section Histories

variable {α : Type} [Quantity α]

theorem growth?_cons (total : UInt32) {totals : List UInt32} (h : 2 ≤ totals.length) :
    (growth? (total :: totals) : Option α) = growth? totals := by
  match totals, h with
  | _ :: _ :: _, _ => rfl

theorem acceleration?_cons (total : UInt32) {totals : List UInt32} (h : 3 ≤ totals.length) :
    (acceleration? (total :: totals) : Option α) = acceleration? totals := by
  match totals, h with
  | _ :: _ :: _ :: _, _ => rfl

/-- What was there before the last two totals does not matter for growth. -/
theorem growth?_append (older : List UInt32) {totals : List UInt32} (h : 2 ≤ totals.length) :
    (growth? (older ++ totals) : Option α) = growth? totals := by
  induction older with
  | nil => rfl
  | cons total older ih =>
    have hlength : 2 ≤ (older ++ totals).length := List.length_append ▸ h.trans (Nat.le_add_left _ _)
    rw [List.cons_append, growth?_cons total hlength, ih]

/-- Nor what was there before the last three for its change. -/
theorem acceleration?_append (older : List UInt32) {totals : List UInt32} (h : 3 ≤ totals.length) :
    (acceleration? (older ++ totals) : Option α) = acceleration? totals := by
  induction older with
  | nil => rfl
  | cons total older ih =>
    have hlength : 3 ≤ (older ++ totals).length := List.length_append ▸ h.trans (Nat.le_add_left _ _)
    rw [List.cons_append, acceleration?_cons total hlength, ih]

theorem growth?_pair (older : List UInt32) (previous current : UInt32) :
    (growth? (older ++ [previous, current]) : Option α) = some (growthBetween previous current) :=
  growth?_append older (Nat.le_refl 2)

theorem acceleration?_triple (older : List UInt32) (first second third : UInt32) :
    (acceleration? (older ++ [first, second, third]) : Option α) =
      some (growthBetween second third - growthBetween first second) :=
  acceleration?_append older (Nat.le_refl 3)

theorem growth?_eq_none {totals : List UInt32} (h : totals.length < 2) : (growth? totals : Option α) = none := by
  match totals, h with
  | [], _ => rfl
  | [_], _ => rfl

theorem acceleration?_eq_none {totals : List UInt32} (h : totals.length < 3) :
    (acceleration? totals : Option α) = none := by
  match totals, h with
  | [], _ => rfl
  | [_], _ => rfl
  | [_, _], _ => rfl

/-- A history of two totals or more ends with two. -/
theorem exists_pair {totals : List UInt32} (h : 2 ≤ totals.length) :
    ∃ older previous current, totals = older ++ [previous, current] := by
  obtain rfl | ⟨shorter, current, rfl⟩ := totals.eq_nil_or_concat
  · cases h
  obtain rfl | ⟨older, previous, rfl⟩ := shorter.eq_nil_or_concat
  · exact absurd h (Nat.lt_irrefl 1)
  · exact ⟨older, previous, current, by rw [List.concat_eq_append, List.concat_eq_append, List.append_assoc]; rfl⟩

theorem exists_triple {totals : List UInt32} (h : 3 ≤ totals.length) :
    ∃ older first second third, totals = older ++ [first, second, third] := by
  obtain ⟨shorter, second, third, rfl⟩ := exists_pair (Nat.le_of_succ_le h)
  obtain rfl | ⟨older, first, rfl⟩ := shorter.eq_nil_or_concat
  · exact absurd h (Nat.lt_irrefl 2)
  · exact ⟨older, first, second, third, by rw [List.concat_eq_append, List.append_assoc]; rfl⟩

theorem getLastD_pair (older : List UInt32) (previous current : UInt32) :
    (older ++ [previous, current]).getLastD 0 = current := by
  rw [List.getLastD_eq_getLast?, List.getLast?_append]
  rfl

/-- What a score is made of, when there is one. -/
def rated (growth acceleration : α) (samples : Nat) (current : UInt32) (weight : α) : α :=
  let s := percent (momentum growth acceleration * sampleConfidence samples * weight)
  if current.toNat < peerFloor then least s (count floorCap) else s

theorem score_of_lt (peerConfidence : UInt32 → α) {totals : List UInt32} (h : totals.length < 2) :
    score peerConfidence totals = count 0 := by
  rw [score, growth?_eq_none h]

theorem score_pair (peerConfidence : UInt32 → α) (older : List UInt32) (previous current : UInt32) :
    score peerConfidence (older ++ [previous, current]) = rated (growthBetween previous current)
      ((acceleration? (older ++ [previous, current])).getD (count 0)) (older.length + 2) current
      (peerConfidence current) := by
  rw [score, growth?_pair]
  dsimp only
  rw [getLastD_pair, List.length_append, rated]
  rfl

end Histories

variable {α : Type} [Field α] [LinearOrder α]

@[simp] theorem count_eq (n : Nat) : (count n : α) = n := rfl

/-! ## Bounds that values are kept within -/

theorem unit_eq [IsStrictOrderedRing α] (x : α) : unit x = max 0 (min x 1) := by
  simp only [unit, less, decide_eq_true_eq, count_eq, Nat.cast_zero, Nat.cast_one]
  split
  · next hpos =>
    split
    · next hone => rw [min_eq_right hone.le, max_eq_right zero_le_one]
    · next hone => rw [min_eq_left (not_lt.1 hone), max_eq_right hpos.le]
  · next hpos => rw [max_eq_left ((min_le_left _ _).trans (not_lt.1 hpos))]

theorem least_eq (x y : α) : least x y = min x y := by
  simp only [least, less, decide_eq_true_eq]
  split
  · next h => rw [min_eq_right h.le]
  · next h => rw [min_eq_left (not_lt.1 h)]

theorem percent_eq [IsStrictOrderedRing α] (x : α) : percent x = max 0 (min x 100) := by
  simp only [percent, least_eq, less, decide_eq_true_eq, count_eq, Nat.cast_zero, Nat.cast_ofNat]
  split
  · next h => rw [max_eq_left ((min_le_left _ _).trans h.le)]
  · next h => rw [max_eq_right (le_min (not_lt.1 h) (by norm_num))]

theorem shrink_eq (growth : α) : shrink growth = max 0 (-growth) := by
  simp only [shrink, less, decide_eq_true_eq, count_eq, Nat.cast_zero]
  split
  · next h => rw [max_eq_right h.le]
  · next h => rw [max_eq_left (not_lt.1 h)]

theorem unit_nonneg [IsStrictOrderedRing α] (x : α) : 0 ≤ unit x := by
  rw [unit_eq]
  exact le_max_left _ _

theorem unit_mono [IsStrictOrderedRing α] {x y : α} (h : x ≤ y) : unit x ≤ unit y := by
  rw [unit_eq, unit_eq]
  exact max_le_max_left 0 (min_le_min_right 1 h)

theorem percent_nonneg [IsStrictOrderedRing α] (x : α) : 0 ≤ percent x := by
  rw [percent_eq]
  exact le_max_left _ _

theorem percent_le_hundred [IsStrictOrderedRing α] (x : α) : percent x ≤ 100 := by
  rw [percent_eq]
  exact max_le (by norm_num) (min_le_right _ _)

theorem percent_mono [IsStrictOrderedRing α] {x y : α} (h : x ≤ y) : percent x ≤ percent y := by
  rw [percent_eq, percent_eq]
  exact max_le_max_left 0 (min_le_min_right 100 h)

theorem unit_of_nonpos [IsStrictOrderedRing α] {x : α} (h : x ≤ 0) : unit x = 0 := by
  rw [unit_eq, max_eq_left ((min_le_left _ _).trans h)]

/-! ## Growth -/

theorem growthBetween_zero (current : UInt32) :
    (growthBetween 0 current : α) = if current = 0 then 0 else 100 := by
  rw [growthBetween, if_pos rfl]
  split
  · exact Nat.cast_zero
  · exact Nat.cast_ofNat

theorem growthBetween_of_ne {previous : UInt32} (h : previous ≠ 0) (current : UInt32) :
    (growthBetween previous current : α) = ((current.toNat : α) - previous.toNat) / previous.toNat * 100 := by
  rw [growthBetween, if_neg h]
  simp only [count_eq, Nat.cast_ofNat]

section Growth

variable [IsStrictOrderedRing α]

theorem toNat_pos_of_ne {total : UInt32} (h : total ≠ 0) : (0 : α) < total.toNat :=
  Nat.cast_pos.2 (Nat.pos_of_ne_zero fun h0 => h (UInt32.toNat_inj.1 h0))

/-- No swarm loses more than all its peers. -/
theorem neg_hundred_le_growthBetween (previous current : UInt32) : (-100 : α) ≤ growthBetween previous current := by
  by_cases h : previous = 0
  · rw [h, growthBetween_zero]
    split <;> norm_num
  · have hpos : (0 : α) < previous.toNat := toNat_pos_of_ne h
    have hcurrent : (0 : α) ≤ current.toNat := Nat.cast_nonneg _
    have hratio : (-1 : α) ≤ (current.toNat - previous.toNat) / previous.toNat := by
      rw [le_div_iff₀ hpos]
      linarith
    rw [growthBetween_of_ne h]
    linarith

theorem growthBetween_pos_iff (previous current : UInt32) :
    (0 : α) < growthBetween previous current ↔ previous < current := by
  by_cases h : previous = 0
  · rw [h, growthBetween_zero, UInt32.pos_iff_ne_zero]
    split
    · next h0 => exact iff_of_false (lt_irrefl 0) (not_not.2 h0)
    · next h0 => exact iff_of_true (by norm_num) h0
  · rw [growthBetween_of_ne h, mul_pos_iff_of_pos_right (by norm_num), div_pos_iff_of_pos_right (toNat_pos_of_ne h),
      sub_pos, Nat.cast_lt, UInt32.lt_iff_toNat_lt]

theorem growthBetween_neg_iff (previous current : UInt32) :
    (growthBetween previous current : α) < 0 ↔ current < previous := by
  by_cases h : previous = 0
  · rw [h, growthBetween_zero]
    refine iff_of_false (not_lt.2 ?_) UInt32.not_lt_zero
    split <;> norm_num
  · rw [growthBetween_of_ne h, ← lt_div_iff₀ (by norm_num), zero_div, div_lt_iff₀ (toNat_pos_of_ne h), zero_mul,
      sub_neg, Nat.cast_lt, UInt32.lt_iff_toNat_lt]

/-- The more peers there are now, the higher the growth. -/
theorem growthBetween_mono (previous : UInt32) {current other : UInt32} (h : current ≤ other) :
    (growthBetween previous current : α) ≤ growthBetween previous other := by
  have hle : (current.toNat : α) ≤ other.toNat := Nat.cast_le.2 (UInt32.le_iff_toNat_le.1 h)
  by_cases h0 : previous = 0
  · rw [h0, growthBetween_zero, growthBetween_zero]
    split
    · split <;> norm_num
    · next hcurrent =>
      rw [if_neg fun hother => hcurrent ?_]
      exact UInt32.le_zero_iff.1 (hother ▸ h)
  · have hpos : (0 : α) < previous.toNat := toNat_pos_of_ne h0
    rw [growthBetween_of_ne h0, growthBetween_of_ne h0]
    gcongr

end Growth

/-! ## Confidence and momentum -/

theorem momentum_eq (growth acceleration : α) :
    momentum growth acceleration = 60 * unit (growth / 100) + 40 * unit (acceleration / 100) := by
  simp only [momentum, count_eq, growthWeight, accelerationWeight, Nat.cast_ofNat]

variable [IsStrictOrderedRing α]

theorem sampleConfidence_nonneg (samples : Nat) : (0 : α) ≤ sampleConfidence samples := by
  simp only [sampleConfidence, count_eq]
  positivity

/-- More samples are trusted more. -/
theorem sampleConfidence_mono {samples more : Nat} (h : samples ≤ more) :
    (sampleConfidence samples : α) ≤ sampleConfidence more := by
  have hcapped : min samples sampleCap - 2 ≤ min more sampleCap - 2 := Nat.sub_le_sub_right (min_le_min_right _ h) 2
  simp only [sampleConfidence, count_eq]
  gcongr

theorem momentum_nonneg (growth acceleration : α) : 0 ≤ momentum growth acceleration := by
  rw [momentum_eq]
  linarith [unit_nonneg (growth / 100), unit_nonneg (acceleration / 100)]

/-- Without growth and without its own growth there is no momentum. -/
theorem momentum_of_nonpos {growth acceleration : α} (hgrowth : growth ≤ 0) (hacceleration : acceleration ≤ 0) :
    momentum growth acceleration = 0 := by
  rw [momentum_eq, unit_of_nonpos (div_nonpos_of_nonpos_of_nonneg hgrowth (by norm_num)),
    unit_of_nonpos (div_nonpos_of_nonpos_of_nonneg hacceleration (by norm_num)), mul_zero, mul_zero, add_zero]

/-! ## Scores -/

theorem rated_nonneg (growth acceleration weight : α) (samples : Nat) (current : UInt32) :
    0 ≤ rated growth acceleration samples current weight := by
  rw [rated, least_eq]
  split
  · exact le_min (percent_nonneg _) (Nat.cast_nonneg _)
  · exact percent_nonneg _

theorem score_nonneg (peerConfidence : UInt32 → α) (totals : List UInt32) : 0 ≤ score peerConfidence totals := by
  rcases Nat.lt_or_ge totals.length 2 with h | h
  · rw [score_of_lt peerConfidence h]
    exact Nat.cast_nonneg 0
  · obtain ⟨older, previous, current, rfl⟩ := exists_pair h
    rw [score_pair]
    exact rated_nonneg _ _ _ _ _

end Trend
end SwarmSampler
