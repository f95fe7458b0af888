import SwarmSampler.Proofs.Trend.Exact

/-
Trends never divide by zero. They are computed once more in an arithmetic that has
no quotient by zero, and no number made of such a quotient: the results are the exact
ones, all of them numbers.
-/

namespace SwarmSampler

/-- A number, or none where a quotient by zero was used. How none compares is left to a judge, for exact numbers do
not say; what holds whatever the judge says does not hold because a comparison hid a quotient by zero. -/
def Checked (α : Type) (_ : Option α → Option α → Bool) : Type := Option α

namespace Checked

variable {α : Type} [Field α] [LinearOrder α] {judge : Option α → Option α → Bool}

def of (x : α) : Checked α judge := some x

/-- The quotient of two numbers, none by zero. -/
def quotient? (x y : α) : Option α := if y = 0 then none else some (x / y)

/-- Numbers compare as they do, anything else as the judge says. -/
def lessBy (judge : Option α → Option α → Bool) : Option α → Option α → Bool
  | some x, some y => decide (x < y)
  | x, y => judge x y

instance : Quantity (Checked α judge) where
  add := Option.map₂ (· + ·)
  sub := Option.map₂ (· - ·)
  mul := Option.map₂ (· * ·)
  div x y := Option.bind x fun a => Option.bind y (quotient? a)
  neg := Option.map (- ·)
  count n := some n
  less := lessBy judge

open Quantity

theorem of_add (x y : α) : (of x + of y : Checked α judge) = of (x + y) := rfl

theorem of_sub (x y : α) : (of x - of y : Checked α judge) = of (x - y) := rfl

theorem of_mul (x y : α) : (of x * of y : Checked α judge) = of (x * y) := rfl

theorem of_neg (x : α) : (-of x : Checked α judge) = of (-x) := rfl

theorem of_count (n : Nat) : (count n : Checked α judge) = of (count n) := rfl

theorem of_less (x y : α) : less (of x : Checked α judge) (of y) = less x y := rfl

theorem of_div (x : α) {y : α} (h : y ≠ 0) : (of x / of y : Checked α judge) = of (x / y) := by
  show quotient? x y = some (x / y)
  rw [quotient?, if_neg h]

omit [Field α] [LinearOrder α] in
theorem of_ite (p : Prop) [Decidable p] (x y : α) : (if p then of x else of y : Checked α judge) = of (if p then x else y) :=
  (apply_ite of p x y).symm

end Checked

namespace Trend

open Quantity Checked

variable {α : Type} [Field α] [LinearOrder α] {judge : Option α → Option α → Bool}

/-! ## What only compares -/

theorem of_shrink (growth : α) : (shrink (of growth) : Checked α judge) = of (shrink growth) := by
  rw [shrink, shrink, of_count, of_neg, of_less, of_ite]

theorem of_unit (x : α) : (unit (of x) : Checked α judge) = of (unit x) := by
  rw [unit, unit, of_count, of_count, of_less, of_less, of_ite, of_ite]

theorem of_least (x y : α) : (least (of x) (of y) : Checked α judge) = of (least x y) := by
  rw [least, least, of_less, of_ite]

theorem of_percent (x : α) : (percent (of x) : Checked α judge) = of (percent x) := by
  rw [percent, percent, of_count, of_count, of_less, of_least, of_ite]

/-! ## What divides -/

variable [IsStrictOrderedRing α]

theorem count_ne_zero {n : Nat} (h : n ≠ 0) : (count n : α) ≠ 0 := Nat.cast_ne_zero.2 h

/-- Growth divides by the total before, and only where there was one. -/
theorem of_growthBetween (previous current : UInt32) :
    (growthBetween previous current : Checked α judge) = of (growthBetween previous current) := by
  rw [growthBetween, growthBetween]
  split
  · rw [of_count, of_count, of_ite]
  · next h =>
    have hprevious : (count previous.toNat : α) ≠ 0 := count_ne_zero fun h0 => h (UInt32.toNat_inj.1 h0)
    rw [of_count, of_count, of_count, of_sub, of_div _ hprevious, of_mul]

theorem of_growth? (totals : List UInt32) :
    (growth? totals : Option (Checked α judge)) = (growth? totals : Option α).map of := by
  rcases Nat.lt_or_ge totals.length 2 with h | h
  · rw [growth?_eq_none h, growth?_eq_none h]
    rfl
  · obtain ⟨older, previous, current, rfl⟩ := exists_pair h
    rw [growth?_pair, growth?_pair, of_growthBetween]
    rfl

theorem of_acceleration? (totals : List UInt32) :
    (acceleration? totals : Option (Checked α judge)) = (acceleration? totals : Option α).map of := by
  rcases Nat.lt_or_ge totals.length 3 with h | h
  · rw [acceleration?_eq_none h, acceleration?_eq_none h]
    rfl
  · obtain ⟨older, first, second, third, rfl⟩ := exists_triple h
    rw [acceleration?_triple, acceleration?_triple, of_growthBetween, of_growthBetween, of_sub]
    rfl

theorem of_sampleConfidence (samples : Nat) :
    (sampleConfidence samples : Checked α judge) = of (sampleConfidence samples) := by
  have htwo : (count 2 : α) ≠ 0 := count_ne_zero (by decide)
  have hcap : (count (sampleCap - 2) : α) ≠ 0 := count_ne_zero (by decide)
  simp only [sampleConfidence, of_count, of_div _ htwo, of_div _ hcap, of_mul, of_add]

theorem of_momentum (growth acceleration : α) :
    (momentum (of growth) (of acceleration) : Checked α judge) = of (momentum growth acceleration) := by
  have hhundred : (count 100 : α) ≠ 0 := count_ne_zero (by decide)
  simp only [momentum, of_count, of_div _ hhundred, of_unit, of_mul, of_add]

theorem of_score (peerConfidence : UInt32 → α) (totals : List UInt32) :
    (score (of ∘ peerConfidence) totals : Checked α judge) = of (score peerConfidence totals) := by
  have hacceleration : ((acceleration? totals).getD (count 0) : Checked α judge) =
      of ((acceleration? totals).getD (count 0)) := by
    rw [of_acceleration?, of_count, Option.getD_map]
  rw [score, score, of_growth?]
  cases (growth? totals : Option α) with
  | none => rfl
  | some growth =>
    dsimp only [Option.map_some]
    rw [hacceleration, Function.comp_apply, of_momentum, of_sampleConfidence, of_mul, of_mul, of_percent, of_count,
      of_least, of_ite]

end Trend

/-! ## Readings -/

/-- The trend with its numbers changed. -/
def Snapshot.map {α β : Type} (f : α → β) (s : Snapshot α) : Snapshot β :=
  ⟨f s.growth, f s.shrink, f s.score, s.samplesConsidered⟩

/-- The reading with the numbers of its trend changed. -/
def Reading.map {α β : Type} (f : α → β) : Reading α → Reading β
  | ready s => ready (s.map f)
  | insufficient n => insufficient n

theorem Reading.ofTotals_checked {α : Type} [Field α] [LinearOrder α] [IsStrictOrderedRing α]
    {judge : Option α → Option α → Bool} (peerConfidence : UInt32 → α) (totals : List UInt32) :
    (ofTotals (Checked.of ∘ peerConfidence) totals : Reading (Checked α judge)) =
      (ofTotals peerConfidence totals).map Checked.of := by
  rw [ofTotals, ofTotals, Trend.of_growth?, Trend.of_score]
  cases (Trend.growth? totals : Option α) with
  | none => rfl
  | some growth =>
    dsimp only [Option.map_some, map, Snapshot.map]
    rw [Trend.of_shrink]

end SwarmSampler
