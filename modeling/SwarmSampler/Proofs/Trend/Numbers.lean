import SwarmSampler.Proofs.Trend.Machine

/-
The trends of stored samples are numbers. A history has any totals, so growth may
be as large as it likes, but no step divides by nothing, takes an infinity from
another or weighs one with nothing: what a trend holds is never stored as a gap.
-/

namespace SwarmSampler

open Float.Model Machine

namespace Machine

/-- A machine number of magnitude below a power of two. -/
def Under (k : Int) (x : Float) : Prop := Below k x.toModel.unpack

instance (k : Int) : (f : UnpackedFloat) → Decidable (Below k f)
  | .zero _ => .isTrue trivial
  | .finite _ m e _ => inferInstanceAs (Decidable (totalExponent m e ≤ k))
  | .infinity _ | .notANumber => .isFalse id

instance (k : Int) (x : Float) : Decidable (Under k x) := inferInstanceAs (Decidable (Below _ _))

theorem Under.isNaN {k : Int} {x : Float} (h : Under k x) : x.isNaN = false :=
  Below.isNaN h

theorem Under.mul {j k : Int} {x y : Float} (hx : Under j x) (hy : Under k y) (h : -1022 ≤ j + k)
    (h' : j + k < 971) : Under (j + k + 1) (x * y) :=
  below_pack (below_mul hx hy h) (by omega) (by omega)

theorem Under.add {k : Int} {x y : Float} (hx : Under k x) (hy : Under k y) (h : -1022 ≤ k)
    (h' : k < 970) : Under (k + 2) (x + y) :=
  below_pack (below_add hx hy h) (by omega) (by omega)

theorem Under.sub {k : Int} {x y : Float} (hx : Under k x) (hy : Under k y) (h : -1022 ≤ k)
    (h' : k < 970) : Under (k + 2) (x - y) :=
  below_pack (below_sub hx hy h) (by omega) (by omega)

/-! ## Whole numbers -/

theorem normal_one : Normal (-52) (-52) (Float.ofBits 0x3FF0000000000000).toModel.unpack :=
  ⟨rfl, Int.le_refl _, Int.le_refl _⟩

theorem ofNat_eq {n : Nat} (h : n < 2 ^ 53) :
    Float.ofNat n = n.toUInt64.toFloat * Float.ofBits 0x3FF0000000000000 :=
  dif_pos ⟨h, Nat.zero_le _⟩

/-- The whole numbers that are counted here: neither zero nor infinite. -/
theorem normal_count {n : Nat} (h0 : n ≠ 0) (h : n < 2 ^ 32) :
    Normal (-52) (-17) (Quantity.count n : Float).toModel.unpack := by
  have hlog := (Nat.log2_lt h0).2 h
  have h64 : n.toUInt64.toNat = n := Nat.mod_eq_of_lt (by omega)
  have hn : Normal (n.log2 - 52) (n.log2 - 51) n.toUInt64.toFloat.toModel.unpack := by
    show Normal _ _ (UnpackedFloat.unpack _ (UnpackedFloat.pack _ (UnpackedFloat.ofNat _ n.toUInt64.toNat)))
    rw [h64]
    exact normal_pack (normal_ofNat h0) (by omega) (by omega)
  show Normal _ _ (Float.ofNat n).toModel.unpack
  rw [ofNat_eq (by omega)]
  exact (normal_pack (normal_mul hn normal_one (by omega)) (by omega) (by omega)).mono (by omega) (by omega)

theorem under_zero (k : Int) : Under k (Quantity.count 0) := trivial

theorem under_count {n : Nat} (h : n < 2 ^ 32) : Under 36 (Quantity.count n) := by
  rcases Nat.eq_zero_or_pos n with rfl | h0
  · exact under_zero 36
  · exact (normal_count (Nat.ne_of_gt h0) h).below (by omega)

/-! ## Comparing -/

theorem log2_unpack_le (b : BitVec 64) {s : UnpackedFloat.Sign} {m : Nat} {e : Int} {hm : 0 < m}
    (h : UnpackedFloat.unpack .binary64 b = .finite s m e hm) : m.log2 ≤ 52 := by
  rw [UnpackedFloat.unpack] at h
  dsimp only at h
  split at h
  · split at h <;> cases h
  · split at h
    · split at h
      · cases h
      · next hv =>
        cases h
        exact Nat.le_of_lt ((Nat.log2_lt (Nat.ne_of_gt hm)).2 (BitVec.isLt _))
    · cases h
      exact Nat.le_of_eq (log2_implicit _)

theorem less_iff (x y : Float) :
    Quantity.less x y = true ↔ x.toModel.unpack.compare y.toModel.unpack = some .lt := by
  show decide (decide (x.toModel.unpack.lt y.toModel.unpack = true) = true) = true ↔ _
  rw [decide_eq_true_iff, decide_eq_true_iff]
  exact beq_iff_eq

theorem unpack_count_one :
    ∃ h, (Quantity.count 1 : Float).toModel.unpack = .finite .positive (2 ^ 52) (-52) h :=
  ⟨by decide, rfl⟩

theorem unpack_count_zero : (Quantity.count 0 : Float).toModel.unpack = .zero .positive := rfl

/-- What is kept within 0 and 1 is about 1 at most, whatever it was. -/
theorem under_unit (x : Float) : Under 1 (Trend.unit x) := by
  have hlog (s m e h) : x.toModel.unpack = .finite s m e h → m.log2 ≤ 52 := log2_unpack_le _
  obtain ⟨h1, hone⟩ := unpack_count_one
  rw [Trend.unit]
  split
  · next hpos =>
    split
    · rw [Under, hone]
      exact Int.le_refl 1
    · next hle =>
      rw [less_iff, unpack_count_zero] at hpos
      rw [less_iff, hone] at hle
      rw [Under]
      generalize x.toModel.unpack = f at hpos hle hlog
      cases f with
      | zero => trivial
      | notANumber => cases hpos
      | infinity s =>
        cases s with
        | negative => cases hpos
        | positive => exact absurd rfl hle
      | finite s m e hm =>
        cases s with
        | negative => cases hpos
        | positive =>
          have hm := hlog _ _ _ _ rfl
          have he : e ≤ -52 := Int.not_lt.1 fun hlt => hle <| by
            show some ((compare (-52) e).then _) = _
            rw [Int.compare_eq_lt.2 hlt, Ordering.lt_then]
          show totalExponent m e ≤ 1
          rw [totalExponent]
          omega
  · exact under_zero 1

end Machine

open Machine Quantity

namespace Trend

/-- Any two totals give a number for the growth from one to the other. -/
theorem growthBetween_isNaN (previous current : UInt32) :
    (growthBetween previous current : Float).isNaN = false := by
  rw [growthBetween]
  split
  · split
    · exact (under_zero 0).isNaN
    · exact (under_count (by decide : growthFromZero < 2 ^ 32)).isNaN
  · next h =>
    -- The quotient needs no bound: a number times a hundred is a number.
    have hprevious := normal_count (fun h0 => h (UInt32.toNat_inj.1 h0)) previous.toNat_lt
    have hd : Under 38 ((count current.toNat : Float) - count previous.toNat) :=
      (under_count current.toNat_lt).sub (under_count previous.toNat_lt) (by decide) (by decide)
    have hq : (((count current.toNat - count previous.toNat) / count previous.toNat : Float)).isNaN = false :=
      isNaN_pack (isNaN_div hd hprevious)
    exact isNaN_pack (isNaN_mul hq (normal_count (by decide) (by decide)))

/-- The growth of a history is a number. -/
theorem growth?_isNaN {totals : List UInt32} {growth : Float} (h : growth? totals = some growth) :
    growth.isNaN = false := by
  fun_induction (growth? totals : Option Float) with
  | case1 | case2 => cases h
  | case3 previous current =>
    cases h
    exact growthBetween_isNaN previous current
  | case4 _ _ _ _ ih => exact ih h

/-- So is a loss. -/
theorem shrink_isNaN (growth : Float) : (shrink growth).isNaN = false := by
  rw [shrink]
  split
  · next hpos =>
    rw [less_iff] at hpos
    show (-growth).toModel.unpack.isNaN = false
    generalize (-growth).toModel.unpack = f at hpos
    cases f with
    | notANumber => cases hpos
    | zero | infinity | finite => rfl
  · exact (under_zero 0).isNaN

theorem under_momentum (growth acceleration : Float) : Under 40 (momentum growth acceleration) := by
  have hunit (n : Nat) (hn : n < 2 ^ 32) (x : Float) : Under 38 (count n * unit x) :=
    (under_count hn).mul (under_unit x) (by decide) (by decide)
  exact (hunit _ (by decide) _).add (hunit _ (by decide) _) (by decide) (by decide)

theorem under_sampleConfidence (samples : Nat) : Under 2 (sampleConfidence samples) := by
  rw [sampleConfidence]
  have h : min samples sampleCap - 2 < 4 := by
    rw [sampleCap]
    omega
  generalize min samples sampleCap - 2 = n at h
  match n, h with
  | 0, _ | 1, _ | 2, _ | 3, _ => decide +kernel

theorem under_peerConfidence (peers : UInt32) : Under 1 (peerConfidence peers) := under_unit _

theorem least_isNaN {x y : Float} (hx : x.isNaN = false) (hy : y.isNaN = false) :
    (least x y).isNaN = false := by
  rw [least]
  split <;> assumption

theorem percent_isNaN {x : Float} (hx : x.isNaN = false) : (percent x).isNaN = false := by
  rw [percent]
  split
  · exact (under_zero 0).isNaN
  · exact least_isNaN hx (under_count (by decide)).isNaN

/-- So is a score. -/
theorem score_isNaN (totals : List UInt32) : (score peerConfidence totals).isNaN = false := by
  rw [score]
  split
  · exact (under_zero 0).isNaN
  · next growth _ =>
    have hbase := (under_momentum growth ((acceleration? totals).getD (count 0))).mul
      (under_sampleConfidence totals.length) (by decide) (by decide)
    have hscore := hbase.mul (under_peerConfidence (totals.getLastD 0)) (by decide) (by decide)
    have hs := percent_isNaN hscore.isNaN
    dsimp only
    split
    · exact least_isNaN hs (under_count (by decide)).isNaN
    · exact hs

end Trend
end SwarmSampler
