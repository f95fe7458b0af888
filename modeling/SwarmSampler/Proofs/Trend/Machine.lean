import Mathlib
import SwarmSampler.Trend

/-
Machine numbers, as far as a trend needs them. Magnitudes are bounded by powers
of two, which says nothing exact but keeps sums and products of moderate numbers
from overflowing; whole numbers are neither zero, when they are not, nor
infinite. So none of the steps of a trend brings about a value that is no number.
-/

namespace SwarmSampler.Machine

open Float.Model Float.Model.UnpackedFloat

/-- Magnitude below a power of two. -/
def Below (k : Int) : UnpackedFloat → Prop
  | .zero _ => True
  | .finite _ m e _ => totalExponent m e ≤ k
  | .infinity _ => False
  | .notANumber => False

/-- A number with all its digits, not zero, of some exponents. -/
def Normal (lo hi : Int) : UnpackedFloat → Prop
  | .finite _ m e _ => m.log2 = 52 ∧ lo ≤ e ∧ e ≤ hi
  | _ => False

theorem Below.mono {j k : Int} {f : UnpackedFloat} (h : Below j f) (hk : j ≤ k) : Below k f := by
  cases f with
  | zero => trivial
  | finite s m e hm => exact Int.le_trans h hk
  | infinity | notANumber => exact h

theorem Below.isNaN {k : Int} {f : UnpackedFloat} (h : Below k f) : f.isNaN = false := by
  cases f with
  | notANumber => exact h.elim
  | zero | finite | infinity => rfl

theorem Normal.mono {lo hi lo' hi' : Int} {f : UnpackedFloat} (h : Normal lo hi f) (hlo : lo' ≤ lo)
    (hhi : hi ≤ hi') : Normal lo' hi' f := by
  cases f with
  | finite s m e hm => exact ⟨h.1, Int.le_trans hlo h.2.1, Int.le_trans h.2.2 hhi⟩
  | zero | infinity | notANumber => exact h.elim

theorem Normal.below {lo hi k : Int} {f : UnpackedFloat} (h : Normal lo hi f) (hk : hi + 53 ≤ k) :
    Below k f := by
  cases f with
  | finite s m e hm =>
    obtain ⟨hlog, -, hhi⟩ := h
    show totalExponent m e ≤ k
    rw [totalExponent, hlog]
    omega
  | zero | infinity | notANumber => exact h.elim

/-! ## Rounding -/

theorem log2_half (n : Nat) : (n / 2).log2 = n.log2 - 1 := by
  rw [Nat.log2_def n]
  split
  · exact (Nat.add_sub_cancel ..).symm
  · rw [Nat.div_eq_of_lt (by omega), Nat.log2_zero]

theorem log2_div_two_pow (n s : Nat) : (n / 2 ^ s).log2 = n.log2 - s := by
  induction s with
  | zero => rw [Nat.pow_zero, Nat.div_one, Nat.sub_zero]
  | succ s ih => rw [Nat.pow_succ, ← Nat.div_div_eq_div_mul, log2_half, ih, Nat.sub_sub]

theorem mantissa_shiftRight (x : ExtendedMantissa) (n : Nat) : (x >>> n).mantissa = x.mantissa / 2 ^ n := by
  show (n.repeat ExtendedMantissa.shiftRightOne x).mantissa = _
  induction n with
  | zero => rw [Nat.repeat, Nat.pow_zero, Nat.div_one]
  | succ n ih => rw [Nat.repeat, ExtendedMantissa.shiftRightOne, ih, Nat.div_div_eq_div_mul, Nat.pow_succ]

theorem roundedMantissa_bounds (x : ExtendedMantissa) :
    x.mantissa ≤ x.roundedMantissa ∧ x.roundedMantissa ≤ x.mantissa + 1 := by
  obtain ⟨m, r, s⟩ := x
  cases r <;> cases s <;>
    simp only [ExtendedMantissa.roundedMantissa, ExtendedMantissa.accuracy, Accuracy.roundToNearestEven] <;>
    omega

theorem mantissa_ofMantissaAndAccuracy (m : Nat) (a : Accuracy) :
    (ExtendedMantissa.ofMantissaAndAccuracy m a).mantissa = m := by
  unfold ExtendedMantissa.ofMantissaAndAccuracy
  split <;> rfl

/-- By how many digits a mantissa is shortened. -/
def excess (m : Nat) (e : Int) : Nat := (max (totalExponent m e - 53) (-1074) - e).toNat

theorem shiftToTargetExponent_eq (m : Nat) (e : Int) (a : Accuracy) :
    (shiftToTargetExponent .binary64 m e a).1.mantissa = m / 2 ^ excess m e ∧
      (shiftToTargetExponent .binary64 m e a).2 = e + excess m e := by
  refine ⟨?_, rfl⟩
  show (ExtendedMantissa.ofMantissaAndAccuracy m a >>> excess m e).mantissa = _
  rw [mantissa_shiftRight, mantissa_ofMantissaAndAccuracy]

/-- Rounding shortens a mantissa, may add one to it, and shortens it again. -/
theorem exists_rounded (s : Sign) (m : Nat) (e : Int) (a : Accuracy) :
    ∃ r, m / 2 ^ excess m e ≤ r ∧ r ≤ m / 2 ^ excess m e + 1 ∧
      let e' := e + excess m e
      let m' := r / 2 ^ excess r e'
      roundWithAccuracy .binary64 s m e a =
        if h : m' = 0 then .zero s else .finite s m' (e' + excess r e') (Nat.pos_of_ne_zero h) := by
  obtain ⟨hm, he⟩ := shiftToTargetExponent_eq m e a
  obtain ⟨hlo, hhi⟩ := roundedMantissa_bounds (shiftToTargetExponent .binary64 m e a).1
  rw [hm] at hlo hhi
  refine ⟨_, hlo, hhi, ?_⟩
  obtain ⟨hm', he'⟩ := shiftToTargetExponent_eq
    (shiftToTargetExponent .binary64 m e a).1.roundedMantissa (e + excess m e) .exact
  simp only [roundWithAccuracy, he, hm', he']

/-- Rounding at most doubles the bound. -/
theorem below_round {k : Int} {m : Nat} {e : Int} (h : totalExponent m e ≤ k) (hk : -1022 ≤ k) (s : Sign)
    (a : Accuracy) : Below (k + 1) (roundWithAccuracy .binary64 s m e a) := by
  obtain ⟨r, -, hr, heq⟩ := exists_rounded s m e a
  rw [heq]
  generalize hx : excess m e = x at hr
  generalize hy : excess r (e + x) = y
  have hlog := log2_div_two_pow m x
  have hlog' := log2_div_two_pow r y
  split
  · trivial
  · next hne =>
    -- The mantissa has at most one digit more than was left of it.
    have hlt : r < 2 ^ ((m / 2 ^ x).log2 + 2) := by
      have := @Nat.lt_log2_self (m / 2 ^ x)
      have := Nat.one_le_two_pow (n := (m / 2 ^ x).log2)
      rw [Nat.pow_succ] at *
      omega
    have hr0 : r ≠ 0 := by
      rintro rfl
      exact hne (Nat.zero_div _)
    have hrlog := (Nat.log2_lt hr0).2 hlt
    have hyr : y ≤ r.log2 := by
      refine Nat.le_of_not_lt fun hlt => hne (Nat.div_eq_of_lt ?_)
      exact (Nat.log2_lt hr0).1 hlt
    show totalExponent (r / 2 ^ y) (e + x + y) ≤ k + 1
    simp only [excess, totalExponent] at hx hy h ⊢
    omega

/-- Rounding a mantissa that has enough digits leaves just as many as there is place for. -/
theorem normal_round {m : Nat} {e : Int} (hm : 52 ≤ m.log2) (he : -1021 ≤ totalExponent m e) (s : Sign)
    (a : Accuracy) :
    Normal (totalExponent m e - 53) (totalExponent m e - 52) (roundWithAccuracy .binary64 s m e a) := by
  obtain ⟨r, hlo, hhi, heq⟩ := exists_rounded s m e a
  rw [heq]
  generalize hx : excess m e = x at hlo hhi
  generalize hy : excess r (e + x) = y
  simp only [excess, totalExponent] at hx he
  have hlog := log2_div_two_pow m x
  have hlog' := log2_div_two_pow r y
  have hq : (m / 2 ^ x).log2 = 52 := by omega
  have hq0 : m / 2 ^ x ≠ 0 := fun h0 => by
    rw [h0, Nat.log2_zero] at hq
    cases hq
  obtain ⟨hqlo, hqhi⟩ := (Nat.log2_eq_iff hq0).1 hq
  -- One more may carry into a new digit, which the second shift takes away.
  have hr : r.log2 = 52 ∨ r.log2 = 53 := by
    rcases Nat.lt_or_ge r (2 ^ 53) with hlt | hge
    · exact .inl ((Nat.log2_eq_iff (by omega)).2 ⟨Nat.le_trans hqlo hlo, hlt⟩)
    · exact .inr ((Nat.log2_eq_iff (by omega)).2 ⟨hge, by omega⟩)
  simp only [excess, totalExponent] at hy
  have hfinal : (r / 2 ^ y).log2 = 52 := by omega
  split
  · next h0 =>
    rw [h0, Nat.log2_zero] at hfinal
    cases hfinal
  · refine ⟨hfinal, ?_, ?_⟩ <;> simp only [totalExponent] <;> omega

/-! ## Storing -/

theorem toNat_implicit (v : BitVec 52) : (1#1 ++ v).toNat = 2 ^ 52 + v.toNat := by
  rw [BitVec.toNat_append, ← Nat.shiftLeft_add_eq_or_of_lt v.isLt]
  rfl

theorem log2_implicit (v : BitVec 52) : (1#1 ++ v).toNat.log2 = 52 := by
  have hlt := v.isLt
  rw [toNat_implicit]
  exact (Nat.log2_eq_iff (by omega)).2 ⟨by omega, by omega⟩

theorem pack_finite (s : Sign) (m : Nat) (e : Int) (hm : 0 < m) :
    UnpackedFloat.pack .binary64 (.finite s m e hm) =
      if 2048 ≤ (e + 1023 + 52).toNat + 1 then packedInfinity .binary64 s
      else if m.log2 + 1 = 53 then
        packComponents .binary64 s (BitVec.ofNat 11 (e + 1023 + 52).toNat) (BitVec.ofNat 52 m)
      else packComponents .binary64 s 0#11 (BitVec.ofNat 52 m) := rfl

/-- What is stored with an exponent of its own is a number with all its digits. -/
theorem normal_unpack (s : Sign) {b : Nat} (lo : 0 < b) (hi : b < 2047) (v : BitVec 52) :
    Normal (b - 1075) (b - 1075)
      (UnpackedFloat.unpack .binary64 (packComponents .binary64 s (BitVec.ofNat 11 b) v)) := by
  have hb : (BitVec.ofNat 11 b).toNat = b := by rw [BitVec.toNat_ofNat, Nat.mod_eq_of_lt (by omega)]
  have h1 : BitVec.ofNat 11 b ≠ -1#11 := fun h => by
    have h' := congrArg BitVec.toNat h
    rw [hb] at h'
    exact absurd h' (Nat.ne_of_lt hi)
  have h0 : BitVec.ofNat 11 b ≠ 0#11 := fun h => by
    have h' := congrArg BitVec.toNat h
    rw [hb] at h'
    exact absurd h' (Nat.ne_of_gt lo)
  rw [UnpackedFloat.unpack]
  simp only [unpackMantissa_packComponents, unpackExponent_packComponents, if_neg h1, if_neg h0, hb]
  exact ⟨log2_implicit v, Int.le_refl _, Int.le_refl _⟩

/-- What is stored without an exponent is next to nothing. -/
theorem below_subnormal (s : Sign) (v : BitVec 52) :
    Below (-1022) (UnpackedFloat.unpack .binary64 (packComponents .binary64 s 0#11 v)) := by
  rw [UnpackedFloat.unpack]
  simp only [unpackMantissa_packComponents, unpackExponent_packComponents]
  rw [if_neg (by decide), if_pos trivial]
  split
  · trivial
  · next hv =>
    have hlt := v.isLt
    have hlog : v.toNat.log2 < 52 := (Nat.log2_lt fun h => hv (BitVec.eq_of_toNat_eq h)).2 hlt
    show (v.toNat.log2 : Int) + 1 + ((0 : Int) - 1075 + 1) ≤ -1022
    omega

/-- Infinities are stored as such. -/
theorem isNaN_packedInfinity (s : Sign) :
    (UnpackedFloat.unpack .binary64 (packedInfinity .binary64 s)).isNaN = false := by
  rw [UnpackedFloat.unpack, packedInfinity]
  simp only [unpackMantissa_packComponents, unpackExponent_packComponents]
  rfl

theorem normal_pack {lo hi : Int} {f : UnpackedFloat} (h : Normal lo hi f) (hlo : -1074 ≤ lo) (hhi : hi ≤ 971) :
    Normal lo hi (UnpackedFloat.unpack .binary64 (UnpackedFloat.pack .binary64 f)) := by
  cases f with
  | finite s m e hm =>
    obtain ⟨hlog, hle, hge⟩ := h
    rw [pack_finite, if_neg (by omega), if_pos (by omega)]
    exact (normal_unpack s (by omega) (by omega) _).mono (by omega) (by omega)
  | zero | infinity | notANumber => exact h.elim

theorem below_pack {k : Int} {f : UnpackedFloat} (h : Below k f) (hlo : -1022 ≤ k) (hhi : k ≤ 971) :
    Below k (UnpackedFloat.unpack .binary64 (UnpackedFloat.pack .binary64 f)) := by
  cases f with
  | zero s => exact (below_subnormal s 0).mono hlo
  | finite s m e hm =>
    have hle : (m.log2 : Int) + 1 + e ≤ k := h
    rw [pack_finite, if_neg (by omega)]
    split
    · by_cases hb : (e + 1023 + 52).toNat = 0
      · rw [hb]
        exact (below_subnormal s _).mono hlo
      · exact (normal_unpack s (by omega) (by omega) _).below (by omega)
    · exact (below_subnormal s _).mono hlo
  | infinity | notANumber => exact h.elim

/-- What is a number stays one when it is stored. -/
theorem isNaN_pack {f : UnpackedFloat} (h : f.isNaN = false) :
    (UnpackedFloat.unpack .binary64 (UnpackedFloat.pack .binary64 f)).isNaN = false := by
  cases f with
  | notANumber => cases h
  | infinity s => exact isNaN_packedInfinity s
  | zero s => exact (below_subnormal s 0).isNaN
  | finite s m e hm =>
    rw [pack_finite]
    split
    · exact isNaN_packedInfinity s
    · split
      · by_cases hb : (e + 1023 + 52).toNat = 0
        · rw [hb]
          exact (below_subnormal s _).isNaN
        · exact ((normal_unpack s (by omega) (by omega) _).below (Int.le_refl _)).isNaN
      · exact (below_subnormal s _).isNaN

/-! ## Arithmetic -/

theorem isNaN_roundWithAccuracy (s : Sign) (m : Nat) (e : Int) (a : Accuracy) :
    (roundWithAccuracy .binary64 s m e a).isNaN = false := by
  obtain ⟨r, -, -, heq⟩ := exists_rounded s m e a
  rw [heq]
  split <;> rfl

theorem log2_mul_bounds {m n : Nat} (hm : m ≠ 0) (hn : n ≠ 0) :
    m.log2 + n.log2 ≤ (m * n).log2 ∧ (m * n).log2 ≤ m.log2 + n.log2 + 1 := by
  obtain ⟨hmlo, hmhi⟩ := (Nat.log2_eq_iff hm).1 rfl
  obtain ⟨hnlo, hnhi⟩ := (Nat.log2_eq_iff hn).1 rfl
  have hmn := Nat.mul_ne_zero hm hn
  constructor
  · rw [Nat.le_log2 hmn, Nat.pow_add]
    exact Nat.mul_le_mul hmlo hnlo
  · refine Nat.le_of_lt_succ ((Nat.log2_lt hmn).2 ?_)
    rw [show (m.log2 + n.log2 + 1).succ = (m.log2 + 1) + (n.log2 + 1) by omega, Nat.pow_add]
    exact Nat.mul_lt_mul'' hmhi hnhi

theorem below_mul {j k : Int} {f g : UnpackedFloat} (hf : Below j f) (hg : Below k g) (h : -1022 ≤ j + k) :
    Below (j + k + 1) (mul .binary64 f g) := by
  cases f with
  | infinity | notANumber => exact hf.elim
  | zero =>
    cases g with
    | infinity | notANumber => exact hg.elim
    | zero | finite => trivial
  | finite s m e hm =>
    cases g with
    | infinity | notANumber => exact hg.elim
    | zero => trivial
    | finite s' m' e' hm' =>
      have hlog := (log2_mul_bounds (Nat.ne_of_gt hm) (Nat.ne_of_gt hm')).2
      simp only [Below, totalExponent] at hf hg
      refine below_round ?_ h _ _
      rw [totalExponent]
      omega

theorem normal_mul {lo hi lo' hi' : Int} {f g : UnpackedFloat} (hf : Normal lo hi f) (hg : Normal lo' hi' g)
    (h : -1126 ≤ lo + lo') : Normal (lo + lo' + 52) (hi + hi' + 54) (mul .binary64 f g) := by
  cases f with
  | zero | infinity | notANumber => exact hf.elim
  | finite s m e hm =>
    cases g with
    | zero | infinity | notANumber => exact hg.elim
    | finite s' m' e' hm' =>
      obtain ⟨hlo, hhi⟩ := log2_mul_bounds (Nat.ne_of_gt hm) (Nat.ne_of_gt hm')
      obtain ⟨hlog, he⟩ := hf
      obtain ⟨hlog', he'⟩ := hg
      refine (normal_round (by omega) ?_ _ _).mono ?_ ?_ <;> rw [totalExponent] <;> omega

/-- A product with a number that is neither zero nor infinite. -/
theorem isNaN_mul {lo hi : Int} {f g : UnpackedFloat} (hf : f.isNaN = false) (hg : Normal lo hi g) :
    (mul .binary64 f g).isNaN = false := by
  cases g with
  | zero | infinity | notANumber => exact hg.elim
  | finite s' m' e' hm' =>
    cases f with
    | notANumber => cases hf
    | zero | infinity => rfl
    | finite s m e hm => exact isNaN_roundWithAccuracy ..

/-- A quotient by a number that is neither zero nor infinite. -/
theorem isNaN_div {k lo hi : Int} {f g : UnpackedFloat} (hf : Below k f) (hg : Normal lo hi g) :
    (div .binary64 f g).isNaN = false := by
  cases g with
  | zero | infinity | notANumber => exact hg.elim
  | finite s' m' e' hm' =>
    cases f with
    | infinity | notANumber => exact hf.elim
    | zero => rfl
    | finite s m e hm => exact isNaN_roundWithAccuracy ..

theorem log2_shiftLeft {m : Nat} (hm : m ≠ 0) (n : Nat) : (m <<< n).log2 = m.log2 + n := by
  obtain ⟨hlo, hhi⟩ := (Nat.log2_eq_iff hm).1 rfl
  have hpos := Nat.two_pow_pos n
  rw [Nat.shiftLeft_eq, Nat.log2_eq_iff (Nat.mul_ne_zero hm (Nat.ne_of_gt hpos))]
  refine ⟨?_, ?_⟩
  · rw [Nat.pow_add]
    exact Nat.mul_le_mul_right _ hlo
  · rw [Nat.add_right_comm, Nat.pow_add]
    exact Nat.mul_lt_mul_of_pos_right hhi hpos

theorem totalExponent_shiftLeft {m : Nat} (hm : m ≠ 0) (e : Int) (n : Nat) :
    totalExponent (m <<< n) (e - n) = totalExponent m e := by
  rw [totalExponent, totalExponent, log2_shiftLeft hm]
  omega

/-- Rounding after making place for all digits. -/
theorem round_eq (s : Sign) (m : Nat) (e : Int) :
    ∃ n : Nat, (n : Int) = max 0 (e - max (totalExponent m e - 53) (-1074)) ∧
      round .binary64 s m e = roundWithAccuracy .binary64 s (m <<< n) (e - n) .exact :=
  ⟨(e - max (totalExponent m e - 53) (-1074)).toNat, by omega, rfl⟩

theorem below_normalize {k : Int} {n e : Int} (h : n ≠ 0 → totalExponent n.natAbs e ≤ k) (hk : -1022 ≤ k)
    (s : Sign) : Below (k + 1) (UnpackedFloat.normalize .binary64 n e s) := by
  have hround (s : Sign) {m : Nat} (hm : m ≠ 0) (ht : totalExponent m e ≤ k) :
      Below (k + 1) (round .binary64 s m e) := by
    obtain ⟨x, -, heq⟩ := round_eq s m e
    rw [heq]
    exact below_round (totalExponent_shiftLeft hm e x ▸ ht) hk _ _
  rw [UnpackedFloat.normalize]
  split
  · next hlt =>
    rw [Int.compare_eq_lt] at hlt
    refine hround _ (by omega) ?_
    rw [show (-n).toNat = n.natAbs by omega]
    exact h (by omega)
  · trivial
  · next hgt =>
    rw [Int.compare_eq_gt] at hgt
    refine hround _ (by omega) ?_
    rw [show n.toNat = n.natAbs by omega]
    exact h (by omega)

theorem log2_le_of_le_add {n p q : Nat} (hn : n ≠ 0) (h : n ≤ p + q) : n.log2 ≤ max p.log2 q.log2 + 1 := by
  refine Nat.le_of_lt_succ ((Nat.log2_lt hn).2 ?_)
  have hp : p < 2 ^ (max p.log2 q.log2 + 1) :=
    Nat.lt_of_lt_of_le Nat.lt_log2_self (Nat.pow_le_pow_right (by decide) (by omega))
  have hq : q < 2 ^ (max p.log2 q.log2 + 1) :=
    Nat.lt_of_lt_of_le Nat.lt_log2_self (Nat.pow_le_pow_right (by decide) (by omega))
  rw [Nat.pow_succ]
  omega

/-- A sum of two mantissas brought to one exponent. -/
theorem below_aligned {k : Int} {m m' : Nat} {e e' n : Int} (hm : 0 < m) (hm' : 0 < m')
    (hf : totalExponent m e ≤ k) (hg : totalExponent m' e' ≤ k) (h : -1022 ≤ k)
    (hn : n.natAbs ≤ m <<< (e - min e e').toNat + m' <<< (e' - min e e').toNat) (z : Sign) :
    Below (k + 2) (UnpackedFloat.normalize .binary64 n (min e e') z) := by
  refine (below_normalize (k := k + 1) (fun hn0 => ?_) (by omega) z).mono (by omega)
  have hlog := log2_le_of_le_add (by omega) hn
  rw [log2_shiftLeft (Nat.ne_of_gt hm), log2_shiftLeft (Nat.ne_of_gt hm')] at hlog
  simp only [totalExponent] at hf hg ⊢
  omega

theorem natAbs_apply (s : Sign) (m : Nat) : (s.apply m).natAbs = m := by
  cases s with
  | negative => exact Int.natAbs_neg m
  | positive => rfl

theorem below_add {k : Int} {f g : UnpackedFloat} (hf : Below k f) (hg : Below k g) (h : -1022 ≤ k) :
    Below (k + 2) (add .binary64 f g) := by
  cases f with
  | infinity | notANumber => exact hf.elim
  | zero s =>
    cases g with
    | infinity | notANumber => exact hg.elim
    | zero s' =>
      show Below _ (if s == s' then _ else _)
      split <;> trivial
    | finite => exact hg.mono (by omega)
  | finite s m e hm =>
    cases g with
    | infinity | notANumber => exact hg.elim
    | zero => exact hf.mono (by omega)
    | finite s' m' e' hm' =>
      refine below_aligned hm hm' hf hg h ?_ _
      refine Nat.le_trans (Int.natAbs_add_le ..) (Nat.le_of_eq ?_)
      rw [natAbs_apply, natAbs_apply]

theorem below_sub {k : Int} {f g : UnpackedFloat} (hf : Below k f) (hg : Below k g) (h : -1022 ≤ k) :
    Below (k + 2) (sub .binary64 f g) := by
  cases f with
  | infinity | notANumber => exact hf.elim
  | zero s =>
    cases g with
    | infinity | notANumber => exact hg.elim
    | zero s' =>
      show Below _ (if s == -s' then _ else _)
      split <;> trivial
    | finite s' m' e' hm' => exact Below.mono (f := .finite (-s') m' e' hm') hg (by omega)
  | finite s m e hm =>
    cases g with
    | infinity | notANumber => exact hg.elim
    | zero => exact hf.mono (by omega)
    | finite s' m' e' hm' =>
      refine below_aligned hm hm' hf hg h ?_ _
      refine Nat.le_trans (Int.natAbs_sub_le ..) (Nat.le_of_eq ?_)
      rw [natAbs_apply, natAbs_apply]

/-- A positive whole number has all its digits. -/
theorem normal_ofNat {n : Nat} (h : n ≠ 0) :
    Normal (n.log2 - 52) (n.log2 - 51) (UnpackedFloat.ofNat .binary64 n) := by
  show Normal _ _ (UnpackedFloat.normalize .binary64 (n : Int) 0 .positive)
  have hgt : compare (n : Int) 0 = .gt := by rw [Int.compare_eq_gt]; omega
  rw [UnpackedFloat.normalize, hgt]
  obtain ⟨x, hx, heq⟩ := round_eq .positive n 0
  have ht := totalExponent_shiftLeft h 0 x
  show Normal _ _ (round .binary64 .positive n 0)
  rw [heq]
  rw [totalExponent] at hx
  refine (normal_round ?_ ?_ _ _).mono ?_ ?_
  · rw [log2_shiftLeft h]
    omega
  all_goals rw [ht, totalExponent]; omega

end SwarmSampler.Machine
