import Mathlib.Algebra.Order.Ring.Nat
import SwarmSampler.Text.Utf8
import SwarmSampler.Time.Stamp.Text

/-
Numbers in decimal, as many digits wide as they are told to be: what is written
is digits only, is read back as the number, and has just the width where the
number is not too large for it.
-/

namespace SwarmSampler.Text

/-- The last digits of a number, so many of them. -/
def lastDigits : Nat → Nat → List Char
  | 0, _ => []
  | width + 1, n => lastDigits width (n / 10) ++ [Nat.digitChar (n % 10)]

theorem isDigit_digitChar {n : Nat} (h : n < 10) : isDigit (Nat.digitChar n) = true := by
  decide +revert

theorem digitValue_digitChar {n : Nat} (h : n < 10) : digitValue (Nat.digitChar n) = n := by
  decide +revert

@[simp] theorem length_lastDigits (width n : Nat) : (lastDigits width n).length = width := by
  induction width generalizing n with
  | zero => rfl
  | succ width ih => rw [lastDigits, List.length_append, ih, List.length_singleton]

theorem isDigit_of_mem_lastDigits {width n : Nat} {c : Char} (h : c ∈ lastDigits width n) :
    isDigit c = true := by
  induction width generalizing n with
  | zero => cases h
  | succ width ih =>
    rcases List.mem_append.1 h with h | h
    · exact ih h
    · rw [List.mem_singleton.1 h]
      exact isDigit_digitChar (Nat.mod_lt n (by decide))

theorem readDigits_append_singleton (digits : List Char) (c : Char) :
    readDigits (digits ++ [c]) = 10 * readDigits digits + digitValue c := by
  rw [readDigits, List.foldl_append]
  rfl

/-- **Digits are read back as the number they were written for.** -/
theorem readDigits_lastDigits {width n : Nat} (h : n < 10 ^ width) : readDigits (lastDigits width n) = n := by
  induction width generalizing n with
  | zero =>
    obtain rfl : n = 0 := by omega
    rfl
  | succ width ih =>
    have hq : n / 10 < 10 ^ width := Nat.div_lt_of_lt_mul (by rwa [Nat.mul_comm, ← Nat.pow_succ])
    rw [lastDigits, readDigits_append_singleton, ih hq, digitValue_digitChar (Nat.mod_lt n (by decide))]
    omega

theorem lastDigits_zero (width : Nat) : lastDigits width 0 = List.replicate width '0' := by
  induction width with
  | zero => rfl
  | succ width ih =>
    rw [lastDigits, ih]
    exact List.replicate_succ'.symm

end SwarmSampler.Text

namespace SwarmSampler.Stamp

open Text

/-- A number that is not too large is padded to just the width. -/
theorem toList_padded {width n : Nat} (hw : 0 < width) (h : n < 10 ^ width) :
    (padded width n).toList = lastDigits width n := by
  simp only [padded, String.toList_ofList]
  induction width generalizing n with
  | zero => cases hw
  | succ width ih =>
    by_cases hn : n < 10
    · rw [Nat.toDigits_of_lt_base hn, lastDigits, Nat.div_eq_of_lt hn, lastDigits_zero, Nat.mod_eq_of_lt hn]
      rfl
    · have hq : n / 10 < 10 ^ width := Nat.div_lt_of_lt_mul (by rwa [Nat.mul_comm, ← Nat.pow_succ])
      have hw : 0 < width := Nat.pos_of_ne_zero fun hzero => by
        rw [hzero] at hq
        omega
      rw [Nat.toDigits_of_base_le (by decide) (by omega), List.length_append, lastDigits, ← ih hw hq]
      rw [List.length_singleton, Nat.add_sub_add_right, List.append_assoc]

end SwarmSampler.Stamp
