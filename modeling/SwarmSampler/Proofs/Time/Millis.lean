import SwarmSampler.Time.Stamp

/-
Instants and their milliseconds: what the milliseconds of an instant lie
between, and that an instant made of milliseconds gives them back.
-/

namespace SwarmSampler.Stamp

/-- The first millisecond of the calendar's range. -/
def firstMillis : Int := firstSecond * 1000

/-- The last millisecond of the calendar's range. -/
def lastMillis : Int := lastSecond * 1000 + 999

variable {ms : Int} {t : Stamp}

theorem ofParts?_eq_some {second : Int} {nano : Nat} (h : ofParts? second nano = some t) :
    t.second = second ∧ t.nano = nano := by
  unfold ofParts? at h
  split at h
  · cases h
    exact ⟨rfl, rfl⟩
  · cases h

/-- An instant made of milliseconds has just these. -/
theorem toMillis_of_ofMillis? (h : ofMillis? ms = some t) : t.toMillis = ms := by
  obtain ⟨hs, hn⟩ := ofParts?_eq_some h
  simp only [toMillis, hs, hn, Nat.mul_div_cancel _ (show 0 < 1_000_000 by decide)]
  omega

/-- Milliseconds name an instant just when they lie in the calendar's range. -/
theorem ofMillis?_isSome_iff : (ofMillis? ms).isSome ↔ firstMillis ≤ ms ∧ ms ≤ lastMillis := by
  have hr : (firstSecond ≤ ms / 1000 ∧ ms / 1000 ≤ lastSecond) ↔
      firstMillis ≤ ms ∧ ms ≤ lastMillis := by
    simp only [firstMillis, lastMillis]
    omega
  have hn : (ms % 1000).toNat * 1_000_000 < 1_000_000_000 := by omega
  unfold ofMillis? ofParts?
  by_cases h : firstMillis ≤ ms ∧ ms ≤ lastMillis
  · rw [dif_pos ⟨hr.2 h, .inl hn⟩]
    simp only [Option.isSome_some, h, and_self]
  · rw [dif_neg fun hc => h (hr.1 hc.1)]
    simp only [Option.isSome_none, Bool.false_eq_true, h]

theorem range_of_ofMillis? (h : ofMillis? ms = some t) : firstMillis ≤ ms ∧ ms ≤ lastMillis :=
  ofMillis?_isSome_iff.1 (by rw [h]; rfl)

end SwarmSampler.Stamp
