import SwarmSampler.Proofs.Text.Digits
import SwarmSampler.Proofs.Time.Calendar

/-
Instants as text and back. An instant whose year has four digits is read back
from its text just as it was, leap seconds and all; the text of any other begins
with a sign, which the strict reader refuses.
-/

namespace SwarmSampler.Stamp

open Text

/-- The date an instant lies on. -/
def date (s : Stamp) : Date := Date.ofDays (s.second / 86400)

/-- The year of the instant has four digits. -/
def FourDigit (s : Stamp) : Prop := 0 ≤ s.date.year ∧ s.date.year ≤ 9999

instance (s : Stamp) : Decidable s.FourDigit := inferInstanceAs (Decidable (_ ∧ _))

/-- From the beginning of the year 1970 to the end of the year 9999 all years have four digits. -/
theorem fourDigit_of_le {s : Stamp} (h : 0 ≤ s.second ∧ s.second < 253_402_300_800) : s.FourDigit := by
  have hfirst : (Date.ofDays 0).year = 1970 := by decide
  have hlast : (Date.ofDays 2_932_896).year = 9999 := by decide
  have hlow : (Date.ofDays 0).year ≤ s.date.year := Date.year_mono (by omega)
  have hhigh : s.date.year ≤ (Date.ofDays 2_932_896).year := Date.year_mono (by omega)
  exact ⟨by omega, by omega⟩

/-! ## The text -/

/-- The time of day to the second, and the decimals and the offset after it. -/
def clockChars (ending : List Char) (s : Stamp) : List Char :=
  let inDay := (s.second % 86400).toNat
  lastDigits 2 (inDay / 3600) ++ ':' :: (lastDigits 2 (inDay / 60 % 60) ++ ':' ::
    (lastDigits 2 (inDay % 60 + s.nano / 1_000_000_000) ++
      ((decimalsText (s.nano % 1_000_000_000)).toList ++ ending)))

/-- What follows the year. -/
def afterYear (ending : List Char) (s : Stamp) : List Char :=
  '-' :: (lastDigits 2 s.date.month ++ '-' :: (lastDigits 2 s.date.day ++ 'T' :: s.clockChars ending))

theorem date_exists (s : Stamp) : s.date.Exists := (Date.ofDays_spec _).2

theorem toList_textWith (offset : String) (s : Stamp) :
    (s.textWith offset).toList = (yearText s.date.year).toList ++ s.afterYear offset.toList := by
  obtain ⟨-, hmonth, -, hday⟩ := s.date_exists
  have hlength := Date.monthLength_le s.date.year s.date.month
  have hsecond : (s.second % 86400).toNat < 86400 := by omega
  have hnano := s.nano_range
  simp only [textWith, String.toList_append]
  rw [← date, toList_padded (by decide) (by omega), toList_padded (by decide) (by omega),
    toList_padded (by decide) (by omega), toList_padded (by decide) (by omega),
    toList_padded (by decide) (by omega)]
  simp [afterYear, clockChars]

theorem toList_yearText {s : Stamp} (h : s.FourDigit) :
    (yearText s.date.year).toList = lastDigits 4 s.date.year.toNat := by
  obtain ⟨h₁, h₂⟩ := h
  rw [yearText, if_pos ⟨h₁, h₂⟩, toList_padded (by decide) (by omega)]

/-! ## Reading -/

section Scan

variable {α β : Type} {scan : Scan α} {next : α → Scan β} {s rest : List Char} {x : α}

theorem run_bind (h : scan.run s = .ok (x, rest)) : (scan >>= next).run s = (next x).run rest := by
  rw [StateT.run_bind, h]
  rfl

theorem run_bind_error {f : Fault} (h : scan.run s = .error f) : (scan >>= next).run s = .error f := by
  rw [StateT.run_bind, h]
  rfl

theorem run_get_bind (next : List Char → Scan β) (s : List Char) :
    ((get : Scan (List Char)) >>= next).run s = (next s).run s := rfl

/-- A number ends where its digits do, or where it has as many as it may have. -/
theorem run_number {least most : Nat} {ds : List Char} (digits : ∀ c ∈ ds, isDigit c = true)
    (hleast : least ≤ ds.length) (hmost : ds.length ≤ most) (small : readDigits ds < 9_223_372_036_854_775_808)
    (ended : (rest.take (most - ds.length)).takeWhile isDigit = []) :
    (number least most).run (ds ++ rest) = .ok (readDigits ds, rest) := by
  have hlong : ¬ byteLength (ds ++ rest) < least := by
    have := length_le_byteLength (ds ++ rest)
    rw [List.length_append] at this
    omega
  have htaken : ((ds ++ rest).take most).takeWhile isDigit = ds := by
    rw [List.take_append, List.take_of_length_le hmost, List.takeWhile_append_of_pos digits, ended, List.append_nil]
  have hsmall : ¬ 9_223_372_036_854_775_808 ≤ readDigits ds := by omega
  have hfew : ¬ ds.length < least := by omega
  simp only [number, run_get_bind, htaken, hlong, hsmall, hfew, ↓reduceIte]
  exact congrArg (fun t => Except.ok (readDigits ds, t)) List.drop_left

theorem run_digits {width n : Nat} (hw : width ≤ 18) (h : n < 10 ^ width) :
    (digits width).run (lastDigits width n ++ rest) = .ok (n, rest) := by
  have hsmall : 10 ^ width ≤ 10 ^ 18 := Nat.pow_le_pow_right (by decide) hw
  have hvalue := readDigits_lastDigits h
  rw [digits, run_number (fun _ => isDigit_of_mem_lastDigits), hvalue]
  all_goals simp only [length_lastDigits, Nat.le_refl, Nat.sub_self, List.take_zero, List.takeWhile_nil, hvalue]
  omega

theorem run_mark (c : Char) : (mark c).run (c :: rest) = .ok ((), rest) := by
  simp only [mark, run_get_bind, ↓reduceIte]
  rfl

theorem run_dateEnd : dateEnd.run ('T' :: rest) = .ok ((), rest) := rfl

end Scan

/-- The time of day to the second, in numbers. -/
def clock (s : Stamp) : Nat × Nat × Nat :=
  let inDay := (s.second % 86400).toNat
  (inDay / 3600, inDay / 60 % 60, inDay % 60 + s.nano / 1_000_000_000)

theorem run_strictSecond {s : Stamp} (h : s.FourDigit) (rest : List Char) :
    strictSecond.run ((yearText s.date.year).toList ++ s.afterYear rest) =
      .ok ((s.date, s.clock), (decimalsText (s.nano % 1_000_000_000)).toList ++ rest) := by
  obtain ⟨-, hmonth, -, hday⟩ := s.date_exists
  have hlength := Date.monthLength_le s.date.year s.date.month
  have hsecond : (s.second % 86400).toNat < 86400 := by omega
  have hnano := s.nano_range
  have hyear := h.2
  have hdate : (⟨s.date.year.toNat, s.date.month, s.date.day⟩ : Date) = s.date := by
    rw [Int.toNat_of_nonneg h.1]
  rw [toList_yearText h, strictSecond, run_bind (run_digits (by decide) (by omega))]
  rw [afterYear, run_bind (run_mark _), run_bind (run_digits (by decide) (by omega)), run_bind (run_mark _),
    run_bind (run_digits (by decide) (by omega))]
  simp only [hdate, s.date_exists, not_true_eq_false, ↓reduceIte]
  rw [run_bind run_dateEnd, clockChars, run_bind (run_digits (by decide) (by omega)), run_bind (run_mark _),
    run_bind (run_digits (by decide) (by omega)), run_bind (run_mark _),
    run_bind (run_digits (by decide) (by omega))]
  rfl

/-- The spellings of the offset zero that are written. -/
def IsZeroOffset (offset : String) : Prop := offset = "Z" ∨ offset = "+00:00"

theorem IsZeroOffset.run {text : String} (h : IsZeroOffset text) :
    (offset (mark ':')).run text.toList = .ok (0, []) := by
  obtain rfl | rfl := h <;> rfl

theorem IsZeroOffset.ends {text : String} (h : IsZeroOffset text) (n : Nat) :
    (text.toList.take n).takeWhile isDigit = [] ∧ text.toList.dropWhile isDigit = text.toList := by
  obtain rfl | rfl := h
  · cases n <;> exact ⟨rfl, rfl⟩
  · cases n <;> exact ⟨rfl, rfl⟩

theorem run_decimals {width n : Nat} {text : String} (hzero : IsZeroOffset text) (hw : 1 ≤ width ∧ width ≤ 9)
    (h : n < 10 ^ width) :
    decimals.run (lastDigits width n ++ text.toList) = .ok (n * 10 ^ (9 - width), text.toList) := by
  have hsmall : 10 ^ width ≤ 10 ^ 9 := Nat.pow_le_pow_right (by decide) hw.2
  have hvalue := readDigits_lastDigits h
  have hnumber : (number 1 9).run (lastDigits width n ++ text.toList) = .ok (n, text.toList) := by
    rw [run_number (fun _ => isDigit_of_mem_lastDigits), hvalue]
    · rw [length_lastDigits]
      exact hw.1
    · rw [length_lastDigits]
      exact hw.2
    · omega
    · exact (hzero.ends _).1
  rw [decimals, run_get_bind, run_bind hnumber, run_get_bind]
  simp only [List.length_append, length_lastDigits, Nat.add_sub_cancel, (hzero.ends 0).2]
  rfl

/-- Decimals are read back, and so is the lack of them. -/
theorem run_fraction {nano : Nat} {text : String} (hzero : IsZeroOffset text) (h : nano < 1_000_000_000) :
    fraction.run ((decimalsText nano).toList ++ text.toList) = .ok (nano, text.toList) := by
  have hpart : ∀ {width n : Nat}, 1 ≤ width ∧ width ≤ 9 → n < 10 ^ width → n * 10 ^ (9 - width) = nano →
      fraction.run (("." ++ padded width n).toList ++ text.toList) = .ok (nano, text.toList) := by
    intro width n hw hn heq
    rw [String.toList_append, toList_padded hw.1 hn, ← heq]
    exact run_decimals hzero hw hn
  unfold decimalsText
  split
  · next hnano =>
    subst hnano
    obtain rfl | rfl := hzero <;> rfl
  · split
    · exact hpart (by decide) (by omega) (by omega)
    · split
      · exact hpart (by decide) (by omega) (by omega)
      · exact hpart (by decide) h (Nat.mul_one nano)

theorem length_padded (width n : Nat) : width ≤ (padded width n).toList.length := by
  simp only [padded, String.toList_ofList, List.length_append, List.length_replicate]
  omega

/-- A text is long enough for a date and a time. -/
theorem length_textWith (offset : String) (s : Stamp) : 19 ≤ byteLength (s.textWith offset).toList := by
  have hyear : 4 ≤ (yearText s.date.year).toList.length := by
    unfold yearText
    split
    · exact length_padded ..
    · rw [String.toList_append, List.length_append]
      have := length_padded 4 s.date.year.natAbs
      omega
  have := length_le_byteLength (s.textWith offset).toList
  simp only [toList_textWith, afterYear, clockChars, List.length_append, List.length_cons,
    length_lastDigits] at this ⊢
  omega

theorem run_strictParts {s : Stamp} {text : String} (h : s.FourDigit) (hzero : IsZeroOffset text) :
    strictParts.run (s.textWith text).toList =
      .ok (⟨s.date, s.clock.1, s.clock.2.1, s.clock.2.2, s.nano % 1_000_000_000, 0⟩, []) := by
  have hlong : ¬ byteLength (s.textWith text).toList < 19 := Nat.not_lt.2 (length_textWith text s)
  have hsecond : (s.second % 86400).toNat < 86400 := by omega
  have hnano := s.nano_range
  have hrange : ¬ (23 < s.clock.1 ∨ 59 < s.clock.2.1 ∨ 60 < s.clock.2.2) := by
    simp only [clock]
    omega
  rw [strictParts, run_get_bind, if_neg hlong, toList_textWith, run_bind (run_strictSecond h _),
    run_bind (run_fraction hzero (Nat.mod_lt _ (by decide)))]
  dsimp only
  rw [if_neg hrange, run_bind hzero.run]
  rfl

/-- The years of the calendar's range. -/
theorem year_range (s : Stamp) : -262143 ≤ s.date.year ∧ s.date.year ≤ 262142 := by
  obtain ⟨hfirst, hlast⟩ := s.second_range
  simp only [firstSecond, lastSecond] at hfirst hlast
  have hlow : (Date.ofDays (-96465292)).year = -262143 := by decide
  have hhigh : (Date.ofDays 95026236).year = 262142 := by decide
  exact ⟨hlow ▸ Date.year_mono (by omega), hhigh ▸ Date.year_mono (by omega)⟩

/-- The parts of an instant make it up. -/
theorem ofParts_clock (s : Stamp) :
    ofParts ⟨s.date, s.clock.1, s.clock.2.1, s.clock.2.2, s.nano % 1_000_000_000, 0⟩ = .ok s := by
  obtain ⟨hfirst, hlast⟩ := s.year_range
  have hdate : ¬ (s.date.year < -262143 ∨ 262142 < s.date.year ∨ ¬ s.date.Exists) := by
    rw [not_or, not_or]
    exact ⟨by omega, by omega, fun h => h s.date_exists⟩
  have hdays : s.date.toDays = s.second / 86400 := (Date.ofDays_spec _).1
  have hrange := s.nano_range
  -- The second of the minute is 60 just when the instant is a leap second.
  have hclock : s.clock.2.2 = (s.second % 60).toNat + s.nano / 1_000_000_000 := by
    simp only [clock]
    omega
  have hsecond : (if s.clock.2.2 = 60 then 59 else s.clock.2.2) = (s.second % 60).toNat := by
    rw [hclock]
    split <;> omega
  have hnano : (if s.clock.2.2 = 60 then s.nano % 1_000_000_000 + 1_000_000_000 else s.nano % 1_000_000_000) =
      s.nano := by
    rw [hclock]
    split <;> omega
  have htotal : s.date.toDays * 86400 + (s.clock.1 * 3600 + s.clock.2.1 * 60 + (s.second % 60).toNat : Nat) - 0 =
      s.second := by
    simp only [clock]
    omega
  have hoffset : ¬ ((0 : Int) ≤ -86400 ∨ 86400 ≤ (0 : Int)) := by decide
  simp only [ofParts, hdate, hoffset, ↓reduceIte, hsecond, hnano, htotal, ofParts?_self]
  rfl

/-- **The text of an instant is read back as it was.** -/
theorem read_textWith {s : Stamp} {text : String} (h : s.FourDigit) (hzero : IsZeroOffset text) :
    read (s.textWith text) = .ok s := by
  have hparts : strictParts.over (s.textWith text) = _ := run_strictParts h hzero
  rw [read, hparts]
  exact ofParts_clock s

/-- The text of a year without four digits begins with a sign. -/
theorem read_textWith_of_not {s : Stamp} (text : String) (h : ¬ s.FourDigit) :
    read (s.textWith text) = .error .invalid := by
  have hlong : ¬ byteLength (s.textWith text).toList < 19 := Nat.not_lt.2 (length_textWith text s)
  obtain ⟨c, rest, heq, hc⟩ : ∃ c rest, (s.textWith text).toList = c :: rest ∧ isDigit c = false := by
    unfold FourDigit at h
    rw [toList_textWith, yearText, if_neg h, String.toList_append]
    split
    · exact ⟨'-', _, rfl, rfl⟩
    · exact ⟨'+', _, rfl, rfl⟩
  have hdigits : (digits 4).run (c :: rest) = .error .invalid := by
    have hshort : ¬ byteLength (c :: rest) < 4 := by
      rw [← heq]
      omega
    have hnone : ((c :: rest).take 4).takeWhile isDigit = [] := by
      rw [List.take_succ_cons, List.takeWhile_cons_of_neg (by rw [hc]; decide)]
    simp only [digits, number, run_get_bind, hshort, hnone, ↓reduceIte]
    rfl
  have hparts : strictParts.over (s.textWith text) = .error .invalid := by
    rw [Scan.over, strictParts, run_get_bind, if_neg hlong, heq, strictSecond]
    exact run_bind_error (run_bind_error hdigits)
  rw [read, hparts]
  rfl

/-- **The strict reader takes the texts of four-digit years, and no other texts of instants.** -/
theorem read_storedText (s : Stamp) : read s.storedText = if s.FourDigit then .ok s else .error .invalid := by
  split
  · next h => exact read_textWith h (.inr rfl)
  · next h => exact read_textWith_of_not "+00:00" h

theorem FourDigit.of_storedText_eq {s t : Stamp} (h : s.FourDigit) (same : s.storedText = t.storedText) :
    t.FourDigit := by
  have hread := read_storedText t
  rw [← same, read_storedText, if_pos h] at hread
  by_cases ht : t.FourDigit
  · exact ht
  · rw [if_neg ht] at hread
    cases hread

end SwarmSampler.Stamp
