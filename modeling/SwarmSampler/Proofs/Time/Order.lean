import Mathlib.Data.Char
import Mathlib.Data.List.Lex
import SwarmSampler.Proofs.Time.Millis
import SwarmSampler.Proofs.Time.Text

/-
The order of texts is the order of instants in years of four digits: every part of
such a text is as wide as that of any other, down to the second. Decimals come in
groups of three, and where one of two texts has fewer of them, its offset begins
with a character before the point and before all digits.
-/

namespace SwarmSampler

namespace Text

/-- The first difference of two lists decides, whatever follows it. -/
theorem append_lt_append {a b : List Char} (h : a < b) (same : a.length = b.length) (x y : List Char) :
    a ++ x < b ++ y := by
  induction a generalizing b with
  | nil =>
    cases b with
    | nil => cases h
    | cons d b => cases same
  | cons c a ih =>
    cases b with
    | nil => cases same
    | cons d b =>
      rw [List.cons_append, List.cons_append, List.cons_lt_cons_iff]
      rcases List.cons_lt_cons_iff.1 h with hlt | ⟨rfl, hlt⟩
      · exact .inl hlt
      · exact .inr ⟨rfl, ih hlt (Nat.succ.inj same)⟩

/-- The last digits of a number in two parts. -/
theorem lastDigits_add (width more n : Nat) :
    lastDigits (width + more) n = lastDigits width (n / 10 ^ more) ++ lastDigits more (n % 10 ^ more) := by
  induction more generalizing n with
  | zero => rw [Nat.pow_zero, Nat.div_one, lastDigits, List.append_nil, Nat.add_zero]
  | succ more ih =>
    have hfront : n % 10 ^ (more + 1) / 10 = n / 10 % 10 ^ more := by
      rw [Nat.pow_succ, Nat.mul_comm, Nat.mod_mul_right_div_self]
    have hlast : n % 10 ^ (more + 1) % 10 = n % 10 :=
      Nat.mod_mod_of_dvd n (Dvd.intro_left _ (Nat.pow_succ ..).symm)
    rw [← Nat.add_assoc, lastDigits, lastDigits, ih, Nat.div_div_eq_div_mul, ← Nat.pow_succ', hfront, hlast,
      List.append_assoc]

/-- What comes before all digits comes before any number. -/
theorem lt_lastDigits {c : Char} (h : c < '0') (width n : Nat) (rest ending : List Char) :
    c :: rest < lastDigits (width + 1) n ++ ending := by
  cases hdigits : lastDigits (width + 1) n with
  | nil => exact absurd (congrArg List.length hdigits) (by simp)
  | cons d ds =>
    have hd : isDigit d = true := isDigit_of_mem_lastDigits (hdigits ▸ List.mem_cons_self)
    simp only [isDigit, Bool.and_eq_true, decide_eq_true_eq] at hd
    exact List.cons_lt_cons_iff.2 (.inl (lt_of_lt_of_le h hd.1))

theorem digitChar_lt {m n : Nat} (h : m < n) (hn : n < 10) : Nat.digitChar m < Nat.digitChar n := by
  rw [Char.lt_def, UInt32.lt_iff_toNat_lt]
  have hm := Nat.toNat_digitChar_of_lt_ten (Nat.lt_trans h hn)
  have hn := Nat.toNat_digitChar_of_lt_ten hn
  simp only [Char.toNat] at hm hn
  omega

/-- **Of two numbers in the same width the smaller one comes first.** -/
theorem lastDigits_lt {width m n : Nat} (h : m < n) (hn : n < 10 ^ width) :
    lastDigits width m < lastDigits width n := by
  induction width generalizing m n with
  | zero =>
    rw [Nat.pow_zero] at hn
    omega
  | succ width ih =>
    have hq : n / 10 < 10 ^ width := Nat.div_lt_of_lt_mul (by rwa [Nat.mul_comm, ← Nat.pow_succ])
    rw [lastDigits, lastDigits]
    by_cases hfront : m / 10 = n / 10
    · rw [hfront]
      refine List.append_left_lt (List.cons_lt_cons_iff.2 (.inl ?_))
      exact digitChar_lt (by omega) (by omega)
    · refine append_lt_append (ih (by omega) hq) ?_ _ _
      rw [length_lastDigits, length_lastDigits]

end Text

namespace Stamp

open Text

variable {s t : Stamp} {m n : Int}

/-- Numbers in one width and what follows them are in the order of the numbers, and then of what
follows. -/
theorem block_lt {width m n : Nat} {x y : List Char} (hn : n < 10 ^ width) (h : m < n ∨ m = n ∧ x < y) :
    lastDigits width m ++ x < lastDigits width n ++ y := by
  rcases h with hlt | ⟨rfl, hlt⟩
  · refine append_lt_append (lastDigits_lt hlt hn) ?_ _ _
    rw [length_lastDigits, length_lastDigits]
  · exact List.append_left_lt hlt

theorem cons_lt {c : Char} {x y : List Char} (h : x < y) : c :: x < c :: y :=
  List.cons_lt_cons_iff.2 (.inr ⟨rfl, h⟩)

/-! ## Decimals -/

/-- A number in groups of three digits, as many as hold all of it, and what follows. -/
def groups (ending : List Char) : Nat → Nat → List Char
  | 0, _ => ending
  | more + 1, n =>
    if n = 0 then ending else lastDigits 3 (n / 1000 ^ more) ++ groups ending more (n % 1000 ^ more)

theorem groups_zero (ending : List Char) (more : Nat) : groups ending more 0 = ending := by
  cases more <;> rfl

theorem groups_of_ne {n : Nat} (h : n ≠ 0) (ending : List Char) (more : Nat) : groups ending (more + 1) n =
    lastDigits 3 (n / 1000 ^ more) ++ groups ending more (n % 1000 ^ more) := if_neg h

/-- What the three groups of a number of nanoseconds are: its milliseconds, then what is left of microseconds and of
nanoseconds. -/
theorem groups_three {n : Nat} (h : n ≠ 0) (ending : List Char) : groups ending 3 n =
    lastDigits 3 (n / 1_000_000) ++ if n % 1_000_000 = 0 then ending else
      lastDigits 3 (n / 1000 % 1000) ++ if n % 1000 = 0 then ending else lastDigits 3 (n % 1000) ++ ending := by
  have hmicros : n % 1_000_000 / 1000 = n / 1000 % 1000 := by omega
  have hnanos : n % 1_000_000 % 1000 = n % 1000 := by omega
  simp only [groups, h, Nat.reducePow, hmicros, hnanos, Nat.div_one, ↓reduceIte]

/-- Decimals are groups after a point. -/
theorem decimalsText_append {n : Nat} (h : n < 1_000_000_000) (ending : List Char) :
    (decimalsText n).toList ++ ending = if n = 0 then ending else '.' :: groups ending 3 n := by
  have hpoint : ∀ {width k : Nat}, 0 < width → k < 10 ^ width →
      ("." ++ padded width k).toList ++ ending = '.' :: (lastDigits width k ++ ending) := by
    intro width k hw hk
    rw [String.toList_append, toList_padded hw hk]
    rfl
  have hthousand : 10 ^ 3 = 1000 := rfl
  have hmillis : n / 1000 / 1000 = n / 1_000_000 := by omega
  unfold decimalsText
  split
  · rfl
  · next h0 =>
    rw [groups_three h0]
    split
    · rw [hpoint (by decide) (by omega)]
    · split
      · rw [hpoint (by decide) (by omega), lastDigits_add 3 3, hthousand, hmillis, List.append_assoc]
      · rw [hpoint (by decide) h, lastDigits_add 6 3, lastDigits_add 3 3, hthousand, hmillis, List.append_assoc,
          List.append_assoc]

/-- Of two numbers in groups the smaller one comes first, for what follows begins before all digits. -/
theorem groups_lt {more : Nat} {m n : Nat} (h : m < n) (hn : n < 1000 ^ more) (ending : List Char) :
    groups ('+' :: ending) more m < groups ('+' :: ending) more n := by
  induction more generalizing m n with
  | zero =>
    rw [Nat.pow_zero] at hn
    omega
  | succ more ih =>
    have hunit : 0 < 1000 ^ more := Nat.pow_pos (by decide)
    have hq : n / 1000 ^ more < 10 ^ 3 := Nat.div_lt_of_lt_mul (by rwa [Nat.pow_succ] at hn)
    rw [groups_of_ne (by omega : n ≠ 0)]
    by_cases h0 : m = 0
    · rw [h0, groups_zero]
      exact lt_lastDigits (by decide) ..
    · rw [groups_of_ne h0]
      refine block_lt hq ?_
      rcases Nat.lt_or_eq_of_le (Nat.div_le_div_right h.le) with hlt | heq
      · exact .inl hlt
      · have hm := Nat.div_add_mod m (1000 ^ more)
        have hn := Nat.div_add_mod n (1000 ^ more)
        rw [heq] at hm
        exact .inr ⟨heq, ih (by omega) (Nat.mod_lt n hunit)⟩

/-- Of the decimals of one second the fewer come first. -/
theorem decimals_lt {m n : Nat} (h : m < n) (hn : n < 1_000_000_000) (ending : List Char) :
    (decimalsText m).toList ++ '+' :: ending < (decimalsText n).toList ++ '+' :: ending := by
  rw [decimalsText_append (h.trans hn), decimalsText_append hn, if_neg (by omega : ¬ n = 0)]
  split
  · exact List.cons_lt_cons_iff.2 (.inl (by decide))
  · exact cons_lt (groups_lt h hn ending)

/-! ## Times -/

/-- An instant comes before another. A leap second comes after the second that it is put on. -/
def Before (s t : Stamp) : Prop := s.second < t.second ∨ s.second = t.second ∧ s.nano < t.nano

instance (s t : Stamp) : Decidable (s.Before t) := inferInstanceAs (Decidable (_ ∨ _))

theorem before_trichotomy (s t : Stamp) : s.Before t ∨ s = t ∨ t.Before s := by
  cases s
  cases t
  simp only [Before, mk.injEq]
  omega

/-- Of two instants of one day the later one has the later time of day. -/
theorem clockChars_lt (h : s.Before t) (sameDay : s.second / 86400 = t.second / 86400) (ending : List Char) :
    s.clockChars ('+' :: ending) < t.clockChars ('+' :: ending) := by
  have hs := s.nano_range
  have ht := t.nano_range
  simp only [clockChars]
  obtain ⟨a, ha⟩ : ∃ a, a = (s.second % 86400).toNat := ⟨_, rfl⟩
  obtain ⟨b, hb⟩ : ∃ b, b = (t.second % 86400).toNat := ⟨_, rfl⟩
  rw [← ha, ← hb]
  have hb₁ : b < 86400 := by omega
  rcases h with hsecond | ⟨hsecond, hnano⟩
  · -- The hour, the minute or the second is the first to differ.
    have hlt : a < b := by omega
    by_cases hhour : a / 3600 = b / 3600
    · refine block_lt (by omega) (.inr ⟨hhour, cons_lt (block_lt (by omega) ?_)⟩)
      by_cases hminute : a / 60 % 60 = b / 60 % 60
      · exact .inr ⟨hminute, cons_lt (block_lt (by omega) (.inl (by omega)))⟩
      · exact .inl (by omega)
    · exact block_lt (by omega) (.inl (by omega))
  · obtain rfl : a = b := by rw [ha, hb, hsecond]
    refine block_lt (by omega) (.inr ⟨rfl, cons_lt (block_lt (by omega) (.inr ⟨rfl, cons_lt
      (block_lt (by omega) ?_)⟩))⟩)
    -- A leap second is the first to differ, or the decimals are.
    by_cases hleap : s.nano / 1_000_000_000 = t.nano / 1_000_000_000
    · rw [hleap]
      exact .inr ⟨rfl, decimals_lt (by omega) (by omega) ending⟩
    · exact .inl (by omega)

/-- **Later instants have later texts.** -/
theorem storedText_lt_of_before (fs : s.FourDigit) (ft : t.FourDigit) (h : s.Before t) :
    s.storedText.toList < t.storedText.toList := by
  obtain ⟨-, hmonth, -, hday⟩ := t.date_exists
  have hlength := Date.monthLength_le t.date.year t.date.month
  have hsecond : s.second ≤ t.second := h.elim Int.le_of_lt fun h => h.1.le
  rw [storedText, storedText, toList_textWith, toList_textWith, toList_yearText fs, toList_yearText ft]
  have hs₂ := fs.1
  have ht₂ := ft.1
  have ht₃ := ft.2
  refine block_lt (by omega) ?_
  rcases Int.lt_or_eq_of_le (show s.second / 86400 ≤ t.second / 86400 by omega) with hdays | hdays
  · rcases Date.ofDays_before.2 hdays with hyear | ⟨hyear, hmonth | ⟨hmonth, hday⟩⟩
    · have hyear : s.date.year < t.date.year := hyear
      exact .inl (by omega)
    · exact .inr ⟨congrArg Int.toNat hyear, cons_lt (block_lt (by omega) (.inl hmonth))⟩
    · exact .inr ⟨congrArg Int.toNat hyear, cons_lt (block_lt (by omega) (.inr ⟨hmonth, cons_lt
        (block_lt (by omega) (.inl hday))⟩))⟩
  · have hdate : s.date = t.date := congrArg Date.ofDays hdays
    refine .inr ⟨by rw [hdate], cons_lt (block_lt (by omega) (.inr ⟨by rw [hdate], cons_lt (block_lt (by omega)
      (.inr ⟨by rw [hdate], cons_lt (clockChars_lt h hdays _)⟩))⟩))⟩

/-- Later milliseconds are later instants. -/
theorem before_of_ofMillis? (hs : ofMillis? m = some s) (ht : ofMillis? n = some t) (h : m < n) : s.Before t := by
  obtain ⟨hs₁, hs₂⟩ := ofParts?_eq_some hs
  obtain ⟨ht₁, ht₂⟩ := ofParts?_eq_some ht
  simp only [Before, hs₁, hs₂, ht₁, ht₂]
  omega

/-- **Later milliseconds have later texts.** -/
theorem storedText_lt (hs : ofMillis? m = some s) (ht : ofMillis? n = some t) (fs : s.FourDigit) (ft : t.FourDigit)
    (h : m < n) : s.storedText.toList < t.storedText.toList :=
  storedText_lt_of_before fs ft (before_of_ofMillis? hs ht h)

end Stamp

end SwarmSampler
