import SwarmSampler.Proofs.Text.Bytes
import SwarmSampler.Proofs.Text.Decimal
import SwarmSampler.Proofs.Time.Text

/-
The loose reader reads back the text of every instant there is. Years without
four digits, which the strict reader refuses, are read by their sign; whatever
the loose reader passes over between the parts, a text that was written has none
of it.
-/

namespace SwarmSampler.Stamp

open Text

/-! ## Numbers with zeros in front -/

theorem toList_padded_eq (width n : Nat) :
    (padded width n).toList = List.replicate (width - (decimal n).length) '0' ++ decimal n := String.toList_ofList

theorem isDigit_of_mem_padded {width n : Nat} {c : Char} (h : c ∈ (padded width n).toList) : isDigit c = true := by
  rw [toList_padded_eq, List.mem_append, List.mem_replicate] at h
  rcases h with ⟨-, rfl⟩ | h
  · rfl
  · exact isDigit_of_mem_decimal h

/-- Zeros in front of a number add nothing to it. -/
theorem readDigits_padded (width n : Nat) : readDigits (padded width n).toList = n := by
  have hzeros (k : Nat) : readDigits (List.replicate k '0' ++ decimal n) = readDigits (decimal n) := by
    induction k with
    | zero => rfl
    | succ k ih => exact ih
  rw [toList_padded_eq, hzeros, readDigits_decimal]

section Scan

variable {s rest : List Char} {c : Char}

theorem run_set (t : List Char) : (set t : Scan Unit).run s = .ok ((), t) := rfl

theorem run_blanks (h : ∀ c ∈ s.head?, isBlank c = false) : blanks.run s = .ok ((), s) := by
  have hkept : trimStartList s = s := by
    cases s with
    | nil => rfl
    | cons c s => exact List.dropWhile_cons_of_neg (by simp [h c rfl])
  show Except.ok ((), trimStartList s) = _
  rw [hkept]

/-- A number that is written with a least width is read up to what is no digit. -/
theorem run_number_padded {least width most n : Nat} (hleast : least ≤ width)
    (hmost : (padded width n).toList.length ≤ most) (hn : n < 9_223_372_036_854_775_808) (hc : isDigit c = false) :
    (number least most).run ((padded width n).toList ++ c :: rest) = .ok (n, c :: rest) := by
  have hended (k : Nat) : ((c :: rest).take k).takeWhile isDigit = [] := by
    cases k with
    | zero => rfl
    | succ k => exact List.takeWhile_cons_of_neg (by simp [hc])
  rw [run_number (fun _ => isDigit_of_mem_padded) (Nat.le_trans hleast (length_padded ..)) hmost
    (by rwa [readDigits_padded]) (hended _), readDigits_padded]

theorem not_isBlank_of_isDigit (h : isDigit c = true) : isBlank c = false :=
  of_ascii (p := fun c => isDigit c = true → isBlank c = false) (by decide +kernel)
    (toNat_lt_of_isHexDigit (by rw [isHexDigit, h]; rfl)) h

/-- A number in some width begins with a digit. -/
theorem exists_lastDigits (width n : Nat) (rest : List Char) :
    ∃ c tail, lastDigits (width + 1) n ++ rest = c :: tail ∧ isDigit c = true := by
  cases hdigits : lastDigits (width + 1) n with
  | nil => exact absurd (congrArg List.length hdigits) (by simp)
  | cons c tail => exact ⟨c, tail ++ rest, rfl, isDigit_of_mem_lastDigits (hdigits ▸ List.mem_cons_self)⟩

end Scan

/-! ## Years -/

section Year

variable {n : Nat} {text rest : List Char} {c : Char}

theorem run_looseYear_minus (hread : (number 1 (text.length + 1)).run text = .ok (n, rest)) (hn : n < 2_147_483_648) :
    looseYear.run ('-' :: text) = .ok (-(n : Int), rest) := by
  rw [looseYear, run_bind (run_blanks fun d hd => by cases hd; rfl), run_get_bind]
  dsimp only
  split
  · next hsign =>
    obtain rfl := (List.cons.inj hsign).2
    rw [run_bind (run_set _), List.length_cons, run_bind hread, pure_bind, if_neg (by omega)]
    rfl
  · next hsign => exact absurd (List.cons.inj hsign).1 (by decide)
  · next hsign _ => exact absurd rfl (hsign _)

theorem run_looseYear_plus (hread : (number 1 (text.length + 1)).run text = .ok (n, rest)) (hn : n < 2_147_483_648) :
    looseYear.run ('+' :: text) = .ok ((n : Int), rest) := by
  rw [looseYear, run_bind (run_blanks fun d hd => by cases hd; rfl), run_get_bind]
  dsimp only
  split
  · next hsign => exact absurd (List.cons.inj hsign).1 (by decide)
  · next hsign =>
    obtain rfl := (List.cons.inj hsign).2
    rw [run_bind (run_set _), List.length_cons, run_bind hread, pure_bind, if_neg (by omega)]
    rfl
  · next hsign => exact absurd rfl (hsign _)

theorem run_looseYear_digits (hc : isDigit c = true) (hread : (number 1 4).run (c :: text) = .ok (n, rest))
    (hn : n < 2_147_483_648) : looseYear.run (c :: text) = .ok ((n : Int), rest) := by
  rw [looseYear, run_bind (run_blanks fun d hd => by cases hd; exact not_isBlank_of_isDigit hc), run_get_bind]
  dsimp only
  split
  · next hsign => exact absurd ((List.cons.inj hsign).1 ▸ hc) (by decide)
  · next hsign => exact absurd ((List.cons.inj hsign).1 ▸ hc) (by decide)
  · rw [run_bind hread, pure_bind, if_neg (by omega)]
    rfl

end Year

theorem toList_yearText_of_not {s : Stamp} (h : ¬ s.FourDigit) : (yearText s.date.year).toList =
    (if s.date.year < 0 then '-' else '+') :: (padded 4 s.date.year.natAbs).toList := by
  unfold FourDigit at h
  rw [yearText, if_neg h, String.toList_append]
  split <;> rfl

/-- A year is read back, whether it has four digits or a sign. -/
theorem run_looseYear (s : Stamp) (rest : List Char) :
    looseYear.run ((yearText s.date.year).toList ++ '-' :: rest) = .ok (s.date.year, '-' :: rest) := by
  obtain ⟨hfirst, hlast⟩ := s.year_range
  by_cases h : s.FourDigit
  · have hn : s.date.year.toNat < 10 ^ 4 := by
      have := h.2
      omega
    have hread : (number 1 4).run (lastDigits 4 s.date.year.toNat ++ '-' :: rest) =
        .ok (s.date.year.toNat, '-' :: rest) := by
      rw [← toList_padded (by decide) hn]
      refine run_number_padded (by decide) ?_ (by omega) rfl
      rw [toList_padded (by decide) hn, length_lastDigits]
    obtain ⟨c, tail, htext, hc⟩ := exists_lastDigits 3 s.date.year.toNat ('-' :: rest)
    rw [htext] at hread
    rw [toList_yearText h, htext, run_looseYear_digits hc hread (by omega), Int.toNat_of_nonneg h.1]
  · have hread : (number 1 (((padded 4 s.date.year.natAbs).toList ++ '-' :: rest).length + 1)).run
        ((padded 4 s.date.year.natAbs).toList ++ '-' :: rest) = .ok (s.date.year.natAbs, '-' :: rest) := by
      refine run_number_padded (by decide) ?_ (by omega) rfl
      rw [List.length_append]
      omega
    rw [toList_yearText_of_not h, List.cons_append]
    split
    · next hneg => rw [run_looseYear_minus hread (by omega), Int.ofNat_natAbs_of_nonpos (by omega), Int.neg_neg]
    · next hpos => rw [run_looseYear_plus hread (by omega), Int.natAbs_of_nonneg (by omega)]

/-! ## The text -/

section Scan

variable {n low high : Nat} {rest : List Char} {c : Char}

theorem run_looseMark (hc : isBlank c = false) : (looseMark c).run (c :: rest) = .ok ((), rest) := by
  rw [looseMark, run_bind (run_blanks fun d hd => by cases hd; exact hc), run_mark]

theorem run_looseNumber (hn : n < 100) (hlow : low ≤ n) (hhigh : n ≤ high) :
    (bounded looseNumber low high).run (lastDigits 2 n ++ rest) = .ok (n, rest) := by
  have hblanks : blanks.run (lastDigits 2 n ++ rest) = .ok ((), lastDigits 2 n ++ rest) := by
    obtain ⟨c, tail, htext, hc⟩ := exists_lastDigits 1 n rest
    rw [htext]
    exact run_blanks fun d hd => by cases hd; exact not_isBlank_of_isDigit hc
  have hvalue : readDigits (lastDigits 2 n) = n := readDigits_lastDigits hn
  have hnumber : (number 1 2).run (lastDigits 2 n ++ rest) = .ok (n, rest) := by
    rw [run_number (fun _ => isDigit_of_mem_lastDigits), hvalue]
    all_goals simp [hvalue]
    omega
  have hscan : looseNumber.run (lastDigits 2 n ++ rest) = .ok (n, rest) := by
    rw [looseNumber, run_bind hblanks, hnumber]
  rw [bounded, run_bind hscan, if_neg (by omega)]
  rfl

end Scan

theorem run_looseParts (s : Stamp) : looseParts.run s.text.toList =
    .ok (⟨s.date, s.clock.1, s.clock.2.1, s.clock.2.2, s.nano % 1_000_000_000, 0⟩, []) := by
  obtain ⟨hmonth, hmonth', hday, hday'⟩ := s.date_exists
  have hlength := Date.monthLength_le s.date.year s.date.month
  have hsecond : (s.second % 86400).toNat < 86400 := by omega
  have hnano := s.nano_range
  rw [text, toList_textWith, afterYear, looseParts, run_bind (run_looseYear s _), run_bind (run_looseMark rfl),
    run_bind (run_looseNumber (by omega) hmonth hmonth'), run_bind (run_looseMark rfl),
    run_bind (run_looseNumber (by omega) hday (by omega)), run_bind run_dateEnd, clockChars,
    run_bind (run_looseNumber (by omega) (Nat.zero_le _) (by omega)), run_bind (run_looseMark rfl),
    run_bind (run_looseNumber (by omega) (Nat.zero_le _) (by omega)), run_bind (run_looseMark rfl),
    run_bind (run_looseNumber (by omega) (Nat.zero_le _) (by omega)),
    run_bind (run_fraction (.inl rfl) (Nat.mod_lt _ (by decide)))]
  rfl

/-- **The loose reader reads the text of every instant as the instant**, leap seconds and signed years included. -/
theorem readLoose_text (s : Stamp) : readLoose s.text = .ok s := by
  have hparts : looseParts.over s.text = _ := run_looseParts s
  rw [readLoose, hparts]
  exact ofParts_clock s

end SwarmSampler.Stamp
