import SwarmSampler.Proofs.Text.Digits

/-
Numbers in decimal, as long as they are: what is written is digits only, has
no zero in front of other digits, and is read back as the number, none of its
beginnings standing for a greater one.
-/

namespace SwarmSampler.Text

/-- The decimal digits of a number. -/
abbrev decimal (n : Nat) : List Char := Nat.toDigits 10 n

theorem decimal_of_lt {n : Nat} (h : n < 10) : decimal n = [Nat.digitChar n] := Nat.toDigits_of_lt_base h

theorem decimal_of_le {n : Nat} (h : 10 ≤ n) : decimal n = decimal (n / 10) ++ [Nat.digitChar (n % 10)] :=
  Nat.toDigits_of_base_le (by decide) h

theorem toList_toString (n : Nat) : (toString n).toList = decimal n := Nat.toList_repr

theorem isDigit_of_mem_decimal {n : Nat} {c : Char} (h : c ∈ decimal n) : isDigit c = true := by
  induction n using Nat.strongRecOn with
  | ind n ih =>
    by_cases hn : n < 10
    · rw [decimal_of_lt hn] at h
      rw [List.mem_singleton.1 h]
      exact isDigit_digitChar hn
    · rw [decimal_of_le (Nat.le_of_not_lt hn)] at h
      rcases List.mem_append.1 h with h | h
      · exact ih (n / 10) (by omega) h
      · rw [List.mem_singleton.1 h]
        exact isDigit_digitChar (Nat.mod_lt n (by decide))

/-- **A number's digits are read back as the number.** -/
theorem readDigits_decimal (n : Nat) : readDigits (decimal n) = n := by
  induction n using Nat.strongRecOn with
  | ind n ih =>
    by_cases hn : n < 10
    · rw [decimal_of_lt hn]
      show 10 * 0 + digitValue (Nat.digitChar n) = n
      rw [digitValue_digitChar hn, Nat.mul_zero, Nat.zero_add]
    · rw [decimal_of_le (Nat.le_of_not_lt hn), readDigits_append_singleton, ih (n / 10) (by omega),
        digitValue_digitChar (Nat.mod_lt n (by decide))]
      omega

/-- No two numbers are written alike. -/
theorem eq_of_toString_eq {m n : Nat} (h : toString m = toString n) : m = n := by
  have hdecimal : decimal m = decimal n := by rw [← toList_toString, h, toList_toString]
  rw [← readDigits_decimal m, hdecimal, readDigits_decimal]

/-- Only zero is written with a zero in front. -/
theorem head?_decimal {n : Nat} (h : (decimal n).head? = some '0') : decimal n = ['0'] := by
  induction n using Nat.strongRecOn with
  | ind n ih =>
    by_cases hn : n < 10
    · rw [decimal_of_lt hn] at h ⊢
      exact congrArg (fun c => [c]) (Option.some.inj h)
    · rw [decimal_of_le (Nat.le_of_not_lt hn), List.head?_append, List.head?_eq_some_head Nat.toDigits_ne_nil,
        Option.some_or, ← List.head?_eq_some_head] at h
      -- A number of more digits would have to begin with a zero that stands for it.
      have hzero := ih (n / 10) (by omega) h
      have := readDigits_decimal (n / 10)
      rw [hzero] at this
      have : readDigits ['0'] = 0 := rfl
      omega

/-! ## Runs of characters -/

section Runs

variable {p : Char → Bool} {run rest : List Char}

theorem takeWhile_run (hrun : ∀ c ∈ run, p c = true) (hrest : ∀ c ∈ rest.head?, p c = false) :
    (run ++ rest).takeWhile p = run := by
  rw [List.takeWhile_append_of_pos hrun]
  cases rest with
  | nil => rw [List.takeWhile_nil, List.append_nil]
  | cons c rest => rw [List.takeWhile_cons_of_neg (by simp [hrest c rfl]), List.append_nil]

theorem dropWhile_run (hrun : ∀ c ∈ run, p c = true) (hrest : ∀ c ∈ rest.head?, p c = false) :
    (run ++ rest).dropWhile p = rest := by
  rw [List.dropWhile_append_of_pos hrun]
  cases rest with
  | nil => rfl
  | cons c rest => rw [List.dropWhile_cons_of_neg (by simp [hrest c rfl])]

end Runs

end SwarmSampler.Text
