import SwarmSampler.Time.Date

/-
Days and dates count the same: the date of a number of days exists and is just
that many days after 1 January 1970, and of two numbers of days the smaller one
has the earlier date. Years are reckoned from March here, as they are where
dates are worked out.
-/

namespace SwarmSampler.Date

/-- Days from 1 March of the year 0 to 1 March of a year. -/
def daysBefore (year : Int) : Int := 365 * year + year / 4 - year / 100 + year / 400

/-- The date of a day of a year, both counted from March. -/
def ofMarch (year doy : Int) : Date :=
  let mp := (5 * doy + 2) / 153
  let month := if mp < 10 then mp + 3 else mp - 9
  ⟨year + (if month ≤ 2 then 1 else 0), month.toNat, (doy - (153 * mp + 2) / 5 + 1).toNat⟩

/-! ## The year of a day

A year of an era is taken in centuries, groups of four and single years, so that
no quotient of it is unknown. -/

section Year

variable {doe c q y doy : Int} (hc : 0 ≤ c ∧ c ≤ 3) (hq : 0 ≤ q ∧ q ≤ 24) (hy : 0 ≤ y ∧ y ≤ 3)
include hc hq hy

theorem daysBefore_year (era : Int) :
    daysBefore (100 * c + 4 * q + y + era * 400) = era * 146097 + (36524 * c + 1461 * q + 365 * y) := by
  have hfour : (100 * c + 4 * q + y + era * 400) / 4 = 25 * c + q + 100 * era := by omega
  have hcentury : (100 * c + 4 * q + y + era * 400) / 100 = c + 4 * era := by omega
  have hera : (100 * c + 4 * q + y + era * 400) / 400 = era := by omega
  rw [daysBefore, hfour, hcentury, hera]
  omega

variable (h : 0 ≤ doe ∧ doe < 146097)
  (hyear : 100 * c + 4 * q + y = (doe - doe / 1460 + doe / 36524 - doe / 146096) / 365)
  (hdoy : doy = doe - (36524 * c + 1461 * q + 365 * y))
include h hyear hdoy

theorem dayOfYear_range : 0 ≤ doy ∧ doy ≤ 365 := by
  by_cases hlast : doe = 146096
  · subst hlast
    omega
  · have hzero : doe / 146096 = 0 := by omega
    rw [hzero] at hyear
    obtain rfl | rfl | rfl | rfl : c = 0 ∨ c = 1 ∨ c = 2 ∨ c = 3 := by omega
    all_goals
      obtain rfl | rfl | rfl | rfl : y = 0 ∨ y = 1 ∨ y = 2 ∨ y = 3 := by omega
      all_goals omega

/-- A year has a day 366 only if the next February has a day 29. -/
theorem dayOfYear_last (last : doy = 365) (era : Int) :
    isLeap (100 * c + 4 * q + y + era * 400 + 1) = true := by
  have hlong : ¬ y ≤ 2 := fun hy => by
    have hfour : doe / 1460 = 25 * c + q := by omega
    have hcentury : doe / 36524 = c := by omega
    omega
  have hfull : q = 24 → c = 3 := fun hq => by
    subst hq
    have hc : c = 0 ∨ c = 1 ∨ c = 2 ∨ c = 3 := by omega
    obtain rfl | rfl | rfl | rfl := hc <;> omega
  clear hyear hdoy
  simp only [isLeap, Bool.and_eq_true, Bool.or_eq_true, beq_iff_eq, bne_iff_ne]
  omega

end Year

/-- A number of days as a year from March and a day of it. -/
theorem ofDays_eq (n : Int) : ∃ year doy : Int, ofDays n = ofMarch year doy ∧
    n = daysBefore year + doy - 719468 ∧ (0 ≤ doy ∧ doy ≤ 365) ∧
      (doy = 365 → isLeap (year + 1) = true) := by
  unfold ofDays
  extract_lets z era doe yoe doy
  have hz : n + 719468 = 146097 * era + doe := by omega
  have hr : 0 ≤ doe ∧ doe < 146097 := by omega
  have hyoe : yoe = (doe - doe / 1460 + doe / 36524 - doe / 146096) / 365 := rfl
  have hdoy : doy = doe - (365 * yoe + yoe / 4 - yoe / 100) := rfl
  obtain ⟨c, q, y, hc, hq, hy, heq⟩ : ∃ c q y : Int, (0 ≤ c ∧ c ≤ 3) ∧ (0 ≤ q ∧ q ≤ 24) ∧
      (0 ≤ y ∧ y ≤ 3) ∧ yoe = 100 * c + 4 * q + y :=
    ⟨yoe / 100, yoe % 100 / 4, yoe % 4, by omega⟩
  refine ⟨yoe + era * 400, doy, rfl, ?_⟩
  clear_value era doe doy yoe
  subst heq
  have hday : doy = doe - (36524 * c + 1461 * q + 365 * y) := by
    have hfour : (100 * c + 4 * q + y) / 4 = 25 * c + q := by omega
    have hcentury : (100 * c + 4 * q + y) / 100 = c := by omega
    rw [hfour, hcentury] at hdoy
    omega
  refine ⟨?_, dayOfYear_range hc hq hy hr hyoe hday, fun last => dayOfYear_last hc hq hy hr hyoe hday last era⟩
  rw [daysBefore_year hc hq hy]
  omega

/-- Days from 1 March to the first day of a month. -/
def monthStart (month : Nat) : Int := (153 * ((month + 9) % 12 : Nat) + 2) / 5

/-- The days before a date, with its year and its month counted from March. -/
theorem toDays_eq (d : Date) : d.toDays = daysBefore (if d.month ≤ 2 then d.year - 1 else d.year) +
    (monthStart d.month + d.day - 1) - 719468 := by
  unfold toDays
  extract_lets y era inEra inYear
  have hfour : inEra / 4 = y / 4 - 100 * era := by omega
  have hcentury : inEra / 100 = y / 100 - 4 * era := by omega
  have hin : inEra = y - 400 * era := by omega
  show era * 146097 + (inEra * 365 + inEra / 4 - inEra / 100 + inYear) - 719468 =
    365 * y + y / 4 - y / 100 + era + inYear - 719468
  rw [hfour, hcentury, hin]
  omega

theorem monthLength_eq (y : Int) (m : Nat) : monthLength y m =
    if m = 2 then (if isLeap y then 29 else 28)
    else if m = 4 ∨ m = 6 ∨ m = 9 ∨ m = 11 then 30 else 31 := by
  simp only [monthLength, beq_iff_eq, Bool.or_eq_true, or_assoc]

theorem monthLength_le (y : Int) (m : Nat) : monthLength y m ≤ 31 := by
  rw [monthLength_eq]
  repeat' split
  all_goals decide

/-- The date of a day from March is that day's, and exists. -/
theorem ofMarch_spec {year doy : Int} (h : 0 ≤ doy ∧ doy ≤ 365)
    (last : doy = 365 → isLeap (year + 1) = true) :
    (ofMarch year doy).toDays = daysBefore year + doy - 719468 ∧ (ofMarch year doy).Exists := by
  rw [toDays_eq]
  unfold ofMarch
  extract_lets mp month
  have hdoy : mp = (5 * doy + 2) / 153 := rfl
  obtain ⟨m, hm⟩ : ∃ m : Nat, month = m := Int.eq_ofNat_of_zero_le (by simp only [month]; split <;> omega)
  have hmonth : mp = ((m + 9) % 12 : Nat) ∧ (month ≤ 2 ↔ 10 ≤ mp) ∧ 1 ≤ m ∧ m ≤ 12 := by
    simp only [month] at hm ⊢
    split at hm <;> omega
  obtain ⟨day, hd⟩ : ∃ day : Nat, doy - (153 * mp + 2) / 5 + 1 = day :=
    Int.eq_ofNat_of_zero_le (by omega)
  have hcast : ((m : Int) ≤ 2) = (m ≤ 2) := propext (by omega)
  simp only [hm, hd, Int.toNat_natCast, Exists, hcast]
  clear_value mp
  obtain ⟨rfl, -, hm₁, hm₂⟩ := hmonth
  clear hm
  refine ⟨?_, hm₁, hm₂, by omega, ?_⟩
  · have hyear : (if m ≤ 2 then year + (if m ≤ 2 then 1 else 0) - 1 else
        year + (if m ≤ 2 then 1 else 0)) = year := by
      split <;> omega
    rw [hyear, monthStart]
    omega
  · rw [monthLength_eq]
    by_cases hfeb : m = 2
    · subst hfeb
      by_cases hleap : isLeap (year + 1) = true
      · simp only [Nat.le_refl, ↓reduceIte, hleap]
        omega
      · have hnot : doy ≠ 365 := fun hfull => hleap (last hfull)
        simp only [Nat.le_refl, ↓reduceIte, hleap, Bool.false_eq_true]
        omega
    · rw [if_neg hfeb]
      split <;> omega

/-! ## Earlier dates -/

/-- Whether a date is earlier than another: by year, by month, by day. -/
def Before (d e : Date) : Prop :=
  d.year < e.year ∨ d.year = e.year ∧ (d.month < e.month ∨ d.month = e.month ∧ d.day < e.day)

theorem daysBefore_succ (year : Int) :
    daysBefore (year + 1) = daysBefore year + 365 + if isLeap (year + 1) then 1 else 0 := by
  simp only [daysBefore, isLeap, Bool.and_eq_true, Bool.or_eq_true, beq_iff_eq, bne_iff_ne]
  split <;> omega

theorem daysBefore_mono {y z : Int} (h : y ≤ z) : daysBefore y ≤ daysBefore z := by
  simp only [daysBefore]
  omega

/-- January and February come before the first of March. -/
theorem toDays_range_early {d : Date} (h : d.Exists) (early : d.month ≤ 2) :
    daysBefore (d.year - 1) + 306 ≤ d.toDays + 719468 ∧ d.toDays + 719468 < daysBefore d.year := by
  obtain ⟨hm₁, -, hd₁, hd₂⟩ := h
  have hnext := daysBefore_succ (d.year - 1)
  rw [Int.sub_add_cancel] at hnext
  have heq := d.toDays_eq
  rw [if_pos early, monthStart] at heq
  rw [monthLength_eq] at hd₂
  by_cases hfeb : d.month = 2
  · rw [if_pos hfeb] at hd₂
    rw [hfeb] at heq
    by_cases hleap : isLeap d.year = true
    · rw [if_pos hleap] at hnext hd₂
      omega
    · rw [if_neg hleap] at hnext hd₂
      omega
  · have hjan : d.month = 1 := by omega
    rw [if_neg hfeb, if_neg (by omega)] at hd₂
    rw [hjan] at heq
    split at hnext <;> omega

/-- The other months begin on the first of March. -/
theorem toDays_range_late {d : Date} (h : d.Exists) (late : ¬ d.month ≤ 2) :
    daysBefore d.year ≤ d.toDays + 719468 ∧ d.toDays + 719468 < daysBefore d.year + 306 := by
  obtain ⟨-, hm₂, hd₁, hd₂⟩ := h
  have heq := d.toDays_eq
  rw [if_neg late, monthStart] at heq
  rw [monthLength_eq, if_neg (by omega)] at hd₂
  split at hd₂ <;> omega

/-- A date lies between the first of January of its year and that of the next. -/
theorem toDays_range {d : Date} (h : d.Exists) :
    daysBefore (d.year - 1) + 306 ≤ d.toDays + 719468 ∧ d.toDays + 719468 < daysBefore d.year + 306 := by
  have hnext := daysBefore_succ (d.year - 1)
  rw [Int.sub_add_cancel] at hnext
  by_cases hearly : d.month ≤ 2
  · have := toDays_range_early h hearly
    omega
  · have := toDays_range_late h hearly
    split at hnext <;> omega

/-- A month begins after the months before it have ended. -/
theorem monthStart_add_monthLength {m m' : Nat} (y : Int) (hm : 1 ≤ m) (h : m < m') (hm' : m' ≤ 12)
    (side : m' ≤ 2 ∨ 2 < m) : monthStart m + monthLength y m ≤ monthStart m' := by
  rw [monthLength_eq, if_neg (by omega)]
  simp only [monthStart]
  split
  · omega
  · have hcases : m = 1 ∨ m = 3 ∨ m = 5 ∨ m = 7 ∨ m = 8 ∨ m = 10 := by omega
    obtain rfl | rfl | rfl | rfl | rfl | rfl := hcases <;> omega

/-- **An earlier date is fewer days.** -/
theorem toDays_lt_of_before {d e : Date} (hd : d.Exists) (he : e.Exists) (h : d.Before e) :
    d.toDays < e.toDays := by
  rcases h with hyear | ⟨hyear, h⟩
  · have := toDays_range hd
    have := toDays_range he
    have := daysBefore_mono (y := d.year) (z := e.year - 1) (by omega)
    omega
  · by_cases hsides : d.month ≤ 2 ∧ ¬ e.month ≤ 2
    · have := toDays_range_early hd hsides.1
      have := toDays_range_late he hsides.2
      rw [← hyear] at this
      omega
    · have hsame : d.month ≤ 2 ↔ e.month ≤ 2 := by omega
      simp only [d.toDays_eq, e.toDays_eq, hyear, hsame]
      obtain ⟨hd₁, hd₂, hd₃, hd₄⟩ := hd
      obtain ⟨he₁, he₂, he₃, he₄⟩ := he
      rcases h with hmonth | ⟨hmonth, hday⟩
      · have := monthStart_add_monthLength d.year hd₁ hmonth he₂ (by omega)
        omega
      · rw [hmonth]
        omega

/-- **The date of a number of days exists and is that many days.** -/
theorem ofDays_spec (n : Int) : (ofDays n).toDays = n ∧ (ofDays n).Exists := by
  obtain ⟨year, doy, heq, hn, hr, hlast⟩ := ofDays_eq n
  rw [heq, hn]
  exact ofMarch_spec hr hlast

theorem before_trichotomy (d e : Date) : d.Before e ∨ d = e ∨ e.Before d := by
  obtain ⟨y, m, day⟩ := d
  obtain ⟨y', m', day'⟩ := e
  simp only [Before, Date.mk.injEq]
  omega

/-- **More days are a later date.** -/
theorem ofDays_before {m n : Int} : (ofDays m).Before (ofDays n) ↔ m < n := by
  obtain ⟨hm, hme⟩ := ofDays_spec m
  obtain ⟨hn, hne⟩ := ofDays_spec n
  refine ⟨fun h => ?_, fun h => ?_⟩
  · have := toDays_lt_of_before hme hne h
    omega
  · rcases before_trichotomy (ofDays m) (ofDays n) with hlt | heq | hgt
    · exact hlt
    · rw [heq] at hm
      omega
    · have := toDays_lt_of_before hne hme hgt
      omega

theorem year_mono {m n : Int} (h : m ≤ n) : (ofDays m).year ≤ (ofDays n).year := by
  rcases Int.lt_or_eq_of_le h with hlt | rfl
  · rcases ofDays_before.2 hlt with hyear | ⟨hyear, -⟩ <;> omega
  · exact Int.le_refl _

end SwarmSampler.Date
