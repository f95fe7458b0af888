import Mathlib.Algebra.Order.Ring.Nat
import SwarmSampler.Proofs.Text.Decimal
import SwarmSampler.Time.Span.Text

/-
Spans as text and back. A span is written as parts, each a count and a unit;
the reader adds up just what they stand for, and for no span does a count leave
its word on the way.
-/

namespace SwarmSampler.Span

open Text

/-- How many nanoseconds a unit has. -/
def Unit.nanos (u : Unit) : Nat :=
  match u.scale with
  | .inl k => k
  | .inr k => k * 1_000_000_000

/-- A count and a unit, which has a name. -/
structure Part where
  count : Nat
  unit : Unit
  name : String

namespace Part

def nanos (p : Part) : Nat := p.count * p.unit.nanos

def text (p : Part) : String := toString p.count ++ p.name

/-- What the reader asks of a part: its unit's name, and less than a second in units below the second. -/
structure Fine (p : Part) : Prop where
  spelled : Unit.ofSpelling? p.name.toList = some p.unit
  letters : ∀ c ∈ p.name.toList, isLetter c = true
  below : ∀ k, p.unit.scale = .inl k → p.count * k < 1_000_000_000

end Part

/-- How many nanoseconds some parts have. -/
def nanosOf (parts : List Part) : Nat := (parts.map Part.nanos).sum

/-! ## Adding a part -/

theorem subsecond_lt (s : Span) : s.subsecond < 1_000_000_000 := Nat.mod_lt _ (by decide)

theorem parts_eq (s : Span) : s.seconds * 1_000_000_000 + s.subsecond = s.nanos := Nat.div_add_mod' s.nanos _

theorem spanLimit_eq : spanLimit = wordLimit * 1_000_000_000 := by decide

/-- The whole seconds of a span fit the word. -/
theorem lt_wordLimit {seconds rest : Nat} (h : rest + seconds * 1_000_000_000 < spanLimit) : seconds < wordLimit := by
  rw [spanLimit_eq] at h
  exact Nat.lt_of_mul_lt_mul_right (Nat.lt_of_le_of_lt (Nat.le_add_left _ rest) h)

theorem word_of_lt {n : Nat} (h : n < wordLimit) : word n = .ok n := if_pos h

/-- Nothing is carried when less than a second is added to less than a second. -/
theorem lt_wordLimit_of_below {m n : Nat} (hm : m < 1_000_000_000) (hn : n < 1_000_000_000) : m + n < wordLimit :=
  Nat.lt_trans (Nat.add_lt_add hm hn) (by decide)

theorem ok_bind {α β : Type} (x : α) (f : α → Scan β) : ((.ok x : Scan α) >>= f) = f x := rfl

/-- Seconds and nanoseconds of less than a second make up a sum that is a span. -/
theorem extend_eq {total sum : Span} {seconds nanos : Nat} (hn : nanos < 1_000_000_000)
    (hsum : sum.nanos = total.nanos + (seconds * 1_000_000_000 + nanos)) : extend total seconds nanos = .ok sum := by
  have hbelow : total.subsecond + nanos < wordLimit := lt_wordLimit_of_below total.subsecond_lt hn
  have hparts : (total.subsecond + nanos) + (total.seconds + seconds) * 1_000_000_000 = sum.nanos := by
    rw [hsum, ← total.parts_eq, Nat.add_comm, Nat.add_mul, Nat.add_add_add_comm]
  have habove : total.seconds + seconds < wordLimit := lt_wordLimit (hparts ▸ sum.nanos_lt)
  have hof : ofParts? (total.seconds + seconds) (total.subsecond + nanos) = some sum := by
    rw [ofParts?, Nat.add_comm, hparts, ofNanos?_nanos]
  unfold extend
  rw [word_of_lt hbelow, word_of_lt habove, ok_bind, ok_bind, hof]
  rfl

/-- **A part adds its nanoseconds.** -/
theorem addWhole_eq {total sum : Span} {p : Part} (hp : p.Fine) (hsum : sum.nanos = total.nanos + p.nanos) :
    addWhole total p.count p.unit = .ok sum := by
  unfold addWhole
  cases hscale : p.unit.scale with
  | inl k =>
    have hbelow := hp.below k hscale
    have hnanos : p.nanos = 0 * 1_000_000_000 + p.count * k := by
      simp only [Part.nanos, Unit.nanos, hscale, Nat.zero_mul, Nat.zero_add]
    have hword : word (p.count * k) = .ok (p.count * k) := word_of_lt (Nat.lt_trans hbelow (by decide))
    rw [hnanos] at hsum
    dsimp only
    rw [hword, ok_bind]
    exact extend_eq hbelow hsum
  | inr k =>
    have hnanos : p.nanos = p.count * k * 1_000_000_000 := by rw [Part.nanos, Unit.nanos, hscale, Nat.mul_assoc]
    rw [hnanos] at hsum
    have hword : word (p.count * k) = .ok (p.count * k) := word_of_lt (lt_wordLimit (hsum ▸ sum.nanos_lt))
    dsimp only
    rw [hword, ok_bind]
    exact extend_eq (by decide) (by rw [hsum, Nat.add_zero])

/-! ## Reading a part -/

section Reading

variable {total : Option Span} {n : Nat} {c : Char}

theorem toNat_of_isLetter (h : isLetter c = true) : 65 ≤ c.toNat ∧ c.toNat ≤ 122 := by
  simp only [isLetter, isLower, isUpper, Bool.or_eq_true, Bool.and_eq_true, decide_eq_true_eq, Char.le_def,
    UInt32.le_iff_toNat_le] at h
  have hbounds : ('a' : Char).val.toNat = 97 ∧ ('z' : Char).val.toNat = 122 ∧ ('A' : Char).val.toNat = 65 ∧
      ('Z' : Char).val.toNat = 90 := ⟨rfl, rfl, rfl, rfl⟩
  have hval : c.toNat = c.val.toNat := rfl
  omega

theorem not_isDigit_of_isLetter (h : isLetter c = true) : isDigit c = false := by
  have hrange := toNat_of_isLetter h
  refine Bool.eq_false_iff.2 fun hdigit => ?_
  simp only [isDigit, Bool.and_eq_true, decide_eq_true_eq, Char.le_def, UInt32.le_iff_toNat_le] at hdigit
  have hnine : ('9' : Char).val.toNat = 57 := rfl
  have hval : c.toNat = c.val.toNat := rfl
  omega

theorem not_isBlank_of_isLetter (h : isLetter c = true) : isBlank c = false := by
  have hrange := toNat_of_isLetter h
  refine Bool.eq_false_iff.2 fun hblank => ?_
  simp only [isBlank, Bool.or_eq_true, Bool.and_eq_true, decide_eq_true_eq, beq_iff_eq] at hblank
  omega

theorem readChar_letter (h : isLetter c = true) : readChar ⟨total, .whole n⟩ c = .ok ⟨total, .unit n none [c]⟩ := by
  simp only [readChar, not_isDigit_of_isLetter h, not_isBlank_of_isLetter h, isUnitLetter, h, Bool.false_eq_true,
    ↓reduceIte, Bool.true_or]
  rfl

theorem readChar_more {letters : List Char} (h : isLetter c = true) :
    readChar ⟨total, .unit n none letters⟩ c = .ok ⟨total, .unit n none (c :: letters)⟩ := by
  simp only [readChar, not_isDigit_of_isLetter h, not_isBlank_of_isLetter h, isUnitLetter, h, Bool.false_eq_true,
    ↓reduceIte, Bool.true_or]
  rfl

theorem readChar_digit (h : isDigit c = true) (hword : 10 * n + digitValue c < wordLimit) :
    readChar ⟨total, .whole n⟩ c = .ok ⟨total, .whole (10 * n + digitValue c)⟩ := by
  simp only [readChar, h, ↓reduceIte, word_of_lt hword]
  rfl

theorem readChar_first (h : isDigit c = true) : readChar ⟨total, .gap⟩ c = .ok ⟨total, .whole (digitValue c)⟩ := by
  simp only [readChar, h, ↓reduceIte]
  rfl

theorem read_letters {letters : List Char} (h : ∀ c ∈ letters, isLetter c = true) : ∀ before : List Char,
    letters.foldlM readChar ⟨total, .unit n none before⟩ = .ok ⟨total, .unit n none (letters.reverse ++ before)⟩ := by
  induction letters with
  | nil => exact fun _ => rfl
  | cons c letters ih =>
    intro before
    rw [List.foldlM_cons, readChar_more (h c (.head _)), ok_bind, ih fun c hc => h c (.tail _ hc)]
    rw [List.reverse_cons, List.append_assoc, List.singleton_append]

theorem le_foldl_digits (digits : List Char) : ∀ n, n ≤ digits.foldl (fun n c => 10 * n + digitValue c) n := by
  induction digits with
  | nil => exact Nat.le_refl
  | cons c digits ih =>
    intro n
    exact Nat.le_trans (by dsimp only; omega) (ih _)

theorem read_digits {digits : List Char} (h : ∀ c ∈ digits, isDigit c = true) : ∀ n,
    digits.foldl (fun n c => 10 * n + digitValue c) n < wordLimit →
      digits.foldlM readChar ⟨total, .whole n⟩ =
        .ok ⟨total, .whole (digits.foldl (fun n c => 10 * n + digitValue c) n)⟩ := by
  induction digits with
  | nil => exact fun _ _ => rfl
  | cons c digits ih =>
    intro n hfit
    rw [List.foldl_cons] at hfit ⊢
    have hword : 10 * n + digitValue c < wordLimit := Nat.lt_of_le_of_lt (le_foldl_digits digits _) hfit
    rw [List.foldlM_cons, readChar_digit (h c (.head _)) hword, ok_bind]
    exact ih (fun c hc => h c (.tail _ hc)) _ hfit

theorem readDigits_cons (c : Char) (digits : List Char) :
    readDigits (c :: digits) = digits.foldl (fun n c => 10 * n + digitValue c) (digitValue c) := by
  rw [readDigits, List.foldl_cons, Nat.mul_zero, Nat.zero_add]

theorem ofSpelling?_nil : Unit.ofSpelling? [] = none := by decide

/-- **A part is read up to its unit.** -/
theorem read_part {p : Part} (hp : p.Fine) (hword : p.count < wordLimit) :
    p.text.toList.foldlM readChar ⟨total, .gap⟩ = .ok ⟨total, .unit p.count none p.name.toList.reverse⟩ := by
  have hdigits : ∀ c ∈ decimal p.count, isDigit c = true := fun c hc => isDigit_of_mem_decimal hc
  have hread := readDigits_decimal p.count
  have hletters := hp.letters
  have hspelled := hp.spelled
  rw [Part.text, String.toList_append, toList_toString, List.foldlM_append]
  obtain ⟨d, ds, hdecimal⟩ : ∃ d ds, decimal p.count = d :: ds := List.exists_cons_of_ne_nil Nat.toDigits_ne_nil
  cases hname : p.name.toList with
  | nil =>
    rw [hname, ofSpelling?_nil] at hspelled
    cases hspelled
  | cons l ls =>
    rw [hname] at hletters
    rw [hdecimal] at hdigits hread ⊢
    rw [readDigits_cons] at hread
    rw [List.foldlM_cons, readChar_first (hdigits d (.head _)), ok_bind,
      read_digits (fun c hc => hdigits c (.tail _ hc)) _ (hread.symm ▸ hword), hread, ok_bind,
      List.foldlM_cons, readChar_letter (hletters l (.head _)), ok_bind,
      read_letters fun c hc => hletters c (.tail _ hc)]
    rw [List.reverse_cons]

theorem Unit.scale_pos (u : Unit) : 0 < u.scale.elim id id := by cases u <;> decide

theorem Part.Fine.count_lt {p : Part} (hp : p.Fine) (hfit : p.nanos < spanLimit) : p.count < wordLimit := by
  cases hscale : p.unit.scale with
  | inl k =>
    have hk : 0 < k := by simpa [hscale] using p.unit.scale_pos
    exact Nat.lt_trans (Nat.lt_of_le_of_lt (Nat.le_mul_of_pos_right _ hk) (hp.below k hscale)) (by decide)
  | inr k =>
    have hk : 0 < k := by simpa [hscale] using p.unit.scale_pos
    have hnanos : p.nanos = 0 + p.count * k * 1_000_000_000 := by
      rw [Part.nanos, Unit.nanos, hscale, Nat.mul_assoc, Nat.zero_add]
    exact Nat.lt_of_le_of_lt (Nat.le_mul_of_pos_right _ hk) (lt_wordLimit (hnanos ▸ hfit))

/-- A part that is read is added. -/
theorem finishTerm_eq {p : Part} (hp : p.Fine) {sum : Span} (hsum : sum.nanos = (total.getD zero).nanos + p.nanos) :
    finishTerm total p.count none p.name.toList.reverse = .ok sum := by
  unfold finishTerm
  rw [List.reverse_reverse, hp.spelled]
  dsimp only
  rw [addWhole_eq hp hsum, ok_bind]
  rfl

theorem nanosOf_cons (p : Part) (rest : List Part) : nanosOf (p :: rest) = p.nanos + nanosOf rest := by
  rw [nanosOf, List.map_cons, List.sum_cons, nanosOf]

theorem readChar_space {letters : List Char} {sum : Span} (h : finishTerm total n none letters = .ok sum) :
    readChar ⟨total, .unit n none letters⟩ ' ' = .ok ⟨some sum, .gap⟩ := by
  have hblank : isDigit ' ' = false ∧ isBlank ' ' = true := by decide
  simp only [readChar, hblank, h, Bool.false_eq_true, ↓reduceIte]
  rfl

theorem fits_of_sum {sum : Span} {m n k : Nat} (h : sum.nanos = m + (n + k)) : m + n < spanLimit := by
  refine Nat.lt_of_le_of_lt ?_ sum.nanos_lt
  rw [h, ← Nat.add_assoc]
  exact Nat.le_add_right _ _

/-- **Parts are read one after another.** All but the last are added by the time the last one is read. -/
theorem read_parts (rest : List Part) : ∀ {p : Part} {total : Option Span} {sum : Span},
    (∀ q ∈ p :: rest, q.Fine) → sum.nanos = (total.getD zero).nanos + nanosOf (p :: rest) →
    ∃ (before : Option Span) (last : Part),
      ([' '].intercalate ((p :: rest).map (·.text.toList))).foldlM readChar ⟨total, .gap⟩ =
        .ok ⟨before, .unit last.count none last.name.toList.reverse⟩ ∧
      finishTerm before last.count none last.name.toList.reverse = .ok sum := by
  induction rest with
  | nil =>
    intro p total sum hfine hsum
    have hp := hfine p (.head _)
    rw [nanosOf_cons] at hsum
    have hword := hp.count_lt (Nat.lt_of_le_of_lt (Nat.le_add_left _ _) (fits_of_sum hsum))
    refine ⟨total, p, ?_, finishTerm_eq hp hsum⟩
    show List.foldlM readChar _ ([' '].intercalate [p.text.toList]) = _
    rw [List.intercalate_singleton]
    exact read_part hp hword
  | cons q rest ih =>
    intro p total sum hfine hsum
    have hp := hfine p (.head _)
    rw [nanosOf_cons] at hsum
    have hfit := fits_of_sum hsum
    have hword := hp.count_lt (Nat.lt_of_le_of_lt (Nat.le_add_left _ _) hfit)
    have hdone : finishTerm total p.count none p.name.toList.reverse = .ok ⟨_, hfit⟩ := finishTerm_eq hp rfl
    have hlater : sum.nanos = ((some ⟨_, hfit⟩ : Option Span).getD zero).nanos + nanosOf (q :: rest) := by
      rw [hsum, Option.getD_some, Nat.add_assoc]
    obtain ⟨before, last, hread, hlast⟩ := ih (fun r hr => hfine r (.tail _ hr)) hlater
    refine ⟨before, last, ?_, hlast⟩
    rw [List.map_cons, List.map_cons, List.intercalate_cons_cons, List.foldlM_append, List.foldlM_append,
      read_part hp hword, ok_bind, List.foldlM_cons, readChar_space hdone, ok_bind, List.foldlM_nil]
    exact hread

end Reading

/-! ## Writing parts -/

/-- A part, nothing for a count of zero. -/
def partOf (n : Nat) (u : Unit) (name : String) : List Part := if n = 0 then [] else [⟨n, u, name⟩]

def plural (n : Nat) (name : String) : String := if 1 < n then name ++ "s" else name

/-- The parts a span is written as. -/
def partsOf (s : Span) : List Part :=
  let inYear := s.seconds % 31557600
  let inMonth := inYear % 2630016
  let inDay := inMonth % 86400
  partOf (s.seconds / 31557600) .year (plural (s.seconds / 31557600) "year") ++
  partOf (inYear / 2630016) .month (plural (inYear / 2630016) "month") ++
  partOf (inMonth / 86400) .day (plural (inMonth / 86400) "day") ++ partOf (inDay / 3600) .hour "h" ++
  partOf (inDay % 3600 / 60) .minute "m" ++ partOf (inDay % 60) .second "s" ++
  partOf (s.subsecond / 1_000_000) .millisecond "ms" ++ partOf (s.subsecond / 1000 % 1000) .microsecond "us" ++
  partOf (s.subsecond % 1000) .nanosecond "ns"

section Writing

variable {n : Nat} {u : Unit} {name : String}

@[simp] theorem map_text_partOf : (partOf n u name).map Part.text = term n name := by
  unfold partOf term
  split <;> rfl

@[simp] theorem nanosOf_partOf : nanosOf (partOf n u name) = n * u.nanos := by
  unfold partOf
  split
  · next h => rw [h, Nat.zero_mul]; rfl
  · exact Nat.add_zero _

@[simp] theorem nanosOf_append (a b : List Part) : nanosOf (a ++ b) = nanosOf a + nanosOf b := by
  rw [nanosOf, List.map_append, List.sum_append, nanosOf, nanosOf]

/-- What is written of a span is its parts. -/
theorem text_eq (s : Span) :
    s.text = if partsOf s = [] then "0s" else " ".intercalate ((partsOf s).map Part.text) := by
  have hterms : ∀ n name, pluralTerm n name = term n (plural n name) := fun _ _ => rfl
  have hempty : partsOf s = [] ↔ (partsOf s).map Part.text = [] := List.map_eq_nil_iff.symm
  simp only [hempty]
  simp only [text, partsOf, hterms, List.map_append, map_text_partOf]

theorem seconds_split (n : Nat) :
    n / 31557600 * 31557600 + n % 31557600 / 2630016 * 2630016 + n % 31557600 % 2630016 / 86400 * 86400 +
      n % 31557600 % 2630016 % 86400 / 3600 * 3600 + n % 31557600 % 2630016 % 86400 % 3600 / 60 * 60 +
      n % 31557600 % 2630016 % 86400 % 60 = n := by
  omega

theorem subsecond_split (n : Nat) : n / 1_000_000 * 1_000_000 + n / 1000 % 1000 * 1000 + n % 1000 = n := by
  omega

/-- **The parts of a span add up to it**, although no number of months makes a year and no number of days a month. -/
theorem nanosOf_partsOf (s : Span) : nanosOf (partsOf s) = s.nanos := by
  rw [← s.parts_eq]
  conv => rhs; rw [← seconds_split s.seconds, ← subsecond_split s.subsecond]
  simp only [partsOf, nanosOf_append, nanosOf_partOf, Unit.nanos, Unit.scale, Nat.add_mul, Nat.mul_assoc, Nat.mul_one,
    Nat.one_mul, Nat.add_assoc]

theorem fine_partOf (hspelled : Unit.ofSpelling? name.toList = some u) (hletters : name.toList.all isLetter = true)
    (hbelow : ∀ k, u.scale = .inl k → n * k < 1_000_000_000) : ∀ q ∈ partOf n u name, q.Fine := by
  unfold partOf
  split
  · exact fun _ hq => absurd hq List.not_mem_nil
  · intro q hq
    rw [List.mem_singleton.1 hq]
    exact ⟨hspelled, List.all_eq_true.1 hletters, hbelow⟩

/-- A unit from the second on may be written in any count. -/
theorem fine_above {k : Nat} (hscale : u.scale = .inr k) (hspelled : Unit.ofSpelling? name.toList = some u)
    (hletters : name.toList.all isLetter = true) : ∀ q ∈ partOf n u name, q.Fine := by
  refine fine_partOf hspelled hletters fun j hj => ?_
  rw [hscale] at hj
  cases hj

theorem fine_below {k : Nat} (hscale : u.scale = .inl k) (hspelled : Unit.ofSpelling? name.toList = some u)
    (hletters : name.toList.all isLetter = true) (hbelow : n * k < 1_000_000_000) : ∀ q ∈ partOf n u name, q.Fine := by
  refine fine_partOf hspelled hletters fun j hj => ?_
  rw [hscale] at hj
  cases hj
  exact hbelow

theorem fine_plural {k : Nat} (hscale : u.scale = .inr k)
    (hnames : ∀ full ∈ [name, name ++ "s"], Unit.ofSpelling? full.toList = some u ∧ full.toList.all isLetter = true) :
    ∀ q ∈ partOf n u (plural n name), q.Fine := by
  have hmem : plural n name ∈ [name, name ++ "s"] := by
    unfold plural
    split
    · exact .tail _ (.head _)
    · exact .head _
  exact fine_above hscale (hnames _ hmem).1 (hnames _ hmem).2

theorem fine_partsOf (s : Span) : ∀ q ∈ partsOf s, q.Fine := by
  have hsubsecond := s.subsecond_lt
  have hthousand : ∀ n k, 1000 * k ≤ 1_000_000_000 → 0 < k → n % 1000 * k < 1_000_000_000 := fun n k hk hpos =>
    Nat.lt_of_lt_of_le (Nat.mul_lt_mul_of_pos_right (Nat.mod_lt n (by decide)) hpos) hk
  simp only [partsOf, List.forall_mem_append, and_assoc]
  exact ⟨fine_plural rfl (by decide), fine_plural rfl (by decide), fine_plural rfl (by decide),
    fine_above rfl (by decide) (by decide), fine_above rfl (by decide) (by decide),
    fine_above rfl (by decide) (by decide),
    fine_below rfl (by decide) (by decide) (Nat.lt_of_le_of_lt (Nat.div_mul_le_self _ _) hsubsecond),
    fine_below rfl (by decide) (by decide) (hthousand _ _ (by decide) (by decide)),
    fine_below rfl (by decide) (by decide) (hthousand _ _ (by decide) (by decide))⟩

/-- **What is written of a span is read back as the span.** -/
theorem ofText?_text (s : Span) : ofText? s.text = some s := by
  have hsum := nanosOf_partsOf s
  have hfine := fine_partsOf s
  rw [text_eq]
  cases hparts : partsOf s with
  | nil =>
    -- The span of no time has no parts and is written `0s`.
    rw [hparts] at hsum
    have hs : s = zero := ext_nanos hsum.symm
    rw [hs]
    rfl
  | cons p rest =>
    rw [hparts] at hsum hfine
    have htotal : s.nanos = ((none : Option Span).getD zero).nanos + nanosOf (p :: rest) :=
      ((Nat.zero_add _).trans hsum).symm
    obtain ⟨before, last, hread, hlast⟩ := read_parts rest hfine htotal
    rw [if_neg (List.cons_ne_nil _ _)]
    have hlist : (" ".intercalate ((p :: rest).map Part.text)).toList =
        [' '].intercalate ((p :: rest).map (·.text.toList)) := by
      rw [String.toList_intercalate, List.map_map]
      rfl
    have hother : " ".intercalate ((p :: rest).map Part.text) ≠ "0" := fun hzero => by
      rw [← hlist, hzero] at hread
      cases hread
    rw [ofText?, read, if_neg hother, hlist, hread, ok_bind]
    dsimp only
    rw [hlast]
    rfl

end Writing

end SwarmSampler.Span
