import SwarmSampler.Magnet
import SwarmSampler.Proofs.Text.Decimal

/-
The exact topic of a query. A topic starts where a parameter may start and has a
name in any letter case, a value and a proper end; one whose end is not proper is
none, and the next place is tried. The topic that is found is the leftmost.
-/

namespace SwarmSampler.Magnet

open Text

/-- A topic right at the front of a text: its name in any letter case, a value of one sign or more, and then
the next parameter or the end. An ampersand is no sign of a value, so the value is as long as it can be. -/
def Opens (s value : List Char) : Prop :=
  ∃ name rest, s = name ++ (value ++ rest) ∧ name.map lower = topic ∧ value ≠ [] ∧
    (∀ c ∈ value, isTopicChar c = true) ∧ (rest = [] ∨ rest.head? = some '&')

/-- A parameter may start at a place: at the front of the query, or behind a mark. -/
def Starts (query : List Char) (i : Nat) : Prop :=
  i = 0 ∨ query[i - 1]? = some '?' ∨ query[i - 1]? = some '&'

instance (query : List Char) (i : Nat) : Decidable (Starts query i) :=
  inferInstanceAs (Decidable (_ ∨ _ ∨ _))

/-- The leftmost topic of a query, where it is and its value. -/
structure FirstTopic (query : List Char) (i : Nat) (value : List Char) : Prop where
  starts : Starts query i
  opens : Opens (query.drop i) value
  leftmost : ∀ j < i, Starts query j → ∀ other, ¬ Opens (query.drop j) other

/-! ## A topic at one place -/

theorem isTopicChar_ampersand : isTopicChar '&' = false := by decide

theorem sameFolded_topic {s : List Char} : sameFolded s topic = true ↔ s.map lower = topic := by
  have htopic : topic.map lower = topic := by decide
  rw [sameFolded, htopic, beq_iff_eq]

theorem endsParameter_iff {s : List Char} : endsParameter s = true ↔ s = [] ∨ s.head? = some '&' := by
  cases s <;> simp [endsParameter]

theorem topicHere?_eq_some_iff {s value : List Char} : topicHere? s = some value ↔ Opens s value := by
  rw [topicHere?]
  constructor
  · intro h
    split at h
    · next hall =>
      cases h
      simp only [Bool.and_eq_true, bne_iff_ne, sameFolded_topic, endsParameter_iff] at hall
      obtain ⟨⟨hname, hvalue⟩, hend⟩ := hall
      refine ⟨s.take topic.length, (s.drop topic.length).dropWhile isTopicChar, ?_, hname, hvalue,
        List.all_eq_true.1 List.all_takeWhile, hend⟩
      rw [List.takeWhile_append_dropWhile, List.take_append_drop]
    · cases h
  · rintro ⟨name, rest, rfl, hname, hvalue, hsigns, hend⟩
    have hlength : name.length = topic.length := hname ▸ (List.length_map lower).symm
    have hrest : ∀ c ∈ rest.head?, isTopicChar c = false := by
      intro c hc
      rcases hend with rfl | hend
      · cases hc
      · rw [hend] at hc
        cases hc
        exact isTopicChar_ampersand
    rw [List.take_left' hlength, List.drop_left' hlength, takeWhile_run hsigns hrest, dropWhile_run hsigns hrest,
      if_pos]
    simp only [Bool.and_eq_true, bne_iff_ne, sameFolded_topic, endsParameter_iff]
    exact ⟨⟨hname, hvalue⟩, hend⟩

/-! ## The leftmost topic -/

/-- The value of the topic at a place, none where no parameter may start. -/
def topicAt? (query : List Char) (i : Nat) : Option (List Char) :=
  if Starts query i then topicHere? (query.drop i) else none

theorem topicAt?_eq_some_iff {query value : List Char} {i : Nat} :
    topicAt? query i = some value ↔ Starts query i ∧ Opens (query.drop i) value := by
  rw [topicAt?]
  split
  · next h => simp only [topicHere?_eq_some_iff, h, true_and]
  · next h => simp only [h, false_and, reduceCtorEq]

theorem topicAt?_eq_none_iff {query : List Char} {i : Nat} :
    topicAt? query i = none ↔ (Starts query i → ∀ value, ¬ Opens (query.drop i) value) := by
  simp only [Option.eq_none_iff_forall_ne_some, ne_eq, topicAt?_eq_some_iff, not_and]
  exact forall_comm

/-- A place of the rest of a text is the place after it in the text. -/
theorem topicAt?_cons (c : Char) (s : List Char) (i : Nat) : topicAt? (c :: s) (i + 2) = topicAt? s (i + 1) := by
  have hstarts : Starts (c :: s) (i + 2) ↔ Starts s (i + 1) := by simp [Starts]
  simp only [topicAt?, hstarts, List.drop_succ_cons]

theorem findSome?_range_succ {α : Type} (f : Nat → Option α) (n : Nat) :
    (List.range (n + 1)).findSome? f = (f 0).or ((List.range n).findSome? fun i => f (i + 1)) := by
  rw [List.range_succ_eq_map, List.findSome?_cons, List.findSome?_map]
  cases f 0 <;> rfl

theorem topicAfterMark?_eq_findSome? (s : List Char) :
    topicAfterMark? s = (List.range s.length).findSome? fun i => topicAt? s (i + 1) := by
  induction s with
  | nil => rfl
  | cons c s ih =>
    have hmark : Starts (c :: s) 1 ↔ (c == '?' || c == '&') = true := by simp [Starts]
    rw [List.length_cons, findSome?_range_succ, funext (topicAt?_cons c s), ← ih, topicAfterMark?, topicAt?]
    by_cases h : Starts (c :: s) 1
    · rw [if_pos (hmark.1 h), if_pos h]
      rfl
    · rw [if_neg (mt hmark.2 h), if_neg h, Option.none_or]

/-- The topic that is found is the first of those at any place. -/
theorem firstTopic?_eq_findSome? (query : List Char) :
    firstTopic? query = (List.range (query.length + 1)).findSome? (topicAt? query) := by
  rw [firstTopic?, findSome?_range_succ, topicAfterMark?_eq_findSome?, topicAt?, if_pos (.inl rfl), List.drop_zero]

theorem findSome?_range_eq_some_iff {α : Type} {f : Nat → Option α} {n : Nat} {a : α} :
    (List.range n).findSome? f = some a ↔ ∃ i < n, f i = some a ∧ ∀ j < i, f j = none := by
  induction n with
  | zero => simp
  | succ n ih =>
    rw [List.range_succ, List.findSome?_append, Option.or_eq_some_iff, ih, List.findSome?_eq_none_iff,
      List.findSome?_singleton]
    constructor
    · rintro (⟨i, hi, h⟩ | ⟨hbefore, hlast⟩)
      · exact ⟨i, Nat.lt_succ_of_lt hi, h⟩
      · exact ⟨n, Nat.lt_succ_self n, hlast, fun j hj => hbefore j (List.mem_range.2 hj)⟩
    · rintro ⟨i, hi, h, hbefore⟩
      rcases Nat.lt_succ_iff_lt_or_eq.1 hi with hi | rfl
      · exact .inl ⟨i, hi, h, hbefore⟩
      · exact .inr ⟨fun j hj => hbefore j (List.mem_range.1 hj), h⟩

theorem Starts.le_length {query : List Char} {i : Nat} (h : Starts query i) : i ≤ query.length := by
  rcases h with rfl | h | h
  · exact Nat.zero_le _
  all_goals
    have := (List.getElem?_eq_some_iff.1 h).1
    omega

/-- **The topic that is found is the leftmost one.** -/
theorem firstTopic?_eq_some_iff {query value : List Char} :
    firstTopic? query = some value ↔ ∃ i, FirstTopic query i value := by
  rw [firstTopic?_eq_findSome?, findSome?_range_eq_some_iff]
  simp only [topicAt?_eq_some_iff, topicAt?_eq_none_iff]
  constructor
  · rintro ⟨i, -, ⟨hstarts, hopens⟩, hleft⟩
    exact ⟨i, hstarts, hopens, hleft⟩
  · rintro ⟨i, hstarts, hopens, hleft⟩
    exact ⟨i, Nat.lt_succ_of_le hstarts.le_length, ⟨hstarts, hopens⟩, hleft⟩

/-- A query has one leftmost topic. -/
theorem FirstTopic.unique {query value other : List Char} {i j : Nat} (h : FirstTopic query i value)
    (h' : FirstTopic query j other) : value = other :=
  Option.some.inj ((firstTopic?_eq_some_iff.2 ⟨i, h⟩).symm.trans (firstTopic?_eq_some_iff.2 ⟨j, h'⟩))

end SwarmSampler.Magnet
