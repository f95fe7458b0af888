import SwarmSampler.Proofs.Magnet.Topic
import SwarmSampler.Proofs.Text.Bytes

/-
The exact topic as a search pattern, `(?:^|[?&])xt=urn:btih:([0-9a-z]+)(?:&|$)` in
any case, and what such a search holds in its group. A pattern may match in many
ways from one place, the longest run first; what is taken is the first way at the
first place that has one. Runs need not be tried shorter, for no sign of a value
can end it, so the search finds what the leftmost topic has as its value.
-/

namespace SwarmSampler

/-- Patterns over characters. -/
inductive Pattern
  | empty
  /-- The front of the text. -/
  | front
  /-- The end of the text. -/
  | back
  | sign (p : Char → Bool)
  /-- One such sign or more, the more the better. -/
  | run (p : Char → Bool)
  | either (a b : Pattern)
  | both (a b : Pattern)
  | group (a : Pattern)

namespace Pattern

/-- The ways in which a pattern matches from a place on, the preferred first: up to which place, and what its
group holds. -/
def ways (text : List Char) : Pattern → Nat → List (Nat × Option (List Char))
  | empty, i => [(i, none)]
  | front, i => if i = 0 then [(i, none)] else []
  | back, i => if i = text.length then [(i, none)] else []
  | sign p, i => if text[i]?.any p then [(i + 1, none)] else []
  | run p, i => (List.range ((text.drop i).takeWhile p).length).reverse.map fun n => (i + n + 1, none)
  | either a b, i => a.ways text i ++ b.ways text i
  | both a b, i => (a.ways text i).flatMap fun w => (b.ways text w.1).map fun v => (v.1, v.2.or w.2)
  | group a, i => (a.ways text i).map fun w => (w.1, some ((text.take w.1).drop i))

/-- What the group holds in the first way at the first place that has one. -/
def captured? (p : Pattern) (text : List Char) : Option (List Char) :=
  ((List.range (text.length + 1)).findSome? fun i => (p.ways text i).head?).bind (·.2)

/-- The case of a sign does not count. Beside the capitals two signs beyond ASCII fold to letters of it. -/
def fold (c : Char) : Char := if c = '\u017F' then 's' else if c = '\u212A' then 'k' else Text.lower c

/-- A text in any case. -/
def anyCase (s : List Char) : Pattern := s.foldr (fun c p => both (sign fun d => fold d == c) p) empty

end Pattern

namespace Magnet

open Pattern Text

/-- Digits and letters in any case. -/
def valueSign (c : Char) : Bool := isDigit (fold c) || isLower (fold c)

/-- What may follow a value: an ampersand or the end of the text. -/
def topicEnd : Pattern := either (sign (· == '&')) back

def topicTail : Pattern := both (group (run valueSign)) topicEnd

def topicPattern : Pattern :=
  both (either front (sign fun c => c == '?' || c == '&')) (both (anyCase topic) topicTail)

/-! ## Signs in any case -/

theorem valueSign_eq : valueSign = isTopicChar := by
  funext c
  by_cases hs : c = '\u017F'
  · subst hs
    decide
  by_cases hk : c = '\u212A'
  · subst hk
    decide
  have hfold : fold c = lower c := by rw [fold, if_neg hs, if_neg hk]
  have hother : isTopicChar c = (isDigit c || isLetter c) := by
    rw [isTopicChar, beq_false_of_ne hs, beq_false_of_ne hk, Bool.or_false, Bool.or_false]
  rw [valueSign, hfold, hother]
  cases hc : isUpper c with
  | true =>
    have hletter : isLetter c = true := by rw [isLetter, hc, Bool.or_true]
    have hall : ∀ n < 128, (isDigit (lower (Char.ofNat n)) || isLower (lower (Char.ofNat n))) =
        (isDigit (Char.ofNat n) || isLetter (Char.ofNat n)) := by decide +kernel
    exact of_ascii (p := fun c => (isDigit (lower c) || isLower (lower c)) = (isDigit c || isLetter c)) hall
      (toNat_lt_of_isLetter hletter)
  | false => rw [lower_of_not_isUpper hc, isLetter, hc, Bool.or_false]

/-- The two signs beyond ASCII are in no topic's name. -/
theorem fold_eq_iff {c d : Char} (hs : c ≠ 's' ∧ c ≠ '\u017F') (hk : c ≠ 'k' ∧ c ≠ '\u212A') :
    fold d = c ↔ lower d = c := by
  rw [fold]
  split
  · next h =>
    subst h
    exact ⟨fun h => absurd h.symm hs.1, fun h => absurd h.symm hs.2⟩
  · split
    · next h =>
      subst h
      exact ⟨fun h => absurd h.symm hk.1, fun h => absurd h.symm hk.2⟩
    · exact Iff.rfl

theorem map_fold_eq_topic {s : List Char} : s.map fold = topic ↔ s.map lower = topic := by
  have hname : topic.all (fun c => (c != 's' && c != '\u017F') && (c != 'k' && c != '\u212A')) = true := by decide
  simp only [List.all_eq_true, Bool.and_eq_true, bne_iff_ne] at hname
  generalize topic = name at hname
  induction s generalizing name with
  | nil => rfl
  | cons d s ih =>
    cases name with
    | nil => simp
    | cons c name =>
      obtain ⟨hc, hname⟩ := List.forall_mem_cons.1 hname
      rw [List.map_cons, List.map_cons, List.cons.injEq, List.cons.injEq]
      exact and_congr (fold_eq_iff hc.1 hc.2) (ih name hname)

/-! ## The parts of the pattern -/

theorem ways_anyCase (text s : List Char) (i : Nat) : (anyCase s).ways text i =
    if ((text.drop i).take s.length).map fold = s then [(i + s.length, none)] else [] := by
  induction s generalizing i with
  | nil => simp [anyCase, ways]
  | cons c s ih =>
    show ((sign fun d => fold d == c).both (anyCase s)).ways text i = _
    cases hi : text[i]? with
    | none =>
      have hdrop : text.drop i = [] := List.drop_eq_nil_of_le (List.getElem?_eq_none_iff.1 hi)
      simp [ways, hi, hdrop]
    | some d =>
      have hdrop : text.drop i = d :: text.drop (i + 1) := by
        obtain ⟨hlt, rfl⟩ := List.getElem?_eq_some_iff.1 hi
        exact List.drop_eq_getElem_cons hlt
      by_cases hd : fold d = c
      · simp [ways, hi, hdrop, hd, ih, Nat.add_right_comm, Nat.add_assoc]
      · simp [ways, hi, hdrop, hd]

/-- A value ends in one way or in none. -/
theorem ways_topicEnd {text : List Char} {i : Nat} (h : i ≤ text.length) :
    ∃ k, topicEnd.ways text i = if endsParameter (text.drop i) then [(k, none)] else [] := by
  have hhead : text[i]? = (text.drop i).head? := List.head?_drop.symm
  have hlength : i = text.length ↔ text.drop i = [] := by
    rw [List.drop_eq_nil_iff]
    omega
  simp only [topicEnd, ways, hhead, hlength]
  cases text.drop i with
  | nil => exact ⟨i, rfl⟩
  | cons c s => by_cases hc : c = '&' <;> simp [endsParameter, hc]

/-- A run that stops before its end is followed by a sign of its own, which ends no value. -/
theorem endsParameter_drop_of_lt {value rest : List Char} {n : Nat} (signs : ∀ c ∈ value, isTopicChar c = true)
    (h : n < value.length) : endsParameter ((value ++ rest).drop n) = false := by
  have hn : n < (value ++ rest).length := by
    rw [List.length_append]
    omega
  rw [List.drop_eq_getElem_cons hn, endsParameter, List.getElem_append_left h, beq_eq_false_iff_ne]
  intro hc
  have hsign := signs _ (List.getElem_mem h)
  rw [hc, isTopicChar_ampersand] at hsign
  cases hsign

/-- **The group holds the whole run or nothing.** -/
theorem ways_topicTail (text : List Char) (i : Nat) : ∃ k, topicTail.ways text i =
    if (text.drop i).takeWhile isTopicChar ≠ [] ∧ endsParameter ((text.drop i).dropWhile isTopicChar) then
      [(k, some ((text.drop i).takeWhile isTopicChar))] else [] := by
  have hsplit : text.drop i = (text.drop i).takeWhile isTopicChar ++ (text.drop i).dropWhile isTopicChar :=
    List.takeWhile_append_dropWhile.symm
  have hsigns : ∀ c ∈ (text.drop i).takeWhile isTopicChar, isTopicChar c = true :=
    List.all_eq_true.1 List.all_takeWhile
  have hlength := congrArg List.length hsplit
  rw [List.length_drop, List.length_append] at hlength
  simp only [topicTail, valueSign_eq, ways, List.map_map, List.flatMap_map]
  generalize (text.drop i).takeWhile isTopicChar = value at hsplit hsigns hlength ⊢
  generalize (text.drop i).dropWhile isTopicChar = rest at hsplit hlength ⊢
  -- After so many signs there is what is left of the run, and then the rest.
  have hdrop (n : Nat) : text.drop (i + n) = (value ++ rest).drop n := by rw [← hsplit, List.drop_drop]
  cases hvalue : value.length with
  | zero => exact ⟨0, by simp [List.eq_nil_of_length_eq_zero hvalue]⟩
  | succ m =>
    have hne : value ≠ [] := List.ne_nil_of_length_eq_add_one hvalue
    -- The whole run is tried first, and a shorter one leads nowhere.
    have hshorter : ∀ n < m, topicEnd.ways text (i + n + 1) = [] := by
      intro n hn
      have hplace : i + n + 1 ≤ text.length := by omega
      obtain ⟨k, hk⟩ := ways_topicEnd hplace
      rw [hk, Nat.add_assoc, hdrop, endsParameter_drop_of_lt hsigns (by omega)]
      rfl
    have hwhole : text.drop (i + m + 1) = rest := by
      rw [Nat.add_assoc, hdrop, ← hvalue, List.drop_left]
    have hheld : (text.take (i + m + 1)).drop i = value := by
      rw [List.drop_take, hsplit, Nat.add_assoc, Nat.add_sub_cancel_left, ← hvalue, List.take_left]
    have hplace : i + m + 1 ≤ text.length := by omega
    obtain ⟨k, hk⟩ := ways_topicEnd hplace
    refine ⟨k, ?_⟩
    rw [List.range_succ, List.reverse_append, List.reverse_singleton, List.singleton_append, List.flatMap_cons,
      List.flatMap_eq_nil_iff.2, List.append_nil]
    · simp only [Function.comp, hk, hwhole, hheld, ne_eq, hne, not_false_eq_true, true_and]
      split <;> rfl
    · intro n hn
      simp only [Function.comp, hshorter n (List.mem_range.1 (List.mem_reverse.1 hn)), List.map_nil]

/-! ## The whole pattern -/

/-- From where a parameter may start the pattern holds what the topic there has as its value. -/
theorem ways_named (text : List Char) (i : Nat) : ∃ k, ((anyCase topic).both topicTail).ways text i =
    (topicHere? (text.drop i)).toList.map fun value => (k, some value) := by
  obtain ⟨k, hk⟩ := ways_topicTail text (i + topic.length)
  refine ⟨k, ?_⟩
  rw [ways, ways_anyCase, topicHere?, List.drop_drop]
  by_cases hname : sameFolded ((text.drop i).take topic.length) topic = true
  · have hfold := map_fold_eq_topic.2 (sameFolded_topic.1 hname)
    simp only [hname, hfold, if_true, List.flatMap_cons, List.flatMap_nil, List.append_nil, hk, Bool.true_and,
      Bool.and_eq_true, bne_iff_ne]
    split <;> rfl
  · have hfold := mt (fun h => sameFolded_topic.2 (map_fold_eq_topic.1 h)) hname
    simp only [Bool.eq_false_iff.2 hname, hfold, if_false, List.flatMap_nil, Bool.false_and, Bool.false_eq_true,
      Option.toList_none, List.map_nil]

theorem head?_ways_named (text : List Char) (i : Nat) :
    (((anyCase topic).both topicTail).ways text i).head?.map (·.2) = (topicHere? (text.drop i)).map some := by
  obtain ⟨k, hk⟩ := ways_named text i
  rw [hk]
  cases topicHere? (text.drop i) <;> rfl

/-- At each place the front of the text goes before a mark. -/
theorem head?_ways_topicPattern (text : List Char) (i : Nat) : (topicPattern.ways text i).head?.map (·.2) =
    ((if i = 0 then topicHere? text else none).or (topicAt? text (i + 1))).map some := by
  have hmark : text[i]?.any (fun c => c == '?' || c == '&') = true ↔ Starts text (i + 1) := by
    cases h : text[i]? <;> simp [Starts, h]
  have hsame (ws : List (Nat × Option (List Char))) : ws.map (fun v => (v.1, v.2.or none)) = ws := by
    simp only [Option.or_none, Prod.mk.eta, List.map_id']
  rw [topicPattern, ways, ways, ways, ways, List.flatMap_append, List.head?_append, Option.map_or, Option.map_or, topicAt?]
  congr 1
  · split
    · next h =>
      rw [List.flatMap_singleton, hsame, head?_ways_named, h, List.drop_zero]
    · rfl
  · by_cases h : Starts text (i + 1)
    · rw [if_pos (hmark.2 h), if_pos h, List.flatMap_singleton, hsame, head?_ways_named]
    · rw [if_neg (mt hmark.1 h), if_neg h]
      rfl

/-- A mark at one place starts a topic at the next. -/
theorem findSome?_front_or_mark (query : List Char) : ((List.range (query.length + 1)).findSome? fun i =>
    (if i = 0 then topicHere? query else none).or (topicAt? query (i + 1))) = firstTopic? query := by
  have hlast : topicAt? query (query.length + 1) = none :=
    topicAt?_eq_none_iff.2 fun h => absurd h.le_length (by omega)
  have hmarks : (List.range query.length).findSome? (fun i => topicAt? query (i + 1)) =
      (topicAt? query 1).or ((List.range query.length).findSome? fun i => topicAt? query (i + 1 + 1)) := by
    rw [← findSome?_range_succ fun i => topicAt? query (i + 1), List.range_succ, List.findSome?_append,
      List.findSome?_singleton, hlast, Option.or_none]
  rw [firstTopic?_eq_findSome?, findSome?_range_succ, findSome?_range_succ, hmarks, ← Option.or_assoc]
  rfl

/-- **A search for the pattern finds the value of the leftmost topic.** -/
theorem captured?_topicPattern (query : List Char) : topicPattern.captured? query = firstTopic? query := by
  have hheads : (List.range (query.length + 1)).findSome? (fun i => (topicPattern.ways query i).head?.map (·.2)) =
      (firstTopic? query).map some := by
    simp only [head?_ways_topicPattern, ← findSome?_front_or_mark, List.map_findSome?]
    rfl
  calc topicPattern.captured? query
      = (((List.range (query.length + 1)).findSome? fun i =>
          (topicPattern.ways query i).head?).map (·.2)).bind id := by rw [Option.bind_map]; rfl
    _ = ((firstTopic? query).map some).bind id := by rw [List.map_findSome?, ← hheads]; rfl
    _ = firstTopic? query := by cases firstTopic? query <;> rfl

end Magnet
end SwarmSampler
