import SwarmSampler.Text.Blank
import SwarmSampler.Proofs.Text.Decimal

/-
What trimming leaves of a text: the one part of it that neither starts nor ends
with a blank and has nothing but blanks around it. Trimmed text is trimmed, and
it has lost no part of itself that starts and ends with no blank.
-/

namespace SwarmSampler.Text

/-- A text is a core between blanks. The core may be empty, but neither end of it is a blank. -/
structure Stripped (text core : List Char) : Prop where
  first : ∀ c ∈ core.head?, isBlank c = false
  last : ∀ c ∈ core.getLast?, isBlank c = false
  between : ∃ lead trail, text = lead ++ core ++ trail ∧ (∀ c ∈ lead, isBlank c = true) ∧
    ∀ c ∈ trail, isBlank c = true

theorem exists_dropWhile_isBlank (s : List Char) :
    ∃ lead, s = lead ++ s.dropWhile isBlank ∧ ∀ c ∈ lead, isBlank c = true :=
  ⟨s.takeWhile isBlank, List.takeWhile_append_dropWhile.symm, List.all_eq_true.1 List.all_takeWhile⟩

theorem head?_dropWhile_isBlank (s : List Char) : ∀ c ∈ (s.dropWhile isBlank).head?, isBlank c = false := by
  intro c hc
  have h := List.head?_dropWhile_not isBlank s
  rw [Option.mem_def.1 hc] at h
  exact h

theorem stripped_trimList (s : List Char) : Stripped s (trimList s) := by
  obtain ⟨lead, hlead, blankLead⟩ := exists_dropWhile_isBlank s
  obtain ⟨trail, htrail, blankTrail⟩ := exists_dropWhile_isBlank (s.dropWhile isBlank).reverse
  have hstart : s.dropWhile isBlank = trimList s ++ trail.reverse := by
    rw [← List.reverse_reverse (s.dropWhile isBlank), htrail, List.reverse_append]
    rfl
  refine ⟨fun c hc => ?_, fun c hc => ?_, lead, trail.reverse, ?_, blankLead, fun c hc => ?_⟩
  · refine head?_dropWhile_isBlank s c ?_
    rw [hstart, List.head?_append, Option.mem_def.1 hc, Option.some_or]
    rfl
  · rw [trimList, trimEndList, List.getLast?_reverse] at hc
    exact head?_dropWhile_isBlank _ c hc
  · rw [List.append_assoc, ← hstart]
    exact hlead
  · exact blankTrail c (List.mem_reverse.1 hc)

/-- A text has one core. -/
theorem Stripped.trimList_eq {text core : List Char} (h : Stripped text core) : trimList text = core := by
  obtain ⟨first, last, lead, trail, rfl, blankLead, blankTrail⟩ := h
  rw [trimList, trimEndList, trimStartList]
  cases core with
  | nil =>
    have hblank : ∀ c ∈ lead ++ trail, isBlank c = true := fun c hc =>
      (List.mem_append.1 hc).elim (blankLead c) (blankTrail c)
    have hnone : ∀ c ∈ ([] : List Char).head?, isBlank c = false := by
      intro c hc
      cases hc
    have hall : (lead ++ trail ++ []).dropWhile isBlank = [] := dropWhile_run hblank hnone
    rw [List.append_nil] at hall ⊢
    rw [hall]
    rfl
  | cons c core =>
    have hfirst : ∀ d ∈ (c :: core ++ trail).head?, isBlank d = false := first
    have hlast : ∀ d ∈ (c :: core).reverse.head?, isBlank d = false := List.head?_reverse ▸ last
    rw [List.append_assoc, dropWhile_run blankLead hfirst, List.reverse_append,
      dropWhile_run (fun d hd => blankTrail d (List.mem_reverse.1 hd)) hlast, List.reverse_reverse]

/-- **Trimming finds the core of a text.** -/
theorem trimList_eq_iff {text core : List Char} : trimList text = core ↔ Stripped text core :=
  ⟨fun h => h ▸ stripped_trimList text, Stripped.trimList_eq⟩

/-- What is trimmed is its own core. -/
theorem trimList_trimList (s : List Char) : trimList (trimList s) = trimList s := by
  have h := stripped_trimList s
  exact trimList_eq_iff.2 ⟨h.first, h.last, [], [], (List.append_nil _).symm, nofun, nofun⟩

/-! ## Parts of a text -/

variable {part : List Char}

/-- A part that starts with no blank lies behind all the blanks that a text starts with. -/
theorem infix_dropWhile_isBlank (first : ∃ c ∈ part.head?, isBlank c = false) (s : List Char) :
    part <:+: s.dropWhile isBlank ↔ part <:+: s := by
  induction s with
  | nil => rfl
  | cons d s ih =>
    by_cases hd : isBlank d = true
    · rw [List.dropWhile_cons_of_pos hd, ih, List.infix_cons_iff]
      refine ⟨.inr, Or.rec (fun hprefix => ?_) id⟩
      obtain ⟨c, hhead, hc⟩ := first
      obtain ⟨rest, rfl⟩ := List.head?_eq_some_iff.1 hhead
      rw [(List.cons_prefix_cons.1 hprefix).1, hd] at hc
      cases hc
    · rw [List.dropWhile_cons_of_neg hd]

/-- **Trimming neither adds nor takes away a part** that starts and ends with no blank. -/
theorem infix_trimList (first : ∃ c ∈ part.head?, isBlank c = false) (last : ∃ c ∈ part.getLast?, isBlank c = false)
    (s : List Char) : part <:+: trimList s ↔ part <:+: s := by
  rw [trimList, trimEndList, trimStartList, ← List.reverse_infix, List.reverse_reverse,
    infix_dropWhile_isBlank (by rwa [List.head?_reverse]), List.reverse_infix, infix_dropWhile_isBlank first]

theorem toList_trim (s : String) : (trim s).toList = trimList s.toList := String.toList_ofList

theorem trim_trim (s : String) : trim (trim s) = trim s := by
  rw [trim, toList_trim, trimList_trimList, trim]

end SwarmSampler.Text
