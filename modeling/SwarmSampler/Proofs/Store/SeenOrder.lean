import Mathlib.Data.Prod.Lex
import Mathlib.Data.String.Basic
import SwarmSampler.Proofs.Store.Due
import SwarmSampler.Proofs.Store.Listing

/-
The order of a listing. Targets stand in the order they were registered in, down to the
nanosecond, and those that were registered at one time in the order of their ids.
-/

namespace SwarmSampler

theorem Cell.key_text_lt_iff {a b : String} : (Cell.text a).key < (Cell.text b).key ↔ a < b := by
  rw [key, key, List.cons_lt_cons_iff, String.lt_iff_toList_lt]
  simp only [lt_self_iff_false, true_and, false_or]

namespace Store

variable {s : Store} {r r' : TargetRow} {now : Stamp} {source : String} {t : MonitoringTarget} {x y : TargetSummary}
  {listed : List TargetSummary} {id : String}

/-! ## Sorting rows -/

/-- Where a target stands that was first seen at some time. -/
def seenKey (seen id : Cell) : List Char ×ₗ List Char := toLex (seen.key, id.key)

theorem seenBefore_eq (hseen : r.firstSeenAt.IsPlain) (hid : r.id.IsPlain) (hseen' : r'.firstSeenAt.IsPlain)
    (hid' : r'.id.IsPlain) :
    seenBefore r r' = decide (seenKey r.firstSeenAt r.id ≤ seenKey r'.firstSeenAt r'.id) := by
  rw [Bool.eq_iff_iff, decide_eq_true_iff, seenKey, seenKey, Prod.Lex.toLex_le_toLex]
  simp only [seenBefore, Bool.or_eq_true, Bool.and_eq_true, Bool.not_eq_true', ← Bool.not_eq_true,
    Cell.before_iff hseen hseen', Cell.before_iff hseen' hseen, Cell.before_iff hid' hid, not_lt]
  constructor
  · rintro (hlt | ⟨hle, hids⟩)
    · exact .inl hlt
    · exact hle.lt_or_eq.imp_right fun heq => ⟨heq, hids⟩
  · rintro (hlt | ⟨heq, hids⟩)
    · exact .inl hlt
    · exact .inr ⟨heq.le, hids⟩

/-- The rows of a listing stand in the order of their keys. -/
theorem Written.seen_sorted (h : Written s) : (s.targets.mergeSort seenBefore).Pairwise fun r r' =>
    seenKey r.firstSeenAt r.id ≤ seenKey r'.firstSeenAt r'.id := by
  have hplain : ∀ r ∈ s.targets, r.firstSeenAt.IsPlain ∧ r.id.IsPlain := by
    intro r hr
    obtain ⟨now, source, t, made⟩ := h.targets r hr
    exact ⟨.inr ⟨_, congrArg TargetRow.firstSeenAt made⟩, .inr ⟨_, congrArg TargetRow.id made⟩⟩
  exact pairwise_mergeSort_key fun r hr r' hr' =>
    seenBefore_eq (hplain r hr).1 (hplain r hr).2 (hplain r' hr').1 (hplain r' hr').2

/-! ## Summaries -/

/-- A target is listed before another: it was seen earlier, or at the same time and has the smaller id. -/
def ListedBefore (x y : TargetSummary) : Prop :=
  x.firstSeenAt.Before y.firstSeenAt ∨ x.firstSeenAt = y.firstSeenAt ∧ x.target.id < y.target.id

/-- Keys tell the order of targets that were seen in years of four digits. -/
theorem listedBefore_of_key (fx : x.firstSeenAt.FourDigit) (fy : y.firstSeenAt.FourDigit)
    (ids : x.target.id ≠ y.target.id)
    (h : seenKey (.text x.firstSeenAt.storedText) (.text x.target.id) ≤
      seenKey (.text y.firstSeenAt.storedText) (.text y.target.id)) : ListedBefore x y := by
  rw [seenKey, seenKey, Prod.Lex.toLex_le_toLex] at h
  dsimp only at h
  rcases x.firstSeenAt.before_trichotomy y.firstSeenAt with hbefore | heq | hafter
  · exact .inl hbefore
  · rw [heq] at h
    have hids : (Cell.text x.target.id).key ≤ (Cell.text y.target.id).key :=
      h.elim (fun hlt => absurd hlt (lt_irrefl _)) And.right
    have hle : x.target.id ≤ y.target.id := not_lt.1 fun hlt => hids.not_gt (Cell.key_text_lt_iff.2 hlt)
    exact .inr ⟨heq, lt_of_le_of_ne hle ids⟩
  · have hlt : (Cell.text y.firstSeenAt.storedText).key < (Cell.text x.firstSeenAt.storedText).key :=
      Cell.key_text_lt_iff.2 (String.lt_iff_toList_lt.2 (Stamp.storedText_lt_of_before fy fx hafter))
    exact absurd (h.elim le_of_lt fun h => h.1.le) hlt.not_ge

/-- A summary says of which row it is and when that was registered. -/
theorem readSummary_seen (h : Reachable s) (hr : r ∈ s.targets) (read : readSummary r (s.newestOf? r) = .ok x) :
    r.id = .text x.target.id ∧ r.firstSeenAt = .text x.firstSeenAt.storedText ∧ x.firstSeenAt.FourDigit := by
  obtain ⟨now, source, t, made⟩ := h.written.targets r hr
  have hid : r.id = .text t.id := congrArg TargetRow.id made
  obtain ⟨sample, hlatest, hcell, -⟩ := newest_spec h hr made
  obtain ⟨⟨hnow, -⟩, rfl⟩ := (readSummary_eq_ok made hlatest hcell (h.sound.told r hr t.id hid).count).1 read
  exact ⟨hid, congrArg TargetRow.firstSeenAt made, hnow⟩

theorem seen_of_listed (h : Reachable s) (hread : s.summaries = .ok listed) : ∀ x ∈ listed,
    ∃ r ∈ s.targets, r.id = .text x.target.id ∧ r.firstSeenAt = .text x.firstSeenAt.storedText ∧
      x.firstSeenAt.FourDigit := by
  intro x hx
  obtain ⟨r, hr, hread⟩ := mem_of_mapM_eq_ok (summaries_eq_ok.1 hread) x hx
  have hr := mem_mergeSort_targets.1 hr
  exact ⟨r, hr, readSummary_seen h hr hread⟩

/-- **A listing stands in the order its targets were registered in.** -/
theorem summaries_ordered (h : Reachable s) (hread : s.summaries = .ok listed) : listed.Pairwise ListedBefore := by
  have hkeys : listed.map (fun x => seenKey (.text x.firstSeenAt.storedText) (.text x.target.id)) =
      (s.targets.mergeSort seenBefore).map fun r => seenKey r.firstSeenAt r.id := by
    refine map_eq_of_mapM_eq_ok (summaries_eq_ok.1 hread) fun r hr x hx => ?_
    obtain ⟨hid, hseen, -⟩ := readSummary_seen h (mem_mergeSort_targets.1 hr) hx
    rw [hid, hseen]
  have hsorted := List.pairwise_map.2 h.written.seen_sorted
  have hids := List.pairwise_map.1 (summaries_lists h hread).once
  rw [← hkeys, List.pairwise_map] at hsorted
  refine List.Pairwise.imp_of_mem (fun {x y} hx hy hboth => ?_) (hsorted.and hids)
  obtain ⟨-, -, -, -, fx⟩ := seen_of_listed h hread x hx
  obtain ⟨-, -, -, -, fy⟩ := seen_of_listed h hread y hy
  exact listedBefore_of_key fx fy hboth.2 hboth.1

/-! ## Years of four digits -/

theorem mem_samples_of_recent {row : SampleRow} {n : UInt64} (h : row ∈ limited (some n) (s.newestFirst id)) :
    row ∈ s.samples :=
  (List.mem_filter.1 (List.mem_mergeSort.1 ((limited_initial ..).subset h))).1

/-- The newest samples can always be read. -/
theorem Reachable.recentSamples (h : Reachable s) (id : String) (n : UInt64) :
    ∃ samples, s.recentSamples id n = .ok samples := by
  obtain ⟨samples, hread⟩ := mapM_eq_ok fun row hrow => h.legible.samples row (mem_samples_of_recent hrow)
  exact ⟨samples, report_eq_ok.2 hread⟩

/-- When all samples lie in years of four digits, a target is listable that was registered in one and that has few
enough samples. -/
theorem listable_iff (h : Reachable s) (years : s.FourDigits) : s.Listable id ↔
    (∀ r ∈ s.targets, r.id = .text id → ∃ now : Stamp, r.firstSeenAt = .text now.storedText ∧ now.FourDigit) ∧
      (s.samplesOf id).length < 4_294_967_296 := by
  refine ⟨fun hl => ⟨hl.seen, hl.counted⟩, fun ⟨seen, counted⟩ => ⟨seen, fun newest hnewest => ?_, counted⟩⟩
  obtain ⟨row, hrow, hread⟩ := mem_of_mapM_eq_ok (report_eq_ok.1 hnewest) newest List.mem_cons_self
  have hrow := mem_samples_of_recent hrow
  obtain ⟨stored, metrics, rfl, hdated⟩ := h.written.samples row hrow
  obtain rfl : stored = newest := Except.ok.inj ((readSample_rowOf hdated 0).symm.trans hread)
  exact years _ hrow _ hdated

theorem all_listable_iff (h : Reachable s) (years : s.FourDigits) :
    (∀ targetId, s.Registered targetId → s.Listable targetId) ↔
      (∀ r ∈ s.targets, ∃ now : Stamp, r.firstSeenAt = .text now.storedText ∧ now.FourDigit) ∧
        ∀ targetId, (s.samplesOf targetId).length < 4_294_967_296 := by
  simp only [listable_iff h years]
  constructor
  · refine fun hall => ⟨fun r hr => ?_, fun targetId => ?_⟩
    · obtain ⟨now, source, t, made⟩ := h.written.targets r hr
      have hid : r.id = .text t.id := congrArg TargetRow.id made
      exact (hall t.id ⟨r, hr, hid⟩).1 r hr hid
    · by_cases hr : s.Registered targetId
      · exact (hall targetId hr).2
      · rw [h.sound.samplesOf_eq_nil hr]
        decide
  · exact fun ⟨seen, counted⟩ targetId _ => ⟨fun r hr _ => seen r hr, counted targetId⟩

end Store

end SwarmSampler
