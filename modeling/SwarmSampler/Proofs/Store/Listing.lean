import SwarmSampler.Proofs.Store.History
import SwarmSampler.Proofs.Time.Text

/-
What a listing of all targets reads back of what was written. The times of a
target's row are kept as text, and the reader of such texts takes years of four
digits only; so one target that was registered or last checked in another year
keeps the whole listing from being read.
-/

namespace SwarmSampler.Store

variable {s : Store} {r : TargetRow} {now : Stamp} {source : String} {t : MonitoringTarget}
  {sample : Option HealthSample} {latest : Option SampleRow} {n : Nat}

/-! ## Reading one summary -/

theorem timeOf_eq_ok {x : Stamp} : timeOf now.storedText = .ok x ↔ now.FourDigit ∧ x = now := by
  rw [timeOf, Stamp.read_storedText]
  by_cases h : now.FourDigit
  · rw [if_pos h]
    simp only [h, true_and, Except.ok.injEq]
    exact eq_comm
  · rw [if_neg h]
    simp only [h, false_and, reduceCtorEq]

/-- The cell that tells of a target's newest sample. -/
def checkedCell : Option HealthSample → Cell
  | some x => .text x.timestamp.storedText
  | none => .null

theorem readTime?_text (raw : String) (index : Nat) (name : String) :
    readTime? (.text raw) index name = (timeOf raw).map some := rfl

theorem readTime?_checkedCell {index : Nat} {name : String} {time : Option Stamp} :
    readTime? (checkedCell sample) index name = .ok time ↔
      (∀ x ∈ sample, x.timestamp.FourDigit) ∧ time = sample.map (·.timestamp) := by
  cases sample with
  | none => simp [checkedCell, readTime?, eq_comm]
  | some x =>
    rw [checkedCell, readTime?_text, map_eq_ok]
    simp only [timeOf_eq_ok, Option.mem_def, Option.some.injEq, forall_eq', Option.map_some]
    constructor
    · rintro ⟨a, ⟨h, rfl⟩, rfl⟩
      exact ⟨h, rfl⟩
    · rintro ⟨h, rfl⟩
      exact ⟨_, ⟨h, rfl⟩, rfl⟩

theorem countOf_eq_ok {index : Nat} {count : UInt32} :
    countOf n index = .ok count ↔ n < 4_294_967_296 ∧ count = UInt32.ofNat n := by
  unfold countOf
  by_cases h : n < 4_294_967_296
  · rw [if_pos (by omega), Int.toNat_natCast]
    simp only [h, true_and, Except.ok.injEq]
    exact eq_comm
  · rw [if_neg (by omega)]
    simp only [h, false_and, reduceCtorEq]

/-- What can be read of a target's row as it is written, and of its newest sample. -/
theorem readSummary_eq_ok (made : r.registered = newRow now source t) (read : readLatest latest = .ok sample)
    (checked : r.lastCheckedAt = checkedCell sample) (counted : r.checkCount = .integer n) {x : TargetSummary} :
    readSummary r latest = .ok x ↔
      (now.FourDigit ∧ (∀ y ∈ sample, y.timestamp.FourDigit) ∧ n < 4_294_967_296) ∧
        x = ⟨t, source, now, sample.map (·.timestamp), UInt32.ofNat n, sample, latest.bind storedMetrics⟩ := by
  have hsource : r.source = .text source := congrArg TargetRow.source made
  have hseen : r.firstSeenAt = .text now.storedText := congrArg TargetRow.firstSeenAt made
  simp only [readSummary, readTarget_of_made made, read, hsource, hseen, checked, counted, bind_eq_ok, readText,
    readInteger, readTime?_checkedCell, timeOf_eq_ok, countOf_eq_ok, Except.ok.injEq, exists_eq_left', pure,
    Except.pure]
  constructor
  · rintro ⟨_, ⟨hnow, rfl⟩, _, ⟨hlast, rfl⟩, _, ⟨hn, rfl⟩, rfl⟩
    exact ⟨⟨hnow, hlast, hn⟩, rfl⟩
  · rintro ⟨⟨hnow, hlast, hn⟩, rfl⟩
    exact ⟨_, ⟨hnow, rfl⟩, _, ⟨hlast, rfl⟩, _, ⟨hn, rfl⟩, rfl⟩

/-! ## The newest sample -/

theorem Sound.newestFirst_eq (h : Sound s) (targetId : String) :
    s.newestFirst targetId = (s.samplesOf targetId).reverse := mergeSort_eq_reverse (h.rising targetId)

/-- The newest sample of a target can be read wherever it is asked for, its row's cell tells of it,
and no sample of the target is later. -/
theorem newest_spec (h : Reachable s) (hr : r ∈ s.targets) (made : r.registered = newRow now source t) :
    ∃ sample, readLatest (s.newestOf? r) = .ok sample ∧ r.lastCheckedAt = checkedCell sample ∧
      s.recentSamples t.id 1 = .ok sample.toList ∧
      ∀ y ∈ s.samplesOf t.id, ∃ x ∈ sample, y.millis ≤ x.timestamp.toMillis := by
  have hid : r.id = .text t.id := congrArg TargetRow.id made
  have htold := h.sound.told r hr t.id hid
  have hnewest : s.newestOf? r = (s.samplesOf t.id).getLast? := by
    simp only [newestOf?, hid]
    rw [h.sound.newestFirst_eq, List.head?_reverse]
  have hrecent : s.recentSamples t.id 1 =
      report (((s.samplesOf t.id).reverse.take 1).mapM (readSample 0)) := by
    rw [recentSamples, h.sound.newestFirst_eq]
    rfl
  rw [hnewest, hrecent]
  cases hlast : (s.samplesOf t.id).getLast? with
  | none =>
    have hnil : s.samplesOf t.id = [] := List.getLast?_eq_none_iff.1 hlast
    rw [hnil]
    exact ⟨none, rfl, htold.never.2 hnil, rfl, fun _ hy => nomatch hy⟩
  | some x =>
    obtain ⟨front, hfront⟩ := List.getLast?_eq_some_iff.1 hlast
    have hmem : x ∈ s.samplesOf t.id := List.mem_of_getLast? hlast
    have hmax : ∀ y ∈ s.samplesOf t.id, y.millis ≤ x.millis := by
      intro y hy
      have hrising := h.sound.rising t.id
      rw [hfront] at hy hrising
      rcases List.mem_append.1 hy with hy | hy
      · exact Int.le_of_lt ((List.pairwise_append.1 hrising).2.2 y hy x List.mem_cons_self)
      · exact Int.le_of_eq (congrArg SampleRow.millis (List.mem_singleton.1 hy))
    obtain ⟨stored, metrics, rfl, hdated⟩ := h.written.samples x (mem_samplesOf.1 hmem).1
    obtain ⟨time, htime, hcell⟩ := htold.last _ hmem hmax
    obtain rfl : stored.timestamp = time := Option.some.inj (hdated.symm.trans htime)
    refine ⟨some stored, ?_, hcell, ?_, fun y hy => ⟨stored, rfl, hmax y hy⟩⟩
    · exact congrArg (Except.map some) (readSample_rowOf hdated 9)
    · rw [hfront, List.reverse_append, List.reverse_singleton, List.singleton_append, List.take_succ_cons,
        List.mapM_cons, readSample_rowOf hdated 0]
      rfl

/-! ## The listing -/

/-- The times of a target's row are in years of four digits, and its samples are few enough to be
counted in 32 bits. -/
structure Listable (s : Store) (targetId : String) : Prop where
  seen : ∀ r ∈ s.targets, r.id = .text targetId →
    ∃ now : Stamp, r.firstSeenAt = .text now.storedText ∧ now.FourDigit
  checked : ∀ newest, s.recentSamples targetId 1 = .ok [newest] → newest.timestamp.FourDigit
  counted : (s.samplesOf targetId).length < 4_294_967_296

/-- A summary tells of its target what the store holds of it. -/
structure Summarizes (s : Store) (x : TargetSummary) : Prop where
  target : s.target? x.target.id = .ok (some x.target)
  latest : s.recentSamples x.target.id 1 = .ok x.latestSample.toList
  /-- The target was last checked when its newest sample was taken, and never if it has none. -/
  checked : x.lastCheckedAt = x.latestSample.map (·.timestamp)
  /-- No sample of the target is later than that. -/
  newest : ∀ y ∈ s.samplesOf x.target.id, ∃ time ∈ x.lastCheckedAt, y.millis ≤ time.toMillis
  counted : x.checkCount = s.countSamples x.target.id

/-- What a listing says of a store. -/
structure Lists (s : Store) (listed : List TargetSummary) : Prop where
  /-- No target is listed twice. -/
  once : (listed.map (·.target.id)).Nodup
  /-- The targets that are registered are listed, and no others. -/
  all : ∀ targetId, targetId ∈ listed.map (·.target.id) ↔ s.Registered targetId
  each : ∀ x ∈ listed, s.Summarizes x

/-- A target's summary can be read just when the target is listable. -/
theorem readSummary_iff_listable (h : Reachable s) (hr : r ∈ s.targets)
    (made : r.registered = newRow now source t) :
    (∃ x, readSummary r (s.newestOf? r) = .ok x) ↔ s.Listable t.id := by
  have hid : r.id = .text t.id := congrArg TargetRow.id made
  have hseen : r.firstSeenAt = .text now.storedText := congrArg TargetRow.firstSeenAt made
  obtain ⟨sample, hlatest, hcell, hrecent, -⟩ := newest_spec h hr made
  have hread := fun x => readSummary_eq_ok (x := x) made hlatest hcell (h.sound.told r hr t.id hid).count
  constructor
  · rintro ⟨x, hx⟩
    obtain ⟨⟨hnow, hchecked, hcount⟩, -⟩ := (hread x).1 hx
    refine ⟨fun r' hr' hid' => ?_, fun newest hnewest => hchecked newest ?_, hcount⟩
    · rw [h.sound.row_eq hr' hr (hid'.trans hid.symm)]
      exact ⟨now, hseen, hnow⟩
    · have hone : sample.toList = [newest] := Except.ok.inj (hrecent.symm.trans hnewest)
      exact Option.mem_toList.1 (hone ▸ List.mem_cons_self)
  · rintro ⟨hseen', hchecked, hcount⟩
    refine ⟨_, (hread _).2 ⟨⟨?_, fun y hy => hchecked y ?_, hcount⟩, rfl⟩⟩
    · obtain ⟨now', htext, hnow'⟩ := hseen' r hr hid
      exact hnow'.of_storedText_eq (Cell.text.inj (htext.symm.trans hseen))
    · rw [hrecent, Option.mem_def.1 hy]
      rfl

theorem Sound.target?_eq (h : Sound s) (hr : r ∈ s.targets) (made : r.registered = newRow now source t) :
    s.target? t.id = .ok (some t) := by
  have hid : r.id = .text t.id := congrArg TargetRow.id made
  obtain ⟨r', hr', hid', hread⟩ := target?_of_registered ⟨r, hr, hid⟩
  obtain rfl : r' = r := h.row_eq hr' hr (hid'.trans hid.symm)
  exact hread t (readTarget_of_made made)

/-- **A summary that is read tells what the store holds.** -/
theorem readSummary_spec (h : Reachable s) (hr : r ∈ s.targets) (made : r.registered = newRow now source t)
    {x : TargetSummary} (read : readSummary r (s.newestOf? r) = .ok x) : x.target = t ∧ s.Summarizes x := by
  have hid : r.id = .text t.id := congrArg TargetRow.id made
  obtain ⟨sample, hlatest, hcell, hrecent, hnewest⟩ := newest_spec h hr made
  obtain ⟨-, rfl⟩ := (readSummary_eq_ok made hlatest hcell (h.sound.told r hr t.id hid).count).1 read
  refine ⟨rfl, h.sound.target?_eq hr made, hrecent, rfl, fun y hy => ?_, rfl⟩
  obtain ⟨x, hx, hle⟩ := hnewest y hy
  exact ⟨x.timestamp, Option.mem_map_of_mem _ hx, hle⟩

theorem mem_mergeSort_targets {le : TargetRow → TargetRow → Bool} :
    r ∈ s.targets.mergeSort le ↔ r ∈ s.targets :=
  (List.mergeSort_perm ..).mem_iff

theorem summaries_eq_ok {listed : List TargetSummary} : s.summaries = .ok listed ↔
    (s.targets.mergeSort seenBefore).mapM (fun r => readSummary r (s.newestOf? r)) = .ok listed :=
  report_eq_ok

/-- **A listing succeeds just when every target is listable.** -/
theorem summaries_isOk_iff (h : Reachable s) :
    (∃ listed, s.summaries = .ok listed) ↔ ∀ targetId, s.Registered targetId → s.Listable targetId := by
  simp only [summaries_eq_ok]
  constructor
  · rintro ⟨listed, hread⟩ targetId ⟨r, hr, hid⟩
    obtain ⟨now, source, t, made⟩ := h.written.targets r hr
    obtain rfl : targetId = t.id := Cell.text.inj (hid.symm.trans (congrArg TargetRow.id made))
    obtain ⟨x, -, hx⟩ := exists_of_mapM_eq_ok hread r (mem_mergeSort_targets.2 hr)
    exact (readSummary_iff_listable h hr made).1 ⟨x, hx⟩
  · intro hall
    refine mapM_eq_ok fun r hr => ?_
    have hr := mem_mergeSort_targets.1 hr
    obtain ⟨now, source, t, made⟩ := h.written.targets r hr
    exact (readSummary_iff_listable h hr made).2 (hall t.id ⟨r, hr, congrArg TargetRow.id made⟩)

/-- **A listing has one summary for each target, which tells of the target's newest sample.** -/
theorem summaries_lists (h : Reachable s) {listed : List TargetSummary} (hread : s.summaries = .ok listed) :
    s.Lists listed := by
  rw [summaries_eq_ok] at hread
  have hids : listed.map (fun x => Cell.text x.target.id) = (s.targets.mergeSort seenBefore).map (·.id) := by
    refine map_eq_of_mapM_eq_ok hread fun r hr x hx => ?_
    have hr := mem_mergeSort_targets.1 hr
    obtain ⟨now, source, t, made⟩ := h.written.targets r hr
    rw [(readSummary_spec h hr made hx).1]
    exact (congrArg TargetRow.id made).symm
  have hperm : (listed.map fun x => Cell.text x.target.id).Perm (s.targets.map (·.id)) :=
    hids ▸ (List.mergeSort_perm ..).map _
  refine ⟨?_, fun targetId => ?_, fun x hx => ?_⟩
  · have hcells : ((listed.map (·.target.id)).map Cell.text).Nodup := by
      rw [List.map_map]
      exact hperm.nodup_iff.2 h.sound.nodup_ids
    exact hcells.of_map
  · rw [registered_iff_mem_ids, ← hperm.mem_iff]
    simp only [List.mem_map, Cell.text.injEq]
  · obtain ⟨r, hr, hx⟩ := mem_of_mapM_eq_ok hread x hx
    have hr := mem_mergeSort_targets.1 hr
    obtain ⟨now, source, t, made⟩ := h.written.targets r hr
    exact (readSummary_spec h hr made hx).2

/-- **Whatever was written, a listing can be read just when every target is listable**: the target
was registered, and last checked if ever, in a year of four digits, and less than 2³² times. It then
has one summary for each target, which says when its newest sample was taken. -/
theorem performAll_new_summaries (home : Home) (calls : List Call) :
    let s := ((⟨home, empty⟩ : Opened).performAll calls).store
    ((∃ listed, s.summaries = .ok listed) ↔ ∀ targetId, s.Registered targetId → s.Listable targetId) ∧
      ∀ listed, s.summaries = .ok listed → s.Lists listed := by
  intro s
  have h : Reachable s := ⟨home, calls, rfl⟩
  exact ⟨summaries_isOk_iff h, fun _ => summaries_lists h⟩

/-- A sample of the year 10000 is stored and read back, and no target is listed any more. -/
theorem unlisted_from_year_10000 :
    let target : MonitoringTarget := ⟨"t", "", "", "", true⟩
    let sample : HealthSample := ⟨"a", "t", ⟨253402300800, 0, by decide, by decide⟩, 2, 1, 3, .ok, 1, none⟩
    let calls := [.register .epoch "" [target], .append sample none]
    let s := ((⟨⟨"store", false⟩, empty⟩ : Opened).performAll calls).store
    s.Registered "t" ∧ s.recentSamples "t" 1 = .ok [sample] ∧ ¬ ∃ listed, s.summaries = .ok listed := by
  intro target sample calls s
  have hregistered : s.Registered "t" := any_isOf_iff.1 (by decide +kernel)
  have hrecent : s.recentSamples "t" 1 = .ok [sample] := by decide +kernel
  refine ⟨hregistered, hrecent, fun hlisted => ?_⟩
  have hall := (summaries_isOk_iff ⟨_, calls, rfl⟩).1 hlisted
  exact absurd ((hall "t" hregistered).checked sample hrecent) (by decide)

end SwarmSampler.Store
