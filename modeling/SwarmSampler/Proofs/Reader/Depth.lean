import SwarmSampler.Proofs.Reader.Asking
import SwarmSampler.Proofs.Store.Windows
import SwarmSampler.Proofs.Trend.Recent

/-
How deep a reader looks. However few of a target's ok samples it takes, the growth it
finds is that of all of them, and with five it finds their score as well. What else is
appended, to this target or to others, does not show in what is read.
-/

namespace SwarmSampler

open Store

variable {s s' : Store} {targetId : String} {held : List Kept} {sample stored : HealthSample}
  {metrics : Option MetricsSnapshot}

/-! ## Windows -/

namespace MetricsReader

/-- The totals of the ok ones of some samples. -/
def okTotals (samples : List HealthSample) : List UInt32 :=
  (samples.filter (·.outcome = .ok)).map (·.totalPeers)

/-- A reading is made of the totals of ok samples, and of nothing else. -/
theorem ofSamples_eq (samples : List HealthSample) :
    (Reading.ofSamples peerConfidence samples : MetricsReading) = .ofTotals peerConfidence (okTotals samples) := by
  have hfilter : samples.filter (·.outcome == .ok) = samples.filter (·.outcome = .ok) :=
    List.filter_congr fun x _ => by cases x.outcome <;> rfl
  rw [Reading.ofSamples, hfilter]
  rfl

theorem okTotals_rtake (samples : List HealthSample) (n : Nat) :
    okTotals ((samples.filter (·.outcome = .ok)).rtake n) = (okTotals samples).rtake n := by
  have hok : ∀ x ∈ (samples.filter (·.outcome = .ok)).rtake n, decide (x.outcome = .ok) = true := fun x hx =>
    (List.mem_filter.1 (List.mem_of_mem_drop hx)).2
  rw [okTotals, List.filter_eq_self.2 hok, Trend.map_rtake]
  rfl

/-- A reader takes the last totals of a target's ok samples, as many as it is deep. -/
theorem history_eq (h : Holds s held) (hs : Sound s) (r : MetricsReader) (targetId : String) :
    r.history s targetId =
      .ok (.ofTotals peerConfidence ((okTotals (ownSamples held targetId)).rtake r.historyDepth.toNat)) := by
  rw [history, h.lastOkSamples_eq hs, Except.map, ofSamples_eq, okTotals_rtake]

/-- **A registered target's growth is read as that of all its ok samples.** -/
theorem latestMetrics_unscored (h : Holds s held) (hs : Sound s) (hl : Legible s) (hr : s.Registered targetId)
    (depth : UInt64) : ((ofDepth depth).latestMetrics s targetId).map Reading.unscored =
      .ok (Reading.ofSamples peerConfidence (ownSamples held targetId) : MetricsReading).unscored := by
  have htwo : 2 ≤ (ofDepth depth).historyDepth.toNat := two_le_historyDepth depth
  rw [latestMetrics_of_registered hl hr, history_eq h hs, Except.map, Reading.unscored_rtake _ htwo, ofSamples_eq]

/-- **With five samples, so is its score.** -/
theorem latestMetrics_uncounted (h : Holds s held) (hs : Sound s) (hl : Legible s) (hr : s.Registered targetId)
    {depth : UInt64} (deep : 5 ≤ depth) : ((ofDepth depth).latestMetrics s targetId).map Reading.uncounted =
      .ok (Reading.ofSamples peerConfidence (ownSamples held targetId) : MetricsReading).uncounted := by
  have hfive : 5 ≤ (ofDepth depth).historyDepth.toNat := UInt64.le_trans deep (le_historyDepth depth)
  rw [latestMetrics_of_registered hl hr, history_eq h hs, Except.map, Reading.uncounted_rtake _ hfive, ofSamples_eq]

end MetricsReader

/-! ## Appends beside a history -/

/-- A call that appends a sample which is not an ok one of this target. -/
def Store.Call.Aside (targetId : String) : Call → Prop
  | .append sample _ => sample.targetId ≠ targetId ∨ sample.outcome ≠ .ok
  | _ => False

namespace MetricsReader

theorem lastOkSamples_aside (hs : Sound s) (ha : Appended sample metrics s stored s')
    (aside : sample.targetId ≠ targetId ∨ sample.outcome ≠ .ok) (n : UInt64) :
    s'.lastOkSamples targetId n = s.lastOkSamples targetId n := by
  by_cases same : sample.targetId = targetId
  · obtain other | notOk := aside
    · exact absurd same other
    · exact same ▸ ha.lastOkSamples_other hs notOk n
  · refine lastOkSamples_congr hs (hs.append ha) ?_ n
    rw [ha.samplesOf_eq, ha.targetId_eq, if_neg same, List.append_nil]

/-- **Whether an append beside a history succeeds or not, it changes no reading of it.** -/
theorem latestMetrics_append (h : Reachable s) (aside : sample.targetId ≠ targetId ∨ sample.outcome ≠ .ok)
    (r : MetricsReader) :
    r.latestMetrics (append sample metrics s).2 targetId = r.latestMetrics s targetId := by
  have hlegible := (h.append sample metrics).legible
  obtain ⟨stored, s', heq, ha⟩ | ⟨e, heq⟩ := append_cases sample metrics s
  · rw [heq] at hlegible ⊢
    by_cases hr : s.Registered targetId
    · rw [latestMetrics_of_registered hlegible (ha.registered_iff.2 hr), latestMetrics_of_registered h.legible hr,
        history, lastOkSamples_aside h.sound ha aside]
      rfl
    · rw [latestMetrics_of_not_registered (mt ha.registered_iff.1 hr), latestMetrics_of_not_registered hr]
  · rw [heq]

theorem latestMetrics_performAll (r : MetricsReader) (later : List Call) (aside : ∀ c ∈ later, c.Aside targetId)
    {o : Opened} (h : Reachable o.store) :
    r.latestMetrics (o.performAll later).store targetId = r.latestMetrics o.store targetId := by
  induction later generalizing o with
  | nil => rfl
  | cons c later ih =>
    obtain ⟨hc, hlater⟩ := List.forall_mem_cons.1 aside
    cases c with
    | append sample metrics =>
      exact (ih hlater (h.append sample metrics)).trans (latestMetrics_append h hc r)
    | register | ingest | reopen => cases hc

/-! ## Runs -/

/-- **How deep a reader looks changes little.** Whatever calls were made, readers of any two depths find a target to
grow and shrink alike, and two that are five deep or more give it the same score. For a registered target these are
what all its ok samples come to. And nothing that is appended later changes a reading, unless it is an ok sample of
the target itself. -/
theorem latestMetrics_any_depth (home : Home) (calls : List Call) (targetId : String) :
    let new : Opened := ⟨home, empty⟩
    let s := (new.performAll calls).store
    let whole : MetricsReading := .ofSamples peerConfidence (ownSamples (new.heldAfter [] calls) targetId)
    let read (depth : UInt64) := (ofDepth depth).latestMetrics s targetId
    (∀ depth depth', (read depth).map Reading.unscored = (read depth').map Reading.unscored ∧
      (5 ≤ depth → 5 ≤ depth' → (read depth).map Reading.uncounted = (read depth').map Reading.uncounted)) ∧
    (s.Registered targetId → ∀ depth, (read depth).map Reading.unscored = .ok whole.unscored ∧
      (5 ≤ depth → (read depth).map Reading.uncounted = .ok whole.uncounted)) ∧
    ∀ later, (∀ c ∈ later, c.Aside targetId) → ∀ depth,
      (ofDepth depth).latestMetrics (new.performAll (calls ++ later)).store targetId = read depth := by
  intro new s whole read
  have h : Reachable s := ⟨home, calls, rfl⟩
  have hheld : Holds s (new.heldAfter [] calls) := Opened.performAll_holds calls .empty
  have hwhole : s.Registered targetId → ∀ depth, (read depth).map Reading.unscored = .ok whole.unscored ∧
      (5 ≤ depth → (read depth).map Reading.uncounted = .ok whole.uncounted) := fun hr depth =>
    ⟨latestMetrics_unscored hheld h.sound h.legible hr depth,
      latestMetrics_uncounted hheld h.sound h.legible hr⟩
  refine ⟨fun depth depth' => ?_, hwhole, fun later aside depth => ?_⟩
  · by_cases hr : s.Registered targetId
    · obtain ⟨hunscored, huncounted⟩ := hwhole hr depth
      obtain ⟨hunscored', huncounted'⟩ := hwhole hr depth'
      exact ⟨hunscored.trans hunscored'.symm, fun deep deep' => (huncounted deep).trans (huncounted' deep').symm⟩
    · have hread : ∀ depth, read depth = .error (absent targetId) := fun _ => latestMetrics_of_not_registered hr
      rw [hread, hread]
      exact ⟨rfl, fun _ _ => rfl⟩
  · rw [Opened.performAll, List.foldl_append]
    exact latestMetrics_performAll _ later aside h

/-- Of six ok samples, with one that is not ok among them, a reader of any depth finds the growth from the last two,
readers of the last five and of all find one score, and an error after them changes nothing. -/
theorem latestMetrics_any_depth_of_six :
    let sample (id : String) (milli : Int) (total : UInt32) (outcome : Outcome) : HealthSample :=
      ⟨id, "a", (Stamp.ofMillis? milli).getD .epoch, total, 0, total, outcome, 1, none⟩
    let calls := [.register .epoch "" [⟨"a", "", "", "", true⟩], .append (sample "1" 1 9 .ok) none,
      .append (sample "2" 2 4 .ok) none, .append (sample "3" 3 0 .noPeers) none, .append (sample "4" 4 5 .ok) none,
      .append (sample "5" 5 6 .ok) none, .append (sample "6" 6 3 .ok) none, .append (sample "7" 7 8 .ok) none]
    let new : Opened := ⟨⟨"store", false⟩, empty⟩
    let s := (new.performAll calls).store
    let failed := (new.performAll (calls ++ [.append (sample "8" 8 0 .error) none])).store
    let whole : MetricsReading := .ofTotals peerConfidence [9, 4, 5, 6, 3, 8]
    ((ofDepth 2).latestMetrics s "a").map Reading.unscored = .ok whole.unscored ∧
      ((ofDepth 5).latestMetrics s "a").map Reading.uncounted = .ok whole.uncounted ∧
      ((ofDepth 100).latestMetrics failed "a").map Reading.uncounted = .ok whole.uncounted := by
  intro sample calls new s failed whole
  have htotals : okTotals (ownSamples (new.heldAfter [] calls) "a") = [9, 4, 5, 6, 3, 8] := by decide +kernel
  have hregistered : s.Registered "a" := any_isOf_iff.1 (by decide +kernel)
  obtain ⟨-, hwhole, hlater⟩ := latestMetrics_any_depth ⟨"store", false⟩ calls "a"
  rw [ofSamples_eq, htotals] at hwhole
  refine ⟨(hwhole hregistered 2).1, (hwhole hregistered 5).2 (by decide), ?_⟩
  have hfailed : (ofDepth 100).latestMetrics failed "a" = (ofDepth 100).latestMetrics s "a" :=
    hlater [.append (sample "8" 8 0 .error) none] (by simp [Call.Aside, sample]) 100
  rw [hfailed]
  exact (hwhole hregistered 100).2 (by decide)

end MetricsReader

end SwarmSampler
