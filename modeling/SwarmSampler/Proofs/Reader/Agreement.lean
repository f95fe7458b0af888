import SwarmSampler.Proofs.Reader.Asking
import SwarmSampler.Proofs.Store.Admitting
import SwarmSampler.Proofs.Store.SeenOrder
import SwarmSampler.Proofs.Text.Decimal

/-
The reader agrees with itself. What its listing of all targets says of one, from a single
join of the two tables, is what it answers when it is asked about the target: its newest
sample, its trend, how many samples there are. But there are stores of which it has no
listing, though all samples lie in years of four digits.
-/

namespace SwarmSampler.MetricsReader

open Store

variable {s : Store} {r : MetricsReader} {targetId : String} {x y : TargetSummary} {stored listed : List TargetSummary}

/-! ## Trends beside summaries -/

/-- A trend can always be read, of no samples at all if it must be. -/
theorem history_isOk (h : Reachable s) (r : MetricsReader) (targetId : String) :
    ∃ reading, r.history s targetId = .ok reading := by
  obtain ⟨samples, hread⟩ := h.lastOkSamples targetId r.historyDepth
  exact ⟨_, congrArg (Except.map (Reading.ofSamples peerConfidence)) hread⟩

theorem withTrend_eq_ok : r.withTrend s x = .ok y ↔
    ∃ reading, r.history s x.target.id = .ok reading ∧ y = { x with latestMetrics := reading.snapshot? } := by
  rw [withTrend, bind_eq_ok]
  simp only [pure, Except.pure, Except.ok.injEq, eq_comm]

theorem listTargets_eq_ok : r.listTargets s = .ok listed ↔
    ∃ stored, s.summaries = .ok stored ∧ stored.mapM (r.withTrend s) = .ok listed := bind_eq_ok

/-- A listing with trends succeeds just when one of the store alone does. -/
theorem listTargets_isOk_iff (h : Reachable s) (r : MetricsReader) :
    (∃ listed, r.listTargets s = .ok listed) ↔ ∃ stored, s.summaries = .ok stored := by
  constructor
  · rintro ⟨listed, hread⟩
    obtain ⟨stored, hstored, -⟩ := listTargets_eq_ok.1 hread
    exact ⟨stored, hstored⟩
  · rintro ⟨stored, hstored⟩
    obtain ⟨listed, hread⟩ := mapM_eq_ok (f := r.withTrend s) (l := stored) fun x _ => by
      obtain ⟨reading, hreading⟩ := history_isOk h r x.target.id
      exact ⟨_, withTrend_eq_ok.2 ⟨reading, hreading, rfl⟩⟩
    exact ⟨listed, listTargets_eq_ok.2 ⟨stored, hstored, hread⟩⟩

/-- Nothing but the trend is changed in a summary, so a listing keeps what does not tell of it. -/
theorem map_withTrend {β : Type} (k : TargetSummary → β)
    (blind : ∀ (x : TargetSummary) (trend : Option MetricsSnapshot), k { x with latestMetrics := trend } = k x)
    (hread : stored.mapM (r.withTrend s) = .ok listed) : listed.map k = stored.map k := by
  refine map_eq_of_mapM_eq_ok hread fun x _ y hy => ?_
  obtain ⟨reading, -, rfl⟩ := withTrend_eq_ok.1 hy
  exact blind x _

/-! ## Agreement -/

/-- A summary says of its target what the reader and its store answer when they are asked about it. -/
structure Agrees (r : MetricsReader) (s : Store) (x : TargetSummary) : Prop where
  target : s.target? x.target.id = .ok (some x.target)
  latest : MetricsReader.recentSamples s x.target.id 1 = .ok x.latestSample.toList
  never : x.latestSample = none ↔ s.samplesOf x.target.id = []
  trend : ∃ reading, r.latestMetrics s x.target.id = .ok reading ∧ x.latestMetrics = reading.snapshot?
  counted : x.checkCount = s.countSamples x.target.id
  /-- The count has not started over. -/
  many : x.checkCount.toNat = (s.samplesOf x.target.id).length
  seen : ∃ row ∈ s.targets, row.id = .text x.target.id ∧ row.firstSeenAt = .text x.firstSeenAt.storedText

/-- What a listing says of all targets of a store. -/
structure ListsAll (r : MetricsReader) (s : Store) (listed : List TargetSummary) : Prop where
  once : (listed.map (·.target.id)).Nodup
  all : ∀ targetId, targetId ∈ listed.map (·.target.id) ↔ s.Registered targetId
  ordered : listed.Pairwise ListedBefore
  each : ∀ x ∈ listed, r.Agrees s x

/-- A target has no newest sample just when it has none. -/
theorem latestSample_eq_none_iff (hs : Sound s) (h : s.Summarizes x) :
    x.latestSample = none ↔ s.samplesOf x.target.id = [] := by
  constructor
  · intro hnone
    refine List.eq_nil_iff_forall_not_mem.2 fun y hy => ?_
    obtain ⟨time, htime, -⟩ := h.newest y hy
    rw [h.checked, hnone] at htime
    cases htime
  · intro hnil
    have hrows : s.newestFirst x.target.id = [] := by rw [hs.newestFirst_eq, hnil, List.reverse_nil]
    have hrecent : s.recentSamples x.target.id 1 = .ok [] := by
      rw [Store.recentSamples, hrows]
      rfl
    exact Option.toList_eq_nil_iff.1 (Except.ok.inj (h.latest.symm.trans hrecent))

/-- **Whatever is listed is what the reader answers.** -/
theorem listsAll (h : Reachable s) (hread : r.listTargets s = .ok listed) : r.ListsAll s listed := by
  obtain ⟨stored, hstored, hmap⟩ := listTargets_eq_ok.1 hread
  have hlists := summaries_lists h hstored
  have hids : listed.map (·.target.id) = stored.map (·.target.id) := map_withTrend _ (fun _ _ => rfl) hmap
  have hkeys := map_withTrend (fun x => (x.firstSeenAt, x.target.id)) (fun _ _ => rfl) hmap
  refine ⟨hids ▸ hlists.once, hids ▸ hlists.all, ?_, fun y hy => ?_⟩
  · -- Times and ids are all that the order is about, and the trends leave them as they are.
    let before (p q : Stamp × String) : Prop := p.1.Before q.1 ∨ p.1 = q.1 ∧ p.2 < q.2
    have hordered : (stored.map fun x => (x.firstSeenAt, x.target.id)).Pairwise before :=
      List.pairwise_map.2 (summaries_ordered h hstored)
    rw [← hkeys, List.pairwise_map] at hordered
    exact hordered
  · obtain ⟨x, hx, hy⟩ := mem_of_mapM_eq_ok hmap y hy
    obtain ⟨reading, hreading, rfl⟩ := withTrend_eq_ok.1 hy
    have hsum := hlists.each x hx
    have hr : s.Registered x.target.id := (hlists.all _).1 (List.mem_map_of_mem hx)
    have hnever := latestSample_eq_none_iff h.sound hsum
    have hcounted := ((summaries_isOk_iff h).1 ⟨stored, hstored⟩ _ hr).counted
    obtain ⟨row, hrow, hid, hseen, -⟩ := seen_of_listed h hstored x hx
    exact {
      target := hsum.target
      latest := (recentSamples_of_registered h.legible hr 1).trans hsum.latest
      never := hnever
      trend := ⟨reading, (latestMetrics_of_registered h.legible hr).trans hreading, rfl⟩
      counted := hsum.counted
      many := (congrArg UInt32.toNat hsum.counted).trans (UInt32.toNat_ofNat_of_lt' hcounted)
      seen := ⟨row, hrow, hid, hseen⟩ }

/-- **The reader agrees with itself.** As long as all samples lie in years of four digits, a reader of any depth can
list all targets just when each was registered in such a year and has samples few enough to be counted. It then lists
each registered target once, in the order of registration and then of ids, and says of each what it answers when it
is asked about that target alone. It can be asked about registered targets, and says of all other ids that there is
no such target. -/
theorem listTargets_agrees (h : Reachable s) (years : s.FourDigits) (r : MetricsReader) :
    ((∃ listed, r.listTargets s = .ok listed) ↔
      (∀ row ∈ s.targets, ∃ now : Stamp, row.firstSeenAt = .text now.storedText ∧ now.FourDigit) ∧
        ∀ targetId, (s.samplesOf targetId).length < 4_294_967_296) ∧
    (∀ listed, r.listTargets s = .ok listed → r.ListsAll s listed) ∧
    ∀ targetId,
      (s.Registered targetId → (∃ reading, r.latestMetrics s targetId = .ok reading) ∧
        ∀ n, ∃ samples, MetricsReader.recentSamples s targetId n = .ok samples) ∧
      (¬ s.Registered targetId → r.latestMetrics s targetId = .error (absent targetId) ∧
        ∀ n, MetricsReader.recentSamples s targetId n = .error (absent targetId)) := by
  refine ⟨?_, fun listed => listsAll h, fun targetId => ⟨fun hr => ⟨?_, fun n => ?_⟩, fun hr => ⟨?_, fun n => ?_⟩⟩⟩
  · rw [listTargets_isOk_iff h, summaries_isOk_iff h, all_listable_iff h years]
  · obtain ⟨reading, hread⟩ := history_isOk h r targetId
    exact ⟨reading, (latestMetrics_of_registered h.legible hr).trans hread⟩
  · obtain ⟨samples, hread⟩ := h.recentSamples targetId n
    exact ⟨samples, (recentSamples_of_registered h.legible hr n).trans hread⟩
  · exact latestMetrics_of_not_registered hr
  · exact recentSamples_of_not_registered hr n

/-- Of three targets one has samples of several outcomes, the newest of them an error, one has only one without peers
and one has none; the last of them was registered before the others. -/
theorem listTargets_agrees_mixed :
    let sample (id targetId : String) (milli : Int) (outcome : Outcome) : HealthSample :=
      ⟨id, targetId, (Stamp.ofMillis? milli).getD .epoch, 2, 1, 3, outcome, 1, none⟩
    let target (id : String) : MonitoringTarget := ⟨id, "", "", "", true⟩
    let earlier := (Stamp.ofParts? 59 999_999_999).getD .epoch
    let later := (Stamp.ofParts? 59 1_000_500_000).getD .epoch
    let calls := [.register later "" [target "up", target "down"], .register earlier "" [target "new"],
      .append (sample "1" "up" 1 .ok) none, .append (sample "2" "up" 2 .ok) none,
      .append (sample "3" "up" 3 .error) none, .append (sample "4" "down" 1 .noPeers) none]
    let s := ((⟨⟨"store", false⟩, empty⟩ : Opened).performAll calls).store
    s.FourDigits ∧ (∃ listed, (ofDepth 2).listTargets s = .ok listed ∧ (ofDepth 2).ListsAll s listed) ∧
      (ofDepth 2).latestMetrics s "other" = .error (absent "other") := by
  intro sample target earlier later calls s
  have h : Reachable s := ⟨_, calls, rfl⟩
  have hyears : s.FourDigits := by decide +kernel
  obtain ⟨hlists, hall, hasked⟩ := listTargets_agrees h hyears (ofDepth 2)
  have hclock : ∀ row ∈ s.targets, row.firstSeenAt.key = (Cell.text earlier.storedText).key ∨
      row.firstSeenAt.key = (Cell.text later.storedText).key := by decide +kernel
  have hseen : ∀ row ∈ s.targets, ∃ now : Stamp, row.firstSeenAt = .text now.storedText ∧ now.FourDigit := by
    intro row hrow
    obtain ⟨now, source, t, made⟩ := h.written.targets row hrow
    have hcell : row.firstSeenAt = .text now.storedText := congrArg TargetRow.firstSeenAt made
    refine ⟨now, hcell, ?_⟩
    rcases hclock row hrow with hkey | hkey
    all_goals
      rw [hcell] at hkey
      have htext := String.toList_inj.1 (List.cons.inj hkey).2
      exact Stamp.FourDigit.of_storedText_eq (by decide) htext.symm
  have hfew : ∀ targetId, (s.samplesOf targetId).length < 4_294_967_296 := fun targetId => by
    have hsamples : s.samples.length = 4 := by decide +kernel
    have hle : (s.samplesOf targetId).length ≤ s.samples.length := List.length_filter_le ..
    omega
  obtain ⟨listed, hlisted⟩ := hlists.2 ⟨hseen, hfew⟩
  have hother : ¬ s.Registered "other" := fun hr => absurd (any_isOf_iff.2 hr) (by decide +kernel)
  exact ⟨hyears, ⟨listed, hlisted, hall listed hlisted⟩, ((hasked "other").2 hother).1⟩

/-! ## Too many checks -/

/-- A target that is alone in its store. -/
def lone : MonitoringTarget := ⟨"t", "", "", "", true⟩

/-- The store after its target was registered at an instant. -/
def registeredStore (now : Stamp) : Store :=
  ((⟨⟨"store", false⟩, empty⟩ : Opened).performAll [.register now "" [lone]]).store

theorem registeredStore_eq (now : Stamp) : registeredStore now = empty.enrol now "" [lone] := by
  have hnew : empty.newcomers [lone] = [lone] := rfl
  show (register now "" [lone] empty).2 = _
  rw [register_newcomers, hnew]

theorem registeredStore_reachable (now : Stamp) : Reachable (registeredStore now) :=
  ⟨_, _, rfl⟩

theorem registeredStore_registered (now : Stamp) : (registeredStore now).Registered "t" :=
  registeredStore_eq now ▸ ⟨newRow now "" lone, List.mem_singleton_self _, rfl⟩

theorem registeredStore_samples (now : Stamp) : (registeredStore now).samples = [] :=
  registeredStore_eq now ▸ rfl

/-- Registered in a year of more digits, the target is never listed. -/
theorem registeredStore_unlisted {now : Stamp} (late : ¬ now.FourDigit) (r : MetricsReader) :
    ¬ ∃ listed, r.listTargets (registeredStore now) = .ok listed := by
  intro hlisted
  have hrow : newRow now "" lone ∈ (registeredStore now).targets := registeredStore_eq now ▸ List.mem_singleton_self _
  have hall := (summaries_isOk_iff (registeredStore_reachable now)).1
    ((listTargets_isOk_iff (registeredStore_reachable now) r).1 hlisted) "t" (registeredStore_registered now)
  obtain ⟨seen, hseen, hyear⟩ := hall.seen _ hrow rfl
  have htext : Cell.text now.storedText = .text seen.storedText := hseen
  exact late (hyear.of_storedText_eq (Cell.text.inj htext).symm)

/-- A check of it by a clock that stands still. -/
def standingCheck (i : Nat) : HealthSample := .ofCounts (toString i) "t" .epoch .none .noPeers 1 none

/-- The store after so many of these checks. -/
def checkedStore (n : Nat) : Store :=
  ((⟨⟨"store", false⟩, empty⟩ : Opened).performAll
    (.register .epoch "" [lone] :: (List.range n).map fun i => .append (standingCheck i) none)).store

theorem checkedStore_succ (n : Nat) :
    checkedStore (n + 1) = (append (standingCheck n) none (checkedStore n)).2 := by
  simp only [checkedStore, Opened.performAll, List.range_succ, List.map_append, List.foldl_cons, List.foldl_append]
  rfl

/-- What such a store holds: its target, and samples with numbers for ids and a millisecond for each. -/
structure Checked (n : Nat) (s : Store) : Prop where
  reachable : Reachable s
  targets : s.targets.map TargetRow.registered = [newRow .epoch "" lone]
  count : (s.samplesOf "t").length = n
  ids : ∀ x ∈ s.samples, ∃ i < n, x.id = toString i
  millis : ∀ x ∈ s.samples, 0 ≤ x.millis ∧ x.millis < n

namespace Checked

variable {n : Nat} (h : Checked n s)
include h

theorem firstSeenAt_eq {row : TargetRow} (hrow : row ∈ s.targets) : row.firstSeenAt = .text Stamp.epoch.storedText := by
  have hmem := List.mem_map_of_mem (f := TargetRow.registered) hrow
  rw [h.targets] at hmem
  exact congrArg TargetRow.firstSeenAt (List.mem_singleton.1 hmem)

theorem registered : s.Registered "t" := by
  have hmem : newRow .epoch "" lone ∈ s.targets.map TargetRow.registered := h.targets ▸ List.mem_singleton_self _
  obtain ⟨row, hrow, heq⟩ := List.mem_map.1 hmem
  exact ⟨row, hrow, congrArg TargetRow.id heq⟩

theorem fourDigits (few : n ≤ 253_402_300_800_000) : s.FourDigits := by
  intro x hx t ht
  have hmillis := h.millis x hx
  obtain ⟨hsecond, -⟩ := Stamp.ofParts?_eq_some ht
  exact Stamp.fourDigit_of_le (by omega)

/-- The next check is stored in the next millisecond at the latest. -/
theorem effectiveMillis_range :
    let millis := effectiveMillis (s.latestMillis? "t") Stamp.epoch.toMillis
    0 ≤ millis ∧ millis < (n + 1 : Nat) := by
  have hepoch : Stamp.epoch.toMillis = 0 := rfl
  intro millis
  cases hlast : s.latestMillis? "t" with
  | none =>
    have hmillis : millis = 0 := by simp only [millis, hlast, effectiveMillis, hepoch]
    omega
  | some last =>
    obtain ⟨⟨x, hx, rfl⟩, -⟩ := latestMillis?_eq_some hlast
    have hrange := h.millis x (mem_samplesOf.1 hx).1
    have hmillis : millis = if (0 : Int) ≤ x.millis then x.millis + 1 else 0 := by
      simp only [millis, hlast, hepoch, effectiveMillis_some h.reachable.sound.dated hlast]
    rw [if_pos hrange.1] at hmillis
    omega

theorem admits (few : n < 253_402_300_800_000) : s.Admits (standingCheck n) where
  dated := by
    obtain ⟨hlow, hhigh⟩ := h.effectiveMillis_range
    have hfirst : Stamp.firstMillis ≤ 0 := by decide
    have hlast : ((n + 1 : Nat) : Int) ≤ Stamp.lastMillis := by
      rw [Stamp.lastMillis, lastSecond]
      omega
    exact Stamp.ofMillis?_isSome_iff.2 ⟨Int.le_trans hfirst hlow, Int.le_trans (Int.le_of_lt hhigh) hlast⟩
  summed := rfl
  fresh x hx heq := by
    obtain ⟨i, hi, hid⟩ := h.ids x hx
    exact Nat.ne_of_lt hi (Text.eq_of_toString_eq (hid.symm.trans heq))
  registered := h.registered

/-- One more check is taken and counted. -/
theorem succ (few : n < 253_402_300_800_000) : Checked (n + 1) (append (standingCheck n) none s).2 := by
  obtain ⟨stored, s', heq, ha⟩ := (h.admits few).append h.reachable.sound.dated none
  have hrow : (rowOf stored none).id = toString n ∧ stored.targetId = "t" := by
    rw [ha.asked]
    exact ⟨rfl, rfl⟩
  have hmillis : (rowOf stored none).millis = effectiveMillis (s.latestMillis? "t") Stamp.epoch.toMillis :=
    Stamp.toMillis_of_ofMillis? ha.dated
  rw [heq]
  refine ⟨?_, ha.registered_eq.trans h.targets, ?_, fun x hx => ?_, fun x hx => ?_⟩
  · have hreachable := h.reachable.append (standingCheck n) none
    rwa [heq] at hreachable
  · rw [ha.samplesOf_eq, if_pos hrow.2, List.length_append, h.count]
    rfl
  · rcases ha.mem_samples hx with hx | rfl
    · obtain ⟨i, hi, hid⟩ := h.ids x hx
      exact ⟨i, Nat.lt_succ_of_lt hi, hid⟩
    · exact ⟨n, Nat.lt_succ_self n, hrow.1⟩
  · rcases ha.mem_samples hx with hx | rfl
    · have := h.millis x hx
      omega
    · rw [hmillis]
      exact h.effectiveMillis_range

end Checked

/-- **A target can be checked in years of four digits for as many times as these have milliseconds.** -/
theorem checkedStore_checked (n : Nat) (few : n ≤ 253_402_300_800_000) : Checked n (checkedStore n) := by
  induction n with
  | zero =>
    have hnone := registeredStore_samples .epoch
    show Checked 0 (registeredStore .epoch)
    refine ⟨registeredStore_reachable _, by rw [registeredStore_eq]; rfl, by rw [samplesOf, hnone]; rfl, ?_, ?_⟩
    all_goals
      intro x hx
      rw [hnone] at hx
      exact absurd hx List.not_mem_nil
  | succ n ih =>
    rw [checkedStore_succ]
    exact (ih (Nat.le_of_succ_le few)).succ few

/-- The beginning of the year 10000. -/
def year10000 : Stamp := (Stamp.ofMillis? 253_402_300_800_000).getD .epoch

/-- All samples lie in years of four digits, and no reader can list the targets: of one store because its target has
been checked more often than 32 bits can count, of the other because its target was registered in the year 10000. -/
theorem unlisted_after_four_billion_checks :
    let often := checkedStore 4_294_967_296
    (Reachable often ∧ often.FourDigits ∧ often.Registered "t" ∧ (often.samplesOf "t").length = 4_294_967_296 ∧
      (∀ row ∈ often.targets, row.firstSeenAt = .text Stamp.epoch.storedText) ∧
      ∀ r : MetricsReader, ¬ ∃ listed, r.listTargets often = .ok listed) ∧
    let late := registeredStore year10000
    Reachable late ∧ late.FourDigits ∧ late.Registered "t" ∧ late.samples = [] ∧
      ∀ r : MetricsReader, ¬ ∃ listed, r.listTargets late = .ok listed := by
  have h := checkedStore_checked 4_294_967_296 (by decide)
  have hnone := registeredStore_samples year10000
  refine ⟨⟨h.reachable, h.fourDigits (by decide), h.registered, h.count, fun row => h.firstSeenAt_eq,
    fun r hlisted => ?_⟩, registeredStore_reachable _, fun x hx => ?_, registeredStore_registered _, hnone,
    registeredStore_unlisted (by decide +kernel)⟩
  · have hall := (summaries_isOk_iff h.reachable).1 ((listTargets_isOk_iff h.reachable r).1 hlisted)
    have hcounted := (hall "t" h.registered).counted
    rw [h.count] at hcounted
    exact Nat.lt_irrefl _ hcounted
  · rw [hnone] at hx
    exact absurd hx List.not_mem_nil

end SwarmSampler.MetricsReader
