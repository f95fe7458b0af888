import SwarmSampler.Proofs.Reader.Asking
import SwarmSampler.Proofs.Sampler.Stopping

/-
The trend of a check, told three times: the report shows the trend that was made
when the check settled, from the stored history and its own sample; the row holds
it beside the sample; and it can be computed anew from the store. As long as
nothing else was stored of the target in between, the three agree.
-/

namespace SwarmSampler

open Sampler

/-! ## The trend of a sample before and after it is stored -/

namespace Store

variable {s s' : Store} {sample stored : HealthSample} {metrics : Option MetricsSnapshot}

/-- The depth of a trend, which is two at least, is one more than what is read for an ok sample. -/
theorem toNat_depth (depth : UInt64) :
    (if depth < 2 then 2 else depth).toNat = ((if depth < 2 then 2 else depth) - 1).toNat + 1 := by
  have h : 2 ≤ if depth < 2 then 2 else depth := MetricsReader.two_le_historyDepth depth
  have h1 : 1 ≤ if depth < 2 then 2 else depth := UInt64.le_trans (by decide) h
  have h2 : 2 ≤ (if depth < 2 then 2 else depth).toNat := h
  rw [UInt64.toNat_sub_of_le _ _ h1, UInt64.toNat_one]
  omega

/-- Only the totals of ok samples make a trend. -/
theorem ofSamples_append_congr (history : List HealthSample) {x y : HealthSample}
    (outcome : x.outcome = y.outcome) (total : x.totalPeers = y.totalPeers) :
    (Reading.ofSamples peerConfidence (history ++ [x]) : MetricsReading) =
      Reading.ofSamples peerConfidence (history ++ [y]) := by
  simp only [Reading.ofSamples, List.filter_append, List.map_append, List.filter_singleton, outcome]
  cases y.outcome == .ok with
  | true => simp only [cond_true, List.map_singleton, total]
  | false => simp only [cond_false, List.map_nil]

theorem trendWith_ok {depth : UInt64} {history : List HealthSample} (ok : sample.outcome = .ok)
    (read : s.lastOkSamples sample.targetId ((if depth < 2 then 2 else depth) - 1) = .ok history) :
    trendWith depth sample s = .ofSamples peerConfidence (history ++ [sample]) := by
  simp only [trendWith, SampleStore.lastOk, if_pos ok, read]
  rfl

theorem trendWith_other {depth : UInt64} {history : List HealthSample} (other : sample.outcome ≠ .ok)
    (read : s.lastOkSamples sample.targetId (if depth < 2 then 2 else depth) = .ok history) :
    trendWith depth sample s = .ofSamples peerConfidence history := by
  simp only [trendWith, SampleStore.lastOk, if_neg other, read]

/-- A trend is a matter of the target's own samples. -/
theorem trendWith_congr (hs : Sound s) (hs' : Sound s') (depth : UInt64)
    (same : s'.samplesOf sample.targetId = s.samplesOf sample.targetId) :
    trendWith depth sample s' = trendWith depth sample s := by
  simp only [trendWith, SampleStore.lastOk, lastOkSamples_congr hs hs' same]

section Append

variable (h : Appended sample metrics s stored s')
include h

/-- **The trend that goes with a sample is the one that is computed after it was stored.** Before, it
takes one stored sample less, and the sample itself if that is ok. -/
theorem Appended.latestMetrics (before : Reachable s) (after : Reachable s') (depth : UInt64) :
    (MetricsReader.ofDepth depth).latestMetrics s' sample.targetId = .ok (trendWith depth sample s) := by
  have registered : s'.Registered sample.targetId := h.registered_iff.2 (h.targetId_eq ▸ h.registered)
  have hfound : (MetricsReader.ofDepth depth).latestMetrics s' sample.targetId =
      (s'.lastOkSamples sample.targetId (if depth < 2 then 2 else depth)).map (.ofSamples peerConfidence) :=
    MetricsReader.latestMetrics_of_registered after.legible registered
  rw [hfound]
  by_cases ok : sample.outcome = .ok
  · obtain ⟨history, read⟩ := before.lastOkSamples sample.targetId ((if depth < 2 then 2 else depth) - 1)
    rw [h.lastOkSamples_ok before.sound ok (toNat_depth depth), trendWith_ok ok read, read]
    exact congrArg Except.ok (ofSamples_append_congr history h.outcome_eq h.totalPeers_eq)
  · obtain ⟨history, read⟩ := before.lastOkSamples sample.targetId (if depth < 2 then 2 else depth)
    rw [h.lastOkSamples_other before.sound ok, trendWith_other ok read, read]
    rfl

end Append

/-- The trend that is stored beside an ok sample is the one that goes with it. -/
theorem Appended.persistedMetrics {depth : UInt64}
    (h : Appended sample (trendToStore sample (trendWith depth sample s)) s stored s') (before : Reachable s)
    (ok : sample.outcome = .ok) :
    s'.persistedMetrics sample.targetId = (trendWith depth sample s).snapshot? := by
  obtain ⟨history, read⟩ := before.lastOkSamples sample.targetId ((if depth < 2 then 2 else depth) - 1)
  rw [h.persistedMetrics_ok before.sound ok, trendToStore, if_pos ok, trendWith_ok ok read]
  exact storedMetrics_ofSamples stored _

end Store

/-! ## What is told of a trend -/

/-- A report shows the trend that its check has found. -/
theorem Life.metrics_of_published {τ σ ρ : Type} [SampleStore σ] {view : RowView σ ρ} {id : Nat}
    {st : Standing τ} {events : List (CheckEvent ρ)} (h : Life view id st events) {f : Finding}
    {report : CheckReport} (settled : .settled f ∈ events) (published : .published report ∈ events) :
    report.metrics = f.metrics := by
  cases h with
  | unborn => cases settled
  | probing | waiting | stored | refused | failed | crashed => simp [questions] at published
  | @reported e qs g x own taken =>
    obtain rfl : f = g := by simpa [questions] using settled
    obtain rfl : report = f.report e.target x := by simpa [questions] using published
    rfl

/-- What a check finds is about its own target, and the trend is that of the sample. -/
theorem Sampler.trend_of_finding {κ τ σ : Type} [SwarmClient κ τ] [SampleStore σ] {s : Sampler κ τ σ}
    {t : CheckTask τ} {f : Finding} (found : s.finding? t = some f) :
    f.sample.targetId = t.target.id ∧ f.sample.outcome = f.outcome.outcome ∧
      f.metrics = trendWith s.plan.historyDepth f.sample s.store := by
  unfold finding? at found
  split at found
  · split at found
    · cases found
      exact ⟨rfl, rfl, rfl⟩
    · cases found
  · cases found

/-! ## What a sampler does to its store -/

namespace Chronicle

variable {κ τ : Type} [SwarmClient κ τ] {before : List SampleRow} {c : Chronicle κ τ Store SampleRow}

/-- All a sampler does to its store is to call it. -/
theorem Right.reachable (h : Right Store.sampleView before c) (hr : c.sampler.store.Reachable)
    (m : Move Store) :
    (c.sampler.move m).store.Reachable := by
  cases m with
  | run id =>
    obtain ⟨first, hran⟩ := (resumeRun_turn c.sampler id).ran
    rw [move]
    obtain hs | ⟨now, source, targets, hs⟩ := hran.store
    · exact hs ▸ hr
    · exact hs ▸ hr.register now source targets
  | check id => exact (h.checkTurn id).store ▸ hr
  | work => exact work_keeps (fun sample metrics _ hr => hr.append sample metrics) c.sampler hr
  | register now source targets => exact hr.register now source targets
  | append sample metrics => exact hr.append sample metrics
  | clock | cancel | cancelRun | addRun | relist => exact hr

/-- What a sampler was set up for stays. -/
theorem Right.plan_kept (h : Right Store.sampleView before c) (m : Move Store) :
    (c.sampler.move m).plan = c.sampler.plan := by
  cases m with
  | run id =>
    obtain ⟨first, hran⟩ := (resumeRun_turn c.sampler id).ran
    exact hran.plan
  | check id => exact (h.checkTurn id).plan
  | work | clock | cancel | cancelRun | addRun | relist | register | append => rfl

/-- A sampler of some depth on a store that calls alone have led to. -/
structure Sampling (before : List SampleRow) (depth : UInt64) (c : Chronicle κ τ Store SampleRow) : Prop where
  right : Right Store.sampleView before c
  reachable : c.sampler.store.Reachable
  depth : c.sampler.plan.historyDepth = depth

namespace Sampling

variable {depth : UInt64} {id : Nat} {f : Finding}

omit [SwarmClient κ τ] in
theorem opened {settings : Settings} {chance : Chance} {source : TargetSource Store} {client : κ}
    {store : Store} {s : Sampler (Observed κ) (Nat × τ) Store} (reachable : store.Reachable)
    (opens : ofSettings settings chance source (Observed.of client) store = .ok s) :
    Sampling s.store.samples settings.historyDepth (opened s) := by
  refine ⟨right_opened Store.sampleView (new_of_ofSettings opens), ?_, ?_⟩
  all_goals obtain ⟨-, policy, rfl⟩ := eq_of_ofSettings opens
  · exact reachable
  · rfl

theorem step (h : Sampling before depth c) (m : Move Store) :
    Sampling before depth (c.step Store.sampleView.toRowView m) where
  right := h.right.step m
  reachable := h.right.reachable h.reachable m
  depth := (congrArg SamplingPlan.historyDepth (h.right.plan_kept m)).trans h.depth

theorem steps (ms : List (Move Store)) (h : Sampling before depth c) :
    Sampling before depth (c.run Store.sampleView.toRowView ms) :=
  run_keeps (P := Sampling before depth) (fun m h => h.step m) ms h

/-- The row of a settled check holds its sample with its trend. -/
theorem appended (h : Sampling before depth c) (settled : .settled f ∈ c.life id) {row : SampleRow}
    (stored : (c.step Store.sampleView.toRowView .work).life id = c.life id ++ [.stored row]) :
    ∃ x, row = Store.rowOf x f.trend ∧ Store.Appended f.sample f.trend c.sampler.store x
      (c.step Store.sampleView.toRowView .work).sampler.store := by
  rw [life_step, List.append_cancel_left_eq] at stored
  have hwork : (noteWork Store.sampleView.toRowView c.sampler c.sampler.work).filterMap (Entry.of? id) =
      [.stored row] := stored
  obtain ⟨r, rest, x, hline, taken, -, hnote⟩ | ⟨-, hnote | hnote⟩ :=
    noteWork_cases Store.sampleView c.sampler
  · rw [hnote] at hwork
    have hrow := (filterMap_check r.ticket id [.stored (Store.rowOf x r.metrics)]).symm.trans hwork
    split at hrow
    · next hid =>
      have hrequest := requests_of_line hline
      rw [hid] at hrequest
      obtain ⟨e, qs, g, -, hr, -, -, hlife⟩ := (h.right.lives id).of_request hrequest
      -- The check has settled but once.
      obtain rfl : f = g := by simpa [hlife, questions] using settled
      cases hrow
      subst hr
      exact ⟨x, rfl, Store.appended_of_append taken⟩
    · cases hrow
  · rw [hnote] at hwork
    cases hwork
  · rw [hnote] at hwork
    cases hwork

end Sampling

/-- What a check finds is told. -/
theorem settled_of_finding {σ ρ : Type} [SampleStore σ] (view : SampleView σ ρ) {c : Chronicle κ τ σ ρ}
    {id : Nat} {t : CheckTask (Nat × τ)} {f : Finding} (task : c.sampler.check? id = some t)
    (found : c.sampler.finding? t = some f) : .settled f ∈ (c.step view.toRowView (.check id)).life id := by
  rw [life_step]
  refine List.mem_append_right _ ?_
  have hbrings := filterMap_check (ρ := ρ) id id (noteTurn id c.sampler (c.sampler.resumeCheck id))
  rw [if_pos rfl] at hbrings
  have hmem : .settled f ∈ (noteTurn id c.sampler (c.sampler.resumeCheck id) : List (CheckEvent ρ)) := by
    rw [noteTurn_eq task, noteCheck, found]
    simp
  exact hbrings ▸ hmem

/-- **What is reported of a trend, what is stored of it and what is computed anew agree.** A check settles,
for which it reads the history, as is always possible in a store that only calls have led to; its sample is
stored later on, and nothing else of its target is stored in between. Then the trend that is computed right
after that is the one that the check reports. It is the target's stored trend from then on if the check is
ok. Otherwise the row has none, and the stored trend is what it was, for as long before as no other sample
of the target was stored. -/
theorem report_agrees {settings : Settings} {chance : Chance} {source : TargetSource Store} {client : κ}
    {store : Store} {s : Sampler (Observed κ) (Nat × τ) Store} (reachable : store.Reachable)
    (opens : ofSettings settings chance source (Observed.of client) store = .ok s)
    (ms mid later : List (Move Store)) {id : Nat} {t : CheckTask (Nat × τ)} {f : Finding} {row : SampleRow} :
    let view := Store.sampleView.toRowView
    let settling := (opened s).run view ms
    let writing := (settling.step view (.check id)).run view mid
    let written := writing.step view .work
    let target := t.target.id
    settling.sampler.check? id = some t → settling.sampler.finding? t = some f →
    written.life id = writing.life id ++ [.stored row] →
    writing.sampler.store.samplesOf target = settling.sampler.store.samplesOf target →
    ∃ reading,
      (MetricsReader.ofDepth settings.historyDepth).latestMetrics written.sampler.store target = .ok reading ∧
      (∀ report, .published report ∈ (written.run view later).life id → report.metrics = reading) ∧
      (f.outcome.outcome = .ok → written.sampler.store.persistedMetrics target = reading.snapshot?) ∧
      (f.outcome.outcome ≠ .ok →
        (row.growth = none ∧ row.shrink = none ∧ row.score = none ∧ row.considered = none) ∧
        ∀ early during, ms = early ++ during →
          settling.sampler.store.samplesOf target = ((opened s).run view early).sampler.store.samplesOf target →
          written.sampler.store.persistedMetrics target =
            ((opened s).run view early).sampler.store.persistedMetrics target) := by
  intro view settling writing written target task found stored undisturbed
  have hstart := Sampling.opened reachable opens
  have hsettling : Sampling s.store.samples settings.historyDepth settling := hstart.steps ms
  have hwriting : Sampling s.store.samples settings.historyDepth writing :=
    (hsettling.step (.check id)).steps mid
  have hwritten : Sampling s.store.samples settings.historyDepth written := hwriting.step .work
  have hsettled : .settled f ∈ writing.life id :=
    ((journal_grows mid).filterMap _).subset (settled_of_finding Store.sampleView task found)
  obtain ⟨x, hrow, happended⟩ := hwriting.appended hsettled stored
  obtain ⟨htarget, houtcome, hmetrics⟩ := trend_of_finding found
  -- The history has not changed since the check has settled.
  rw [hsettling.depth, ← Store.trendWith_congr hsettling.reachable.sound hwriting.reachable.sound
    settings.historyDepth (htarget ▸ undisturbed)] at hmetrics
  have htrend : f.trend =
      trendToStore f.sample (trendWith settings.historyDepth f.sample writing.sampler.store) := by
    rw [Finding.trend, hmetrics]
  refine ⟨f.metrics, ?_, fun report published => ?_, fun ok => ?_,
    fun other => ⟨?_, fun early during hms same => ?_⟩⟩
  · rw [hmetrics, ← show f.sample.targetId = target from htarget]
    exact happended.latestMetrics hwriting.reachable hwritten.reachable settings.historyDepth
  · have hlater : written.life id <+: (written.run view later).life id := (journal_grows later).filterMap _
    refine ((hwritten.steps later).right.lives id).metrics_of_published (hlater.subset ?_) published
    rw [stored]
    exact List.mem_append_left _ hsettled
  · rw [htrend] at happended
    rw [hmetrics, ← show f.sample.targetId = target from htarget]
    exact happended.persistedMetrics hwriting.reachable (houtcome.trans ok)
  · have hnone : f.trend = none := if_neg fun ok => other (houtcome.symm.trans ok)
    rw [hrow, hnone]
    exact ⟨rfl, rfl, rfl, rfl⟩
  · have hearly := (hstart.steps early).reachable.sound
    have hkept := happended.persistedMetrics_other hwriting.reachable.sound
      fun ok => other (houtcome.symm.trans ok)
    rw [htarget] at hkept
    exact hkept.trans (Store.persistedMetrics_congr hearly hwriting.reachable.sound (undisturbed.trans same))

/-! ## A target that is checked twice -/

def trendingTarget : MonitoringTarget := ⟨"a", "", "", "A", true⟩

def trending : Sampler (Observed ScriptedClient) (Nat × Unit) Store where
  plan := ⟨⟨3, .ofMillis 60000, .ofMillis 10000, .ofMillis 16000⟩, .all, .ofMillis 300000, 10⟩
  chance := .still
  drawn := 0
  now := 0
  source := .ofList [trendingTarget]
  client := .of ⟨[], .ok ⟨2, 1⟩, 0, [], []⟩
  store := .empty
  writer := .start Settings.standard.writer
  pool := .full 4
  checks := []
  started := 0
  runs := []
  reports := []
  halted := false

/-- Two cycles of a run, up to the turn in which the check of the second one settles. -/
def trendingMoves : List (Move Store) :=
  [.addRun true, .run 0, .check 0, .work, .check 0, .run 0, .clock 300000000000, .run 0]

/-- The second check finds the swarm as large as the first did. -/
theorem report_agrees_twice :
    let view := Store.sampleView.toRowView
    let settling := (opened trending).run view trendingMoves
    let writing := (settling.step view (.check 1)).run view []
    let written := writing.step view .work
    ∃ report, .published report ∈ (written.run view [.check 1]).life 1 ∧
      report.metrics.snapshot?.map (·.samplesConsidered) = some 2 ∧
      (MetricsReader.ofDepth 10).latestMetrics written.sampler.store "a" = .ok report.metrics ∧
      written.sampler.store.persistedMetrics "a" = report.metrics.snapshot? := by
  intro view settling writing written
  have opens : ofSettings Settings.standard .still (.ofList [trendingTarget])
      (Observed.of (⟨[], .ok ⟨2, 1⟩, 0, [], []⟩ : ScriptedClient)) Store.empty = .ok trending := rfl
  have task : settling.sampler.check? 1 =
      some ⟨1, 0, trendingTarget, .probing (.start "A" trending.plan.policy)⟩ := by cbv
  obtain ⟨f, found, ok⟩ : ∃ f, settling.sampler.finding?
      ⟨1, 0, trendingTarget, .probing (.start "A" trending.plan.policy)⟩ = some f ∧ f.outcome.outcome = .ok :=
    ⟨_, (Option.some_get (by decide +kernel)).symm, by decide +kernel⟩
  obtain ⟨row, stored⟩ : ∃ row, written.life 1 = writing.life 1 ++ [.stored row] := by
    obtain ⟨rest, hrest⟩ : writing.life 1 <+: written.life 1 := (journal_grows [.work]).filterMap _
    have hnew : ((written.life 1).drop (writing.life 1).length).map (fun e => e.row?.isSome) = [true] := by
      decide +kernel
    rw [← hrest, List.drop_left] at hnew
    obtain ⟨e, rfl, he⟩ := List.map_eq_singleton_iff.1 hnew
    obtain ⟨row, hrow⟩ := Option.isSome_iff_exists.1 he
    exact ⟨row, CheckEvent.row?_eq_some.1 hrow ▸ hrest.symm⟩
  have hright := (right_opened Store.sampleView (new_of_ofSettings opens)).run trendingMoves
  have undisturbed : writing.sampler.store.samplesOf "a" = settling.sampler.store.samplesOf "a" :=
    congrArg (Store.samplesOf · "a") (hright.checkTurn 1).store
  obtain ⟨reading, latest, reported, persisted, -⟩ :=
    report_agrees ⟨⟨"", false⟩, [], rfl⟩ opens trendingMoves [] [.check 1] task found stored undisturbed
  have hreport : (((written.run view [.check 1]).life 1).filterMap CheckEvent.report?).map
      (fun r => r.metrics.snapshot?.map (·.samplesConsidered)) = [some 2] := by decide +kernel
  obtain ⟨report, hone, hconsidered⟩ := List.map_eq_singleton_iff.1 hreport
  obtain ⟨e, published, he⟩ := List.mem_filterMap.1 (hone ▸ List.mem_singleton_self report)
  obtain rfl := CheckEvent.report?_eq_some.1 he
  obtain rfl := reported report published
  exact ⟨report, published, hconsidered, latest, persisted ok⟩

end Chronicle

end SwarmSampler
