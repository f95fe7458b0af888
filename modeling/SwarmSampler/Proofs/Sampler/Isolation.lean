import SwarmSampler.Proofs.Sampler.Apart
import SwarmSampler.Proofs.Sampler.Opening
import SwarmSampler.Proofs.Store.Naming

/-
Targets apart from each other. In a run of one cycle that nobody disturbs, what is
stored of a target and what is reported on it is settled by what the client has in
store for its magnet and by its history, but for the sample's id and its time. So
two runs that agree in these agree in the target's row and report, whatever else
they check and in whatever order their tasks have turns.
-/

namespace SwarmSampler

open Sampler

/-! ## Rows and reports of a verdict -/

/-- A row but for its sample's id and time. -/
def SampleRow.unstamped (r : SampleRow) : SampleRow := { r with id := "", millis := 0 }

/-- A report but for its sample's id and time. -/
def CheckReport.unstamped (r : CheckReport) : CheckReport := { r with sampleId := "", timestamp := .epoch }

namespace Verdict

variable (v : Verdict) (target : MonitoringTarget) (depth : UInt64) (history : Store)

/-- The sample of a target that a verdict makes, but for its id and its time. -/
def sample : HealthSample := .ofCounts "" target.id .epoch v.counts v.outcome v.attempts v.reason

/-- The trend of the sample after the history in a store. -/
def trend : MetricsReading := trendWith depth (v.sample target) history

def row : SampleRow := Store.sampleRow (v.sample target) 0 (trendToStore (v.sample target) (v.trend target depth history))

def report : CheckReport := .ofSample target (v.trend target depth history) (v.sample target)

end Verdict

/-- A finding with a verdict's trend makes the verdict's row and report. -/
theorem Finding.of_verdict {f : Finding} {target : MonitoringTarget} (own : f.Of target) {x : HealthSample}
    (stored : x = { f.sample with timestamp := x.timestamp }) {depth : UInt64} {history : Store}
    (trend : f.metrics = trendWith depth f.sample history) :
    (f.row Store.sampleView.toRowView x).unstamped = f.outcome.verdict.row target depth history ∧
      (f.report target x).unstamped = f.outcome.verdict.report target depth history := by
  obtain ⟨id, at', hsample⟩ := own
  have htrend : f.metrics = f.outcome.verdict.trend target depth history := by
    rw [trend, hsample]
    exact Store.trendWith_of_samplesOf depth rfl rfl rfl rfl
  refine ⟨?_, ?_⟩
  · show (Store.rowOf x f.trend).unstamped = _
    rw [stored, Finding.trend, htrend, hsample]
    rfl
  · rw [Finding.report, stored, htrend, hsample]
    rfl

namespace Chronicle

/-! ## What a check comes to that keeps to its verdict -/

section

variable {target : MonitoringTarget} {id : Nat} {plan : SamplingPlan} {history : Store} {verdict : Option Verdict}
  {c : Chronicle ScriptedClient Unit Store SampleRow}

/-- **A check that is over has brought the row and the report of its verdict**, or neither if it has none. -/
theorem Awaits.outcome (h : Awaits target id plan history verdict c) (sole : c.Sole target id)
    (gone : c.sampler.check? id = none) (started : c.life id ≠ []) :
    ((c.life id).filterMap CheckEvent.row?).map SampleRow.unstamped =
        (verdict.map (·.row target plan.historyDepth history)).toList ∧
      ((c.life id).filterMap CheckEvent.report?).map CheckReport.unstamped =
        (verdict.map (·.report target plan.historyDepth history)).toList := by
  have hl := h.calm.right.lives id
  have hsettled := h.settled
  have hgone := h.gone started gone
  have hown := sole.own
  have hfailed : ∀ run k why, .ended run k (.failed why) ∉ c.life id := fun _ _ _ => h.calm.not_failed
  generalize hst : c.sampler.standing id = st at hl
  have htask : st.task = none := hst ▸ gone
  generalize c.life id = events at *
  cases hl with
  | unborn => exact absurd rfl started
  | probing | waiting | stored | refused => cases htask
  | @reported e qs f x own taken =>
    obtain rfl := hown e List.mem_cons_self
    obtain ⟨rfl, htrend⟩ := hsettled f (by simp)
    obtain ⟨store, store', taken⟩ := taken
    obtain ⟨hrow, hreport⟩ := Finding.of_verdict own (Store.sampleView.asked taken) htrend
    simp only [List.filterMap_append, List.filterMap_cons, row?_questions, report?_questions, CheckEvent.row?,
      CheckEvent.report?, List.filterMap_nil, List.nil_append, List.map_cons, hrow, hreport]
    exact ⟨rfl, rfl⟩
  | @failed e qs f why => exact absurd (by simp) (hfailed e.run e.pass why)
  | crashed =>
    rw [hgone (by simp [questions])]
    simp only [List.filterMap_append, List.filterMap_cons, row?_questions, report?_questions, CheckEvent.row?,
      CheckEvent.report?, List.filterMap_nil, List.nil_append]
    exact ⟨rfl, rfl⟩

end

/-! ## Runs of one cycle -/

section

variable {settings : Settings} {source : TargetSource Store} {client : ScriptedClient} {store : Store}
  {target : MonitoringTarget} {before : List SampleRow} {c : Chronicle ScriptedClient Unit Store SampleRow}

/-- A run of one cycle that nobody disturbs, on a sampler that was opened from settings and on a store that
takes every sample. The tasks have had turns in some order, and the cycle has come to a summary. -/
structure Undisturbed (settings : Settings) (source : TargetSource Store) (client : ScriptedClient) (store : Store)
    (c : Chronicle ScriptedClient Unit Store SampleRow) : Prop where
  course : ∃ chance s ms, ofSettings settings chance source (Observed.of client) store = .ok s ∧
    (∀ m ∈ ms, m.isOrdinary = true) ∧ c = (opened s).run Store.sampleView.toRowView (.addRun false :: ms)
  accepting : c.Accepting
  summed : ∃ summary, (c.sampler.lastPass? 0).map (·.result) = some (.ok summary)

/-- **A cycle of the program's own is undisturbed** if it comes to a summary and the store takes every sample. -/
theorem undisturbed_cycle {chance : Chance} {s : Sampler (Observed ScriptedClient) (Nat × Unit) Store}
    (opens : ofSettings settings chance source (Observed.of client) store = .ok s) {summary : CycleSummary}
    (answers : (Schedule.ofSampler s).cycle.1 = some (.ok summary)) :
    ∃ c, c.sampler = (Schedule.ofSampler s).cycle.2.sampler ∧
      (c.Accepting → Undisturbed settings source client store c) := by
  have hnew := new_of_ofSettings opens
  have hwrites : s.Writes := (right_opened Store.sampleView hnew).writes
  obtain ⟨ms, ordinary, hsampler⟩ := Schedule.proceeds_cycle (s := .ofSampler s) hwrites rfl
  refine ⟨(opened s).run Store.sampleView.toRowView (.addRun false :: ms), ?_, fun accepting => ?_⟩
  · rw [run_sampler, hsampler]
    rfl
  · refine ⟨⟨chance, s, ms, opens, ordinary, rfl⟩, accepting, summary, ?_⟩
    have hfirst : (Schedule.ofSampler s).sampler.runs.length = 0 := by
      show s.runs.length = 0
      rw [hnew.runs]
      rfl
    rw [run_sampler, ← answers, ← hfirst]
    exact congrArg (fun s' => (s'.lastPass? (Schedule.ofSampler s).sampler.runs.length).map (·.result)) hsampler.symm

/-- The run's cycle has chosen a target of those it was given. -/
def Chooses (c : Chronicle ScriptedClient Unit Store SampleRow) (target : MonitoringTarget) : Prop :=
  ∃ draw targets, c.listingsOf 0 0 = [(draw, targets)] ∧ target ∈ c.sampler.chosenOf draw targets

/-- The only cycle of a run is the first and the last. -/
theorem Calm.passes_of_last (h : Calm Store.sampleView before c) {result : Except Failure CycleSummary}
    (last : (c.sampler.lastPass? 0).map (·.result) = some result) :
    ∃ pass, c.sampler.passes 0 = [pass] ∧ pass.result = result := by
  obtain ⟨r, hr, -, hpasses⟩ := h.once
  rw [lastPass?, hr] at last
  rw [passes, hr]
  obtain hnone | ⟨hone, -⟩ := hpasses
  · simp [hnone] at last
  · obtain ⟨pass, hpass⟩ := List.length_eq_one_iff.1 hone
    exact ⟨pass, hpass, by simpa [hpass] using last⟩

/-- **A chosen target has one check, and no other check of the run is for its id or its magnet.** -/
theorem Calm.sole (h : Calm Store.sampleView before c) (given : Given source store c) (names : source.Names store)
    {summary : CycleSummary} (summed : (c.sampler.lastPass? 0).map (·.result) = some (.ok summary)) (chosen : c.Chooses target) :
    ∃ id, .started ⟨0, 0, target⟩ ∈ c.life id ∧ c.Sole target id ∧ c.sampler.check? id = none := by
  obtain ⟨pass, hpasses, hresult⟩ := h.passes_of_last summed
  have hpast : 0 < c.sampler.passNo 0 := by simp [passNo, hpasses]
  have hfirst : (c.sampler.passes 0)[0]? = some pass := by rw [hpasses]; rfl
  obtain ⟨draw, targets, hlisting, haccounted⟩ := h.right.accounted h.tallied hfirst hresult
  obtain ⟨draw', targets', hlisting', hmem⟩ := chosen
  cases hlisting.symm.trans hlisting'
  have hwhole : (c.startedIn 0 0).map (·.2) = c.sampler.chosenOf draw targets := haccounted.whole (h.unhalted 0)
  have named : ∀ t ∈ c.sampler.chosenOf draw targets, t.Named := fun t ht =>
    names targets (given.listed 0 0 draw targets (mem_listingsOf.1 (hlisting ▸ List.mem_singleton_self _))) t
      (List.mem_filter.1 (List.mem_of_find?_eq_some (haccounted.eligible t ht))).1
  -- All checks are those of the chosen targets, whose ids are distinct.
  have hstarted : ∀ {i e}, .started e ∈ c.life i → (i, e.target) ∈ c.startedIn 0 0 := by
    intro i e he
    have hin : (i, e.target) ∈ c.startedIn e.run e.pass := mem_startedIn.2 he
    obtain ⟨hrun, hpass⟩ := h.tallied.only h.once (by rw [hpasses]; exact List.cons_ne_nil _ _) hin
    rwa [hrun, hpass] at hin
  have hdistinct : ((c.startedIn 0 0).map fun p => p.2.id).Nodup := by
    have hnodup := haccounted.distinct
    rwa [← hwhole, List.map_map] at hnodup
  rw [← hwhole] at hmem
  obtain ⟨⟨id, t⟩, hid, rfl⟩ := List.mem_map.1 hmem
  refine ⟨id, mem_startedIn.1 hid, ⟨fun e he => ?_, fun i e he same => ?_⟩,
    h.right.over_of_past hpast (mem_startedIn.1 hid)⟩
  · exact (h.right.kept.one (hstarted he) hid).2.2
  · have hi := hstarted he
    have hsame : e.target.id = t.id := by
      refine same.elim (fun hsame => hsame) fun magnet => (named _ ?_).id_eq (named _ ?_) magnet
      · exact hwhole ▸ List.mem_map_of_mem hi
      · exact hwhole ▸ List.mem_map_of_mem hid
    exact congrArg Prod.fst (List.inj_on_of_nodup_map hdistinct hi hid hsame)

/-- **What becomes of a chosen target is settled when the run begins**: by the policy, by what the client has in
store for its magnet, and by its history. -/
theorem Undisturbed.outcome (h : Undisturbed settings source client store c) (names : source.Names store)
    (chosen : c.Chooses target) :
    ∃ policy rows, settings.retryPolicy? = some policy ∧
      let verdict := (Probe.start target.magnet policy).verdict (Observed.of client)
      c.sampler.store.samplesOf target.id = store.samplesOf target.id ++ rows ∧
      rows.map SampleRow.unstamped = (verdict.map (·.row target settings.historyDepth store)).toList ∧
      (c.sampler.reports.filter (·.targetId = target.id)).map CheckReport.unstamped =
        (verdict.map (·.report target settings.historyDepth store)).toList := by
  obtain ⟨⟨chance, s, ms, opens, ordinary, rfl⟩, accepting, summary, summed⟩ := h
  have hnew := new_of_ofSettings opens
  have hpolicy := policy_of_ofSettings opens
  obtain ⟨hstore, hclient, hsource, hdepth⟩ : s.store = store ∧ s.client = Observed.of client ∧
      s.source = source ∧ s.plan.historyDepth = settings.historyDepth := by
    obtain ⟨-, policy, rfl⟩ := eq_of_ofSettings opens
    exact ⟨rfl, rfl, rfl, rfl⟩
  have hcalm := (calm_opened Store.sampleView hnew).steps ms ordinary accepting
  have hgiven : Given source store ((opened s).step Store.sampleView.toRowView (.addRun false)) :=
    ⟨hsource, fun _ => hstore, fun _ _ _ _ hm => nomatch hm⟩
  obtain ⟨id, started, sole, gone⟩ := hcalm.sole
    (hgiven.steps ms (calm_opened Store.sampleView hnew) ordinary accepting) names summed chosen
  have hawaits := (Awaits.opened hnew target id).steps ms ordinary accepting sole
  rw [hstore, hclient] at hawaits
  obtain ⟨hrows, hreports⟩ := hawaits.outcome sole gone (List.ne_nil_of_mem started)
  rw [hdepth] at hrows hreports
  refine ⟨_, _, hpolicy, hawaits.calm.samplesOf sole, hrows, ?_⟩
  exact (congrArg (List.map CheckReport.unstamped) (hawaits.calm.reportsOf sole)).trans hreports

/-- **Targets are kept apart.** Two runs begin with the same store and the same settings, except that they may
have other limits of how many checks go on at once, and other targets. Nobody disturbs them, and the store takes
every sample. If both choose a target and their clients agree in what they have in store for its magnet, then
either run adds the same to the target's history but for the sample's id and its time, and reports the same on it.
That is one row and one report, or none of both if the magnet breaks the clients down. What else is checked
does not matter, nor what the clients answer about it, nor in which order the tasks have turns. -/
theorem targets_isolated {source' : TargetSource Store} {client' : ScriptedClient}
    {c' : Chronicle ScriptedClient Unit Store SampleRow} (concurrency : UInt64) (records : List TargetRecord)
    (run : Undisturbed settings source client store c)
    (run' : Undisturbed { settings with concurrency := concurrency, targets := records } source' client' store c')
    (names : source.Names store) (names' : source'.Names store)
    (agree : client'.prospect target.magnet = client.prospect target.magnet)
    (chosen : c.Chooses target) (chosen' : c'.Chooses target) :
    let reports (c : Chronicle ScriptedClient Unit Store SampleRow) :=
      c.sampler.reports.filter (·.targetId = target.id)
    ∃ rows rows',
      c.sampler.store.samplesOf target.id = store.samplesOf target.id ++ rows ∧
      c'.sampler.store.samplesOf target.id = store.samplesOf target.id ++ rows' ∧
      rows'.map SampleRow.unstamped = rows.map SampleRow.unstamped ∧
      (reports c').map CheckReport.unstamped = (reports c).map CheckReport.unstamped ∧
      rows.length = (if client.crashes.contains target.magnet then 0 else 1) ∧
      (reports c).length = rows.length := by
  intro reports
  obtain ⟨policy, rows, hpolicy, hstored, hrows, hreports⟩ := run.outcome names chosen
  obtain ⟨policy', rows', hpolicy', hstored', hrows', hreports'⟩ := run'.outcome names' chosen'
  obtain rfl : policy' = policy := Option.some.inj (hpolicy'.symm.trans hpolicy)
  have hverdict : (Probe.start target.magnet policy').verdict (Observed.of client') =
      (Probe.start target.magnet policy').verdict (Observed.of client) :=
    Probe.verdict_of_view (Observed.foretells target.magnet) rfl agree
  have hsome := Observed.verdict_isSome target.magnet policy' (Observed.of client)
  rw [hverdict] at hrows' hreports'
  generalize (Probe.start target.magnet policy').verdict (Observed.of client) = verdict at *
  have number : ∀ {α β : Type} {l : List α} {g : α → β} {f : Verdict → β}, l.map g = (verdict.map f).toList →
      l.length = if client.crashes.contains target.magnet then 0 else 1 := by
    intro α β l g f hl
    rw [← List.length_map g, hl]
    cases verdict with
    | none => rw [if_pos (by simpa [Observed.of] using hsome)]; rfl
    | some v => rw [if_neg (by simpa [Observed.of] using hsome)]; rfl
  exact ⟨rows, rows', hstored, hstored', hrows'.trans hrows.symm, hreports'.trans hreports.symm, number hrows,
    (number hreports).trans (number hrows).symm⟩

end

/-! ## A target in two companies -/

/-- A record with an info-hash of forty equal digits. -/
def recordOf (digit : Char) : TargetRecord :=
  ⟨"", "Creative Commons", "magnet:?xt=urn:btih:" ++ String.ofList (List.replicate 40 digit)⟩

def quietSettings : Settings :=
  { Settings.standard with concurrency := 1, maxAttempts := 2, targets := [recordOf 'a', recordOf 'b'] }

/-- A client that finds some peers of the first target when it asks again. -/
def quietClient : ScriptedClient :=
  ⟨[((recordOf 'a').magnet, [.error (.unreachable "x"), .ok ⟨5, 2⟩])], .ok ⟨1, 1⟩, 0, [], []⟩

def quiet : Sampler (Observed ScriptedClient) (Nat × Unit) Store where
  plan := ⟨⟨2, .ofMillis 60000, .ofMillis 10000, .ofMillis 16000⟩, .all, .ofMillis 300000, 10⟩
  chance := .still
  drawn := 0
  now := 0
  source := quietSettings.catalog.source id
  client := .of quietClient
  store := .empty
  writer := .start quietSettings.writer
  pool := .full 1
  checks := []
  started := 0
  runs := []
  reports := []
  halted := false

def quietMoves : List (Move Store) :=
  [.run 0, .check 0, .clock 60000000000, .check 0, .work, .check 0, .run 0, .check 1, .work, .check 1, .run 0]

def busySettings : Settings :=
  { quietSettings with concurrency := 2, targets := [recordOf 'c', recordOf 'a'] }

/-- A client that breaks down at another target. -/
def busyClient : ScriptedClient := { quietClient with crashes := [(recordOf 'c').magnet] }

def busy : Sampler (Observed ScriptedClient) (Nat × Unit) Store :=
  { quiet with
    chance := { Chance.still with sampleId := fun n => toString (n + 10) }
    source := busySettings.catalog.source id
    client := .of busyClient
    pool := .full 2 }

def busyMoves : List (Move Store) :=
  [.run 0, .check 1, .check 0, .clock 60000000000, .check 1, .work, .check 1, .run 0]

/-- Checked alone and before another target, or beside one at which the client breaks down, a target gets
the same row. -/
theorem targets_isolated_busy :
    let view := Store.sampleView.toRowView
    let target := MonitoringTarget.ofRecord (recordOf 'a')
    ∃ row row',
      ((opened quiet).run view (.addRun false :: quietMoves)).sampler.store.samplesOf target.id = [row] ∧
      ((opened busy).run view (.addRun false :: busyMoves)).sampler.store.samplesOf target.id = [row'] ∧
      row'.unstamped = row.unstamped := by
  intro view target
  have opens : ofSettings quietSettings .still (quietSettings.catalog.source id) (Observed.of quietClient)
      Store.empty = .ok quiet := rfl
  have opens' : ofSettings busySettings busy.chance (busySettings.catalog.source id) (Observed.of busyClient)
      Store.empty = .ok busy := rfl
  have hquiet : let c := (opened quiet).run view (.addRun false :: quietMoves)
      c.Accepting ∧ (c.sampler.lastPass? 0).map (·.result) = some (.ok ⟨2, 0, 2, 0, 0, 0⟩) ∧
      c.listingsOf 0 0 = [(0, quietSettings.targets.map .ofRecord)] ∧
      target ∈ c.sampler.chosenOf 0 (quietSettings.targets.map .ofRecord) := by decide +kernel
  have hbusy : let c := (opened busy).run view (.addRun false :: busyMoves)
      c.Accepting ∧ (c.sampler.lastPass? 0).map (·.result) = some (.ok ⟨2, 0, 1, 0, 1, 0⟩) ∧
      c.listingsOf 0 0 = [(0, busySettings.targets.map .ofRecord)] ∧
      target ∈ c.sampler.chosenOf 0 (busySettings.targets.map .ofRecord) := by decide +kernel
  obtain ⟨accepting, summed, listing, chosen⟩ := hquiet
  obtain ⟨accepting', summed', listing', chosen'⟩ := hbusy
  have same : busyClient.prospect target.magnet = quietClient.prospect target.magnet := by decide +kernel
  obtain ⟨rows, rows', hrows, hrows', same, -, one, -⟩ := targets_isolated 2 busySettings.targets
    ⟨⟨_, _, quietMoves, opens, by decide, rfl⟩, accepting, _, summed⟩
    ⟨⟨_, _, busyMoves, opens', by decide, rfl⟩, accepting', _, summed'⟩
    (quietSettings.names_catalog nofun) (busySettings.names_catalog nofun) same
    ⟨_, _, listing, chosen⟩ ⟨_, _, listing', chosen'⟩
  obtain ⟨row, rfl⟩ := List.length_eq_one_iff.1 one
  obtain ⟨row', rfl, hsame⟩ := List.map_eq_singleton_iff.1 same
  exact ⟨row, row', hrows, hrows', hsame⟩

end Chronicle

end SwarmSampler
