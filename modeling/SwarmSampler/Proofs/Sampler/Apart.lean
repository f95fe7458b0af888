import SwarmSampler.Proofs.Client.Scripts
import SwarmSampler.Proofs.Sampler.Calm
import SwarmSampler.Proofs.Sampler.Trends

/-
A check among the others of its cycle, which no other check shares target or magnet
with. Its verdict is settled when the run begins: the others' turns leave alone what
the client has in store for its magnet and what the store holds of its target, its
own turns keep to the verdict, and the trend it finds is made from the history that
was there before the run.
-/

namespace SwarmSampler

open Sampler

/-! ## Trends and histories -/

namespace Store

variable {s s' : Store} {targetId : String}

theorem newestOk_of_samplesOf (same : s'.samplesOf targetId = s.samplesOf targetId) :
    s'.newestOk targetId = s.newestOk targetId := by
  have hrows : ∀ s : Store, (s.samples.filter fun r => r.targetId = targetId ∧ r.outcome = Outcome.ok.text) =
      (s.samplesOf targetId).filter (·.outcome = Outcome.ok.text) := fun s => by
    rw [samplesOf, List.filter_filter]
    exact congrArg (List.filter · _) (funext fun r => by simp only [Bool.decide_and, Bool.and_comm])
  rw [newestOk, newestOk, hrows, hrows, same]

/-- Whatever a store holds, the trend of a sample is a matter of the target's own rows and of what the
sample says, but not of when it was made. -/
theorem trendWith_of_samplesOf (depth : UInt64) {x y : HealthSample} (targetId : x.targetId = y.targetId)
    (outcome : x.outcome = y.outcome) (total : x.totalPeers = y.totalPeers)
    (same : s'.samplesOf y.targetId = s.samplesOf y.targetId) :
    trendWith depth x s' = trendWith depth y s := by
  have hlast : ∀ n, s'.lastOkSamples y.targetId n = s.lastOkSamples y.targetId n := fun n => by
    rw [lastOkSamples, lastOkSamples, newestOk_of_samplesOf same]
  simp only [trendWith, SampleStore.lastOk, targetId, outcome, hlast]
  by_cases ok : y.outcome = .ok
  · simp only [if_pos ok]
    cases s.lastOkSamples y.targetId ((if depth < 2 then 2 else depth) - 1) with
    | error => rfl
    | ok history => exact ofSamples_append_congr history outcome total
  · simp only [if_neg ok]

end Store

/-- A check finds what its turn settles. -/
theorem Sampler.resume_of_finding {κ τ σ : Type} [SwarmClient κ τ] [SampleStore σ] {s : Sampler κ τ σ}
    {t : CheckTask τ} {f : Finding} (found : s.finding? t = some f) :
    ∃ p client', t.stage = .probing p ∧
      p.resume s.now (s.checksHalted t.run) s.client = (.settled f.outcome, client') := by
  unfold finding? at found
  split at found
  · next p stage =>
    split at found
    · next turn =>
      cases found
      exact ⟨p, _, stage, Prod.ext turn rfl⟩
    · cases found
  · cases found

/-! ## What a life tells of rows and reports -/

theorem row?_questions {ρ : Type} (qs : List (Nat × String)) :
    (questions qs : List (CheckEvent ρ)).filterMap CheckEvent.row? = [] := by
  simp [questions, CheckEvent.row?]

theorem report?_questions {ρ : Type} (qs : List (Nat × String)) :
    (questions qs : List (CheckEvent ρ)).filterMap CheckEvent.report? = [] := by
  simp [questions, CheckEvent.report?]

namespace Life

variable {τ σ ρ : Type} [SampleStore σ] {view : RowView σ ρ} {id : Nat} {st : Standing τ}
  {events : List (CheckEvent ρ)}

/-- A row that was stored for a check is that of its finding. -/
theorem of_row (h : Life view id st events) {row : ρ} (stored : .stored row ∈ events) :
    ∃ (e : Errand) (f : Finding) (x : HealthSample), .started e ∈ events ∧ f.Of e.target ∧ f.StoredAs σ x ∧
      row = f.row view x := by
  cases h with
  | unborn => cases stored
  | probing | waiting | refused | failed | crashed => simp [questions] at stored
  | stored own taken | reported own taken =>
    obtain rfl : row = _ := by simpa [questions] using stored
    exact ⟨_, _, _, List.mem_cons_self, own, taken, rfl⟩

theorem of_published (h : Life view id st events) {report : CheckReport} (published : .published report ∈ events) :
    ∃ (e : Errand) (f : Finding) (x : HealthSample), .started e ∈ events ∧ report = f.report e.target x := by
  cases h with
  | unborn => cases published
  | probing | waiting | stored | refused | failed | crashed => simp [questions] at published
  | reported own taken =>
    obtain rfl : report = _ := by simpa [questions] using published
    exact ⟨_, _, _, List.mem_cons_self, rfl⟩

/-- A check that waits for the writer has settled. -/
theorem exists_settled (h : Life view id st events) {c : CheckTask τ} (task : st.task = some c)
    {metrics : MetricsReading} (stage : c.stage = .storing metrics) : ∃ f, .settled f ∈ events := by
  cases h with
  | unborn | reported | failed | crashed => cases task
  | probing p =>
    cases task
    cases stage
  | waiting | stored | refused => exact ⟨_, List.mem_append_right _ List.mem_cons_self⟩

/-- A check that is over and has not settled has broken its client down. -/
theorem crash_of_gone (h : Life view id st events) (some : events ≠ []) (gone : st.task = none)
    (unsettled : ∀ f, .settled f ∉ events) : ∃ run k, .ended run k .crashed ∈ events := by
  cases h with
  | unborn => exact absurd rfl some
  | probing | waiting | stored | refused => cases gone
  | reported | failed => exact absurd (List.mem_append_right _ List.mem_cons_self) (unsettled _)
  | crashed => exact ⟨_, _, List.mem_append_right _ List.mem_cons_self⟩

end Life

namespace Chronicle

/-! ## A check that is alone with its target -/

section

variable {κ τ σ ρ : Type} {target : MonitoringTarget} {id : Nat} {c c' : Chronicle κ τ σ ρ}

/-- A check is for a target, and no other is for its id or its magnet. -/
structure Sole (target : MonitoringTarget) (id : Nat) (c : Chronicle κ τ σ ρ) : Prop where
  own : ∀ e, .started e ∈ c.life id → e.target = target
  alone : ∀ i e, .started e ∈ c.life i → e.target.id = target.id ∨ e.target.magnet = target.magnet → i = id

theorem Sole.of_journal (h : c'.Sole target id) (hp : c.journal <+: c'.journal) : c.Sole target id where
  own e he := h.own e ((hp.filterMap _).subset he)
  alone i e he := h.alone i e ((hp.filterMap _).subset he)

/-- What the journal tells of a target it tells of its check. -/
theorem Sole.told {β : Type} {f : CheckEvent ρ → Option β} {g : Entry ρ → Option β} {key : β → String}
    (h : c.Sole target id) (same : ∀ i event, g (.check i event) = f event)
    (only : ∀ entry ∈ c.journal, (∃ i event, entry = .check i event) ∨ g entry = none)
    (keyed : ∀ {i event b}, event ∈ c.life i → f event = some b →
      ∃ e, .started e ∈ c.life i ∧ key b = e.target.id) :
    (c.journal.filterMap g).filter (key · = target.id) = (c.life id).filterMap f := by
  rw [life, List.filterMap_filterMap, List.filter_filterMap]
  refine List.filterMap_congr fun entry hentry => ?_
  obtain ⟨i, event, rfl⟩ | hnone := only entry hentry
  · rw [same]
    cases hf : f event with
    | none => by_cases hi : i = id <;> simp [Entry.of?, hi, hf]
    | some b =>
      obtain ⟨e, he, hkey⟩ := keyed (mem_life.2 hentry) hf
      by_cases hi : i = id
      · subst hi
        simp [Entry.of?, hf, hkey, h.own e he]
      · have hne : e.target.id ≠ target.id := fun heq => hi (h.alone i e he (.inl heq))
        simp [Entry.of?, hi, hkey, hne]
  · rw [hnone]
    cases entry with
    | listed | vain | foreign => rfl
    | check i event =>
      rw [same] at hnone
      by_cases hi : i = id <;> simp [Entry.of?, hi, hnone]

end

section

variable {κ τ : Type} {target : MonitoringTarget} {id : Nat} {before : List SampleRow}
  {c : Chronicle κ τ Store SampleRow}

/-- The store has gained of the target what its check has stored. -/
theorem Calm.samplesOf (h : Calm Store.sampleView before c) (sole : c.Sole target id) :
    c.sampler.store.samplesOf target.id =
      before.filter (·.targetId = target.id) ++ (c.life id).filterMap CheckEvent.row? := by
  have hrows : c.sampler.store.samples = before ++ c.journal.filterMap Entry.row? := h.right.rows
  rw [Store.samplesOf, hrows, List.filter_append]
  refine congrArg _ (sole.told (fun _ _ => rfl) (fun entry hentry => ?_) fun {i event row} hevent hrow => ?_)
  · cases entry with
    | check i event => exact .inl ⟨i, event, rfl⟩
    | listed | vain => exact .inr rfl
    | foreign row => exact absurd hentry (h.own row)
  · obtain rfl := CheckEvent.row?_eq_some.1 hrow
    obtain ⟨e, f, x, he, ⟨_, _, hsample⟩, ⟨store, store', taken⟩, rfl⟩ := (h.right.lives i).of_row hevent
    refine ⟨e, he, ?_⟩
    show x.targetId = e.target.id
    rw [Store.sampleView.asked taken, hsample]
    rfl

/-- The reports on the target are those of its check. -/
theorem Calm.reportsOf (h : Calm Store.sampleView before c) (sole : c.Sole target id) :
    c.sampler.reports.filter (·.targetId = target.id) = (c.life id).filterMap CheckEvent.report? := by
  rw [h.right.reports]
  refine sole.told (fun _ _ => rfl) (fun entry _ => ?_) fun {i event report} hevent hreport => ?_
  · cases entry with
    | check i event => exact .inl ⟨i, event, rfl⟩
    | listed | vain | foreign => exact .inr rfl
  · obtain rfl := CheckEvent.report?_eq_some.1 hreport
    obtain ⟨e, f, x, he, rfl⟩ := (h.right.lives i).of_published hevent
    exact ⟨e, he, rfl⟩

end

/-! ## The verdict of a check -/

variable {target : MonitoringTarget} {id : Nat} {plan : SamplingPlan} {store : Store} {verdict : Option Verdict}
  {c : Chronicle ScriptedClient Unit Store SampleRow} {m : Move Store}

/-- A check comes to a verdict, and takes the trend of its sample from the history in a store. -/
structure Awaits (target : MonitoringTarget) (id : Nat) (plan : SamplingPlan) (store : Store)
    (verdict : Option Verdict) (c : Chronicle ScriptedClient Unit Store SampleRow) : Prop where
  calm : Calm Store.sampleView store.samples c
  plan_eq : c.sampler.plan = plan
  unborn : c.life id = [] → (Probe.start target.magnet plan.policy).verdict c.sampler.client = verdict
  probing : ∀ t p, c.sampler.check? id = some t → t.stage = .probing p → p.verdict c.sampler.client = verdict
  settled : ∀ f, .settled f ∈ c.life id →
    verdict = some f.outcome.verdict ∧ f.metrics = trendWith plan.historyDepth f.sample store
  /-- A check that is over without having settled has no verdict. -/
  gone : c.life id ≠ [] → c.sampler.check? id = none → (∀ f, .settled f ∉ c.life id) → verdict = none

/-- A turn of another check leaves alone what the client has in store for the target's magnet. -/
theorem Calm.prospect_kept (h : Calm Store.sampleView store.samples c) (sole : c.Sole target id)
    (ordinary : m.isOrdinary = true) (other : m ≠ .check id) :
    (c.sampler.move m).client.prospect target.magnet = c.sampler.client.prospect target.magnet := by
  cases m with
  | run run =>
    obtain ⟨first, hran⟩ := (resumeRun_turn c.sampler run).ran
    exact congrArg (Observed.prospect · _) hran.client
  | check i =>
    have turned : ∀ {t : CheckTask (Nat × Unit)} {p : Probe (Nat × Unit)} {x client'},
        c.sampler.check? i = some t → t.stage = .probing p →
        p.resume c.sampler.now (c.sampler.checksHalted t.run) c.sampler.client = (x, client') →
        client'.prospect target.magnet = c.sampler.client.prospect target.magnet := by
      intro t p x client' task stage turn
      have hmagnet : target.magnet ≠ p.magnet := fun heq => by
        obtain ⟨e, rest, hlife, -, -, htarget⟩ := (h.right.lives i).started task
        have he : .started e ∈ c.life i := hlife ▸ List.mem_cons_self
        have hkeyed := (h.keyed i t p task stage).1
        rw [htarget] at hkeyed
        exact other (congrArg Move.check (sole.alone i e he (.inr (hkeyed.symm.trans heq.symm))))
      have := Observed.prospect_resume hmagnet c.sampler.now (c.sampler.checksHalted t.run) c.sampler.client
      rwa [turn] at this
    have ht := h.right.checkTurn i
    rw [move]
    generalize c.sampler.resumeCheck i = s' at ht ⊢
    cases ht with
    | absent | stands => rfl
    | waits task stage turn | settles task stage turn => exact turned task stage turn
    | ends task ending =>
      cases ending with
      | crashes stage turn => exact turned task stage turn
      | reports | fails => rfl
  | work | clock => rfl
  | cancel | cancelRun | addRun | relist | register | append => cases ordinary

/-- A check that has just been started is at its beginning. -/
theorem Right.fresh_task {before : List SampleRow} (h : Right Store.sampleView before c)
    (unknown : c.sampler.started ≤ id) (other : m ≠ .check id) {t : CheckTask (Nat × Unit)}
    (task : (c.sampler.move m).check? id = some t) :
    t.stage = .probing (.start t.target.magnet c.sampler.plan.policy) := by
  have hnone : c.sampler.check? id = none := by
    have hl := h.lives id
    rw [h.fresh id unknown] at hl
    exact congrArg Standing.task hl.eq_unborn
  have old : (c.sampler.move m).check? id ≠ c.sampler.check? id := fun hsame => by
    rw [hsame, hnone] at task
    cases task
  cases m with
  | run run =>
    obtain ⟨first, hran⟩ := (resumeRun_turn c.sampler run).ran
    have hstanding := congrArg Standing.task (hran.standing id)
    rw [hnone, Option.none_or, if_pos unknown] at hstanding
    obtain ⟨target, -, rfl⟩ := Option.map_eq_some_iff.1 (hstanding.symm.trans task)
    rfl
  | check i =>
    refine absurd (congrArg Standing.task ((h.checkTurn i).standing_other fun hi => other (by rw [hi]))) old
  | work | clock | cancel | cancelRun | addRun | relist | register | append => exact absurd rfl old

/-- Only a check's own turns settle or end it. -/
theorem brings_other (c : Chronicle ScriptedClient Unit Store SampleRow) (other : m ≠ .check id) :
    let events := (brings Store.sampleView c.sampler m).filterMap (Entry.of? id)
    (∀ f, .settled f ∉ events) ∧ ∀ run k result, .ended run k result ∉ events := by
  intro events
  obtain he | ⟨_, _, -, -, he⟩ | ⟨hm, -⟩ | ⟨_, _, _, -, -, -, he⟩ := brings_cases Store.sampleView c.sampler m id
  · simp [events, he]
  · simp [events, he]
  · exact absurd hm other
  · simp [events, he]

namespace Awaits

/-- When its run is added, a check awaits the verdict of its target's magnet, whatever number it will have. -/
theorem opened {s : Sampler (Observed ScriptedClient) (Nat × Unit) Store} (h : s.New)
    (target : MonitoringTarget) (id : Nat) :
    Awaits target id s.plan s.store ((Probe.start target.magnet s.plan.policy).verdict s.client)
      ((opened s).step Store.sampleView.toRowView (.addRun false)) where
  calm := calm_opened Store.sampleView h
  plan_eq := rfl
  unborn _ := rfl
  probing t p task := by
    rw [Chronicle.step, opened_sampler, move, addRun, check?, h.checks] at task
    cases task
  settled f hf := nomatch hf
  gone some := absurd rfl some

/-- What a turn of others leaves as it is. -/
theorem step_other (h : Awaits target id plan store verdict c) (ordinary : m.isOrdinary = true)
    (other : m ≠ .check id) (quiet : (c.step Store.sampleView.toRowView m).Accepting)
    (sole : (c.step Store.sampleView.toRowView m).Sole target id) :
    Awaits target id plan store verdict (c.step Store.sampleView.toRowView m) := by
  have hgrows : c.journal <+: (c.step Store.sampleView.toRowView m).journal := List.prefix_append ..
  have hseen := h.calm.prospect_kept (sole.of_journal hgrows) ordinary other
  have hcalm := h.calm.step ordinary quiet
  have hlife : (c.step Store.sampleView.toRowView m).life id = _ := life_step Store.sampleView c m
  obtain ⟨hsettled, hended⟩ := brings_other c other
  have hkept : ∀ {p : Probe (Nat × Unit)}, p.magnet = target.magnet →
      p.verdict (c.sampler.move m).client = p.verdict c.sampler.client := fun about =>
    Probe.verdict_of_view (Observed.foretells target.magnet) about hseen
  refine ⟨hcalm, ?_, fun hnil => ?_, fun t p task stage => ?_, fun f hf => ?_, fun some gone unsettled => ?_⟩
  · exact (h.calm.right.plan_kept m).trans h.plan_eq
  · rw [hlife, List.append_eq_nil_iff] at hnil
    exact (hkept rfl).trans (h.unborn hnil.1)
  · obtain ⟨e, rest, hstart, -, -, htarget⟩ := (hcalm.right.lives id).started task
    have hown : t.target = target := htarget.trans (sole.own e (hstart ▸ List.mem_cons_self))
    obtain ⟨about, policy⟩ := hcalm.keyed id t p task stage
    rw [hown] at about
    refine (hkept about).trans ?_
    by_cases hknown : id < c.sampler.started
    · exact h.probing t p ((h.calm.right.task_kept hknown other).symm.trans task) stage
    · have hunknown := Nat.not_lt.1 hknown
      have hstart := h.calm.right.fresh_task hunknown other task
      rw [stage, hown, h.plan_eq] at hstart
      cases hstart
      exact h.unborn (h.calm.right.fresh id hunknown)
  · rw [hlife] at hf
    exact h.settled f ((List.mem_append.1 hf).resolve_right (hsettled f))
  · -- A client that has broken down has done so before.
    obtain ⟨run, k, hcrash⟩ := (hcalm.right.lives id).crash_of_gone some gone unsettled
    rw [hlife] at hcrash unsettled
    have hcrash := (List.mem_append.1 hcrash).resolve_right (hended run k _)
    have hknown : id < c.sampler.started := Nat.lt_of_not_le fun hle => by
      rw [h.calm.right.fresh id hle] at hcrash
      cases hcrash
    exact h.gone (List.ne_nil_of_mem hcrash) ((h.calm.right.task_kept hknown other).symm.trans gone)
      fun f hf => unsettled f (List.mem_append_left _ hf)

/-- Its own turn keeps to the verdict. -/
theorem step_own (h : Awaits target id plan store verdict c)
    (quiet : (c.step Store.sampleView.toRowView (.check id)).Accepting)
    (sole : (c.step Store.sampleView.toRowView (.check id)).Sole target id) :
    Awaits target id plan store verdict (c.step Store.sampleView.toRowView (.check id)) := by
  have hgrows : c.journal <+: (c.step Store.sampleView.toRowView (.check id)).journal := List.prefix_append ..
  have hsole := sole.of_journal hgrows
  have hcalm := h.calm.step (m := .check id) rfl quiet
  have hlife : (c.step Store.sampleView.toRowView (.check id)).life id = _ :=
    life_step Store.sampleView c (.check id)
  have ht := h.calm.right.checkTurn id
  -- A turn of the check while it is probing.
  have turned : ∀ {t p x client'}, c.sampler.check? id = some t → t.stage = .probing p →
      p.resume c.sampler.now (c.sampler.checksHalted t.run) c.sampler.client = (x, client') →
      x.verdict client' = verdict := by
    intro t p x client' task stage turn
    obtain ⟨e, rest, hstart, -, -, htarget⟩ := (h.calm.right.lives id).started task
    have hown : t.target = target := htarget.trans (hsole.own e (hstart ▸ List.mem_cons_self))
    have about := (h.calm.keyed id t p task stage).1
    rw [hown] at about
    have hresume := Probe.verdict_resume (Observed.foretells target.magnet) about c.sampler.now c.sampler.client
    rw [h.calm.checks_unhalted] at turn
    rw [turn] at hresume
    exact hresume.trans (h.probing t p task stage)
  refine ⟨hcalm, ?_, fun hnil => ?_, ?_, fun f hf => ?_, ?_⟩
  · exact (h.calm.right.plan_kept _).trans h.plan_eq
  · rw [hlife, List.append_eq_nil_iff] at hnil
    have hl := h.calm.right.lives id
    rw [hnil.1] at hl
    have hnone : c.sampler.check? id = none := congrArg Standing.task hl.eq_unborn
    show (Probe.start target.magnet plan.policy).verdict (c.sampler.resumeCheck id).client = verdict
    rw [resumeCheck, hnone]
    exact h.unborn hnil.1
  · intro t p task stage
    have hstill : (c.sampler.resumeCheck id).check? id = some t := task
    show p.verdict (c.sampler.resumeCheck id).client = verdict
    generalize c.sampler.resumeCheck id = s' at ht hstill ⊢
    cases ht with
    | absent | stands => exact h.probing t p hstill stage
    | @waits t₀ p₀ p' client' task₀ stage₀ turn =>
      have hnow : some { t₀ with stage := .probing p' } = some t :=
        (check?_withStage_self (s := { c.sampler with client := client' }) task₀).symm.trans hstill
      cases hnow
      cases stage
      exact turned task₀ stage₀ turn
    | settles task₀ => exact absurd ⟨t, p, hstill, stage⟩ (check?_queued task₀)
    | ends task₀ => cases (check?_ended task₀).symm.trans hstill
  · rw [hlife] at hf
    rcases List.mem_append.1 hf with hf | hf
    · exact h.settled f hf
    · obtain ⟨t, task, found⟩ := settled_of_brings hf
      obtain ⟨p, client', stage, turn⟩ := resume_of_finding found
      obtain ⟨hid, -, hmetrics⟩ := trend_of_finding found
      obtain ⟨e, qs, hst, hprobing⟩ := (h.calm.right.lives id).of_probing task stage
      obtain rfl : t = e.task id (.probing p) := Option.some.inj (task.symm.trans (congrArg Standing.task hst))
      have hown : e.target = target := hsole.own e (hprobing ▸ List.mem_cons_self)
      -- The check has stored nothing yet.
      have hsame : c.sampler.store.samplesOf target.id = store.samplesOf target.id := by
        have hnone : (c.life id).filterMap CheckEvent.row? = [] := by
          rw [hprobing]
          exact row?_questions qs
        rw [h.calm.samplesOf hsole, hnone, List.append_nil]
        rfl
      refine ⟨(turned task stage turn).symm, hmetrics.trans ?_⟩
      rw [h.plan_eq]
      exact Store.trendWith_of_samplesOf _ rfl rfl rfl (by rw [hid.trans (congrArg _ hown), hsame])
  · intro some gone unsettled
    have hstill : (c.sampler.resumeCheck id).check? id = none := gone
    rw [hlife] at some unsettled
    have hno : ∀ f, .settled f ∉ c.life id := fun f hf => unsettled f (List.mem_append_left _ hf)
    have habsent : c.sampler.check? id = none → verdict = none := fun absent => by
      have hbrings : (brings Store.sampleView c.sampler (.check id)).filterMap (Entry.of? id) = [] := by
        refine (filterMap_check id id _).trans ?_
        rw [if_pos rfl, noteTurn, absent]
      rw [hbrings, List.append_nil] at some
      exact h.gone some absent hno
    generalize c.sampler.resumeCheck id = s' at ht hstill
    cases ht with
    | absent absent => exact habsent absent
    | stands task => cases task.symm.trans hstill
    | @waits t₀ p₀ p' client' task =>
      cases (check?_withStage_self (s := { c.sampler with client := client' }) task).symm.trans hstill
    | @settles t₀ p₀ o client' task =>
      have hnow := (congrArg Standing.task (standing_queued c.sampler client' t₀ o id)).symm.trans hstill
      rw [task] at hnow
      cases hnow
    | ends task ending =>
      cases ending with
      | crashes stage turn => exact (turned task stage turn).symm
      | reports stage | fails stage =>
        obtain ⟨f, hf⟩ := (h.calm.right.lives id).exists_settled task stage
        exact absurd hf (hno f)

/-- **A check keeps to its verdict**, whatever the turns of others and its own. -/
theorem step (h : Awaits target id plan store verdict c) (ordinary : m.isOrdinary = true)
    (quiet : (c.step Store.sampleView.toRowView m).Accepting)
    (sole : (c.step Store.sampleView.toRowView m).Sole target id) :
    Awaits target id plan store verdict (c.step Store.sampleView.toRowView m) := by
  by_cases own : m = .check id
  · subst own
    exact h.step_own quiet sole
  · exact h.step_other ordinary own quiet sole

theorem steps (ms : List (Move Store)) :
    ∀ {c : Chronicle ScriptedClient Unit Store SampleRow}, Awaits target id plan store verdict c →
      (∀ m ∈ ms, m.isOrdinary = true) → (c.run Store.sampleView.toRowView ms).Accepting →
      (c.run Store.sampleView.toRowView ms).Sole target id →
      Awaits target id plan store verdict (c.run Store.sampleView.toRowView ms) := by
  induction ms with
  | nil => exact fun h _ _ _ => h
  | cons m ms ih =>
    intro c h ordinary quiet sole
    have hstep := h.step (ordinary m List.mem_cons_self) (quiet.earlier ms) (sole.of_journal (journal_grows ms))
    exact ih hstep (fun m hm => ordinary m (List.mem_cons_of_mem _ hm)) quiet sole

end Awaits

end Chronicle

end SwarmSampler
