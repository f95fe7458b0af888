import SwarmSampler.Proofs.Sampler.CycleBooks
import SwarmSampler.Proofs.Sampler.Winding

/-
A run that is cancelled, by itself or with all others, while its checks are on
their way. None of them asks anything more and no further check is started. Each
that was started keeps its row: with its own result if it had settled by then,
and otherwise with the error of a cancelled check. The run ends when all of them
are over, and after its end nothing more is told of them.
-/

namespace SwarmSampler

/-- A sample that carries what a check of a target has come to. -/
structure HealthSample.Carries (x : HealthSample) (target : MonitoringTarget) (o : CheckOutcome) : Prop where
  targetId : x.targetId = target.id
  outcome : x.outcome = o.outcome
  counts : x.counts = o.counts
  attempts : x.attempts = o.attempts
  reason : x.reason = o.reason

/-- What was stored of a check's sample carries what the check has come to. -/
theorem Finding.Of.carries {f : Finding} {target : MonitoringTarget} (own : f.Of target) {x : HealthSample}
    (same : x = { f.sample with timestamp := x.timestamp }) : x.Carries target f.outcome := by
  obtain ⟨id, at', hs⟩ := own
  rw [same, hs]
  exact ⟨rfl, rfl, rfl, rfl, rfl⟩

/-- What a cancelled check comes to. -/
structure CheckOutcome.Cut (o : CheckOutcome) : Prop where
  outcome : o.outcome = .error
  counts : o.counts = .none
  reason : o.reason = some "cancelled"

/-- What a check has come to that was started before its run was cancelled, by what had happened to it
until then. It has one row, and then one report of it. The row carries the check's own result if that was
settled, and the error of a cancelled check otherwise. -/
inductive Wound {σ ρ : Type} [SampleStore σ] (view : SampleView σ ρ) (e : Errand)
    (earlier : List (CheckEvent ρ)) : List (CheckEvent ρ) → Prop
  | written {qs : List (Nat × String)} {f : Finding} {row : ρ} {report : CheckReport} {x : HealthSample}
      (stored : view.read row = some x) (carries : x.Carries e.target f.outcome)
      (tells : report.Tells e.target x)
      (own : (∃ g, .settled g ∈ earlier) → .settled f ∈ earlier)
      (cut : (∀ g, .settled g ∉ earlier) → f.outcome.Cut) :
      Wound view e earlier (.started e :: questions qs ++ [.settled f, .stored row, .published report,
        .ended e.run e.pass (.reported report)])

/-- A check's row is for its own target. -/
theorem Life.row_target {τ σ ρ : Type} [SampleStore σ] {view : SampleView σ ρ} {id : Nat} {st : Standing τ}
    {events : List (CheckEvent ρ)}
    (h : Life view.toRowView id st events) {e : Errand} (he : .started e ∈ events) {row : ρ}
    (stored : .stored row ∈ events) {x : HealthSample} (reads : view.read row = some x) :
    x.targetId = e.target.id := by
  have target : ∀ {f : Finding} {t : MonitoringTarget} {y : HealthSample}, f.Of t → f.StoredAs σ y →
      row = f.row view.toRowView y → x.targetId = t.id := by
    rintro f t y own ⟨store, store', htaken⟩ rfl
    have hxy : y = x := Option.some.inj ((view.read_row htaken).symm.trans reads)
    exact hxy ▸ (own.carries (view.asked htaken)).targetId
  obtain ⟨rest, hrest⟩ := h.cons_of_started he
  cases h with
  | unborn => cases he
  | probing | waiting | refused | failed | crashed => simp [questions] at stored
  | stored own taken =>
    cases hrest
    exact target own taken (by simpa [questions] using stored)
  | reported own taken =>
    cases hrest
    exact target own taken (by simpa [questions] using stored)

namespace Entry

variable {ρ : Type}

instance decidableVain : (e : Entry ρ) → Decidable (e = .vain)
  | .vain => isTrue rfl
  | .listed .. => isFalse nofun
  | .check .. => isFalse nofun
  | .foreign _ => isFalse nofun

/-- The run for whose check the client has broken down. -/
def crash? : Entry ρ → Option Nat
  | check _ (.ended run _ .crashed) => some run
  | _ => none

end Entry

namespace Chronicle

open Sampler

variable {κ τ σ ρ : Type}

/-- The client has not broken down for any check of a run. -/
def Unbroken (c : Chronicle κ τ σ ρ) (run : Nat) : Prop := ∀ e ∈ c.journal, e.crash? ≠ some run

instance decidableAccepting (c : Chronicle κ τ σ ρ) : Decidable c.Accepting :=
  inferInstanceAs (Decidable (∀ e ∈ c.journal, e ≠ .vain))

instance decidableUnbroken (c : Chronicle κ τ σ ρ) (run : Nat) : Decidable (c.Unbroken run) :=
  inferInstanceAs (Decidable (∀ e ∈ c.journal, e.crash? ≠ some run))

variable [SwarmClient κ τ] [SampleStore σ] {view : SampleView σ ρ} {before : List ρ}
  {c : Chronicle κ τ σ ρ} {run id : Nat}

/-! ## What a cancelled check does -/

/-- A check settles in a turn of its own. -/
theorem settled_of_brings {s : Sampler (Observed κ) (Nat × τ) σ} {m : Move σ} {f : Finding}
    (h : .settled f ∈ (brings view s m).filterMap (Entry.of? id)) :
    ∃ t, s.check? id = some t ∧ s.finding? t = some f := by
  obtain he | ⟨_, _, -, -, he⟩ | ⟨-, he⟩ | ⟨_, _, _, -, -, -, he⟩ := brings_cases view s m id
  · rw [he] at h
    cases h
  · rw [he] at h
    cases List.mem_singleton.1 h
  · rw [he] at h
    unfold noteTurn at h
    split at h
    · next t task =>
      refine ⟨t, task, ?_⟩
      rw [noteCheck] at h
      generalize (s.resumeCheck id).reports.drop s.reports.length = reports at h
      generalize ((s.resumeCheck id).arrived t.run).drop (s.arrived t.run).length = results at h
      simpa [questions, eq_comm] using h
    · cases h
  · rw [he] at h
    cases List.mem_singleton.1 h

/-- What a cancelled check finds is that it is cancelled. -/
theorem cut_of_finding {s : Sampler (Observed κ) (Nat × τ) σ} {t : CheckTask (Nat × τ)} {f : Finding}
    (halted : s.checksHalted t.run = true) (h : s.finding? t = some f) : f.outcome.Cut := by
  unfold finding? at h
  split at h
  · next p _ =>
    obtain ⟨o, ho, houtcome, hcounts, hreason, -⟩ := Probe.resume_cancelled s.now p s.client
    rw [halted, ho] at h
    cases h
    exact ⟨houtcome, hcounts, hreason⟩
  · cases h

/-- Nothing more is told of a check that is over. -/
theorem Right.life_kept (h : Right view before c) (known : id < c.sampler.started)
    (gone : c.sampler.check? id = none) (m : Move σ) : (c.step view.toRowView m).life id = c.life id := by
  rw [life_step]
  refine (congrArg _ ?_).trans (List.append_nil _)
  obtain he | ⟨_, _, -, hle, -⟩ | ⟨-, he⟩ | ⟨r, rest, row, -, hline, hr, -⟩ := brings_cases view c.sampler m id
  · exact he
  · exact absurd known (Nat.not_lt.2 hle)
  · rw [he, noteTurn, gone]
  · -- A check that is over has no request in the line.
    subst hr
    cases ((h.lives r.ticket).over_requests gone).symm.trans (requests_of_line hline)

namespace Leaving

theorem steps (ms : List (Move σ)) (h : Leaving view before run id c) :
    Leaving view before run id (c.run view.toRowView ms) :=
  run_keeps (P := Leaving view before run id) (fun m h => h.step m) ms h

theorem asks_nothing (ms : List (Move σ)) (h : Leaving view before run id c) :
    (c.run view.toRowView ms).questionsOf id = c.questionsOf id :=
  run_same (P := Leaving view before run id) (f := fun c => c.questionsOf id) (fun m h => h.step m)
    (fun _ h => h.right.asks_none fun _ => h.cancelled) ms h

/-- It had settled before, or is cut. -/
theorem settled {f : Finding} (ms : List (Move σ)) : ∀ {c : Chronicle κ τ σ ρ}, Leaving view before run id c →
    .settled f ∈ (c.run view.toRowView ms).life id → .settled f ∈ c.life id ∨ f.outcome.Cut := by
  induction ms with
  | nil => exact fun _ hf => .inl hf
  | cons m ms ih =>
    intro c h hf
    obtain hf | cut := ih (h.step m) hf
    · rw [life_step] at hf
      rcases List.mem_append.1 hf with hf | hf
      · exact .inl hf
      · obtain ⟨t, task, found⟩ := settled_of_brings hf
        exact .inr (cut_of_finding (h.cancelled task) found)
    · exact .inr cut

end Leaving

/-- A check that is over and was neither refused nor broken down has a row. -/
theorem Leaving.wound {k : Nat} {target : MonitoringTarget} {ms : List (Move σ)}
    (h : Leaving view before run id c) (started : .started ⟨run, k, target⟩ ∈ c.life id)
    (unrefused : (c.run view.toRowView ms).sampler.writer.Unrefused)
    (unbroken : (c.run view.toRowView ms).Unbroken run)
    (gone : (c.run view.toRowView ms).sampler.check? id = none) :
    Wound view ⟨run, k, target⟩ (c.life id) ((c.run view.toRowView ms).life id) := by
  have hgrows : c.life id <+: (c.run view.toRowView ms).life id := (journal_grows ms).filterMap _
  have hsettled := fun f => h.settled (f := f) ms
  have hfate := ((h.steps ms).right.lives id).fate gone (hgrows.subset started)
  have hok : ∀ a ∈ ((c.run view.toRowView ms).sampler.standing id).answers, ∃ x, a = .ok x := by
    intro a ha
    obtain ⟨b, hb, rfl⟩ := List.mem_map.1 ha
    exact unrefused.answers b (List.mem_filter.1 hb).1
  have hcrash : .ended run k .crashed ∉ (c.run view.toRowView ms).life id := fun hm =>
    unbroken _ (mem_life.1 hm) rfl
  generalize (c.run view.toRowView ms).life id = events at hgrows hsettled hfate hcrash
  generalize ((c.run view.toRowView ms).sampler.standing id).answers = answers at hfate hok
  cases hfate with
  | @reported qs f row report x own same stored tells =>
    have hone : ∀ g, .settled g ∈ c.life id → g = f := fun g hg => by
      simpa [questions] using hgrows.subset hg
    have hown : (∃ g, .settled g ∈ c.life id) → .settled f ∈ c.life id := by
      rintro ⟨g, hg⟩
      exact hone g hg ▸ hg
    exact .written stored (own.carries same) tells hown
      fun hnone => (hsettled f (by simp)).resolve_left (hnone f)
  | refused =>
    obtain ⟨x, hx⟩ := hok _ (List.mem_singleton_self _)
    cases hx
  | crashed => exact absurd (by simp) hcrash

/-! ## What a cancelled run does -/

namespace Cancelled

omit [SwarmClient κ τ] in
theorem leaving (h : Cancelled view before run c) {k : Nat} {target : MonitoringTarget}
    (started : (id, target) ∈ c.startedIn run k) : Leaving view before run id c :=
  ⟨h.right, h.halted, k, target, mem_startedIn.1 started⟩

theorem starts_none (ms : List (Move σ)) (k : Nat) (h : Cancelled view before run c) :
    (c.run view.toRowView ms).startedIn run k = c.startedIn run k :=
  run_same (P := Cancelled view before run) (f := fun c => c.startedIn run k) (fun m h => h.step m)
    (fun m h => Chronicle.starts_none view (fun _ => checksHalted_of_run h.halted) m) ms h

omit [SwarmClient κ τ] in
/-- When it is over, so are its checks. -/
theorem checks_over (h : Cancelled view before run c) (returned : c.sampler.Returned run) {k : Nat}
    {target : MonitoringTarget} (started : (id, target) ∈ c.startedIn run k) : c.sampler.check? id = none := by
  cases task : c.sampler.check? id with
  | none => rfl
  | some t =>
    have hsome := h.right.balanced.cycle?_isSome (mem_of_check? task).1
    rw [(h.right.task_of_started (mem_startedIn.1 started) task).1, returned.idle] at hsome
    cases hsome

/-- When it is over, nothing more is told of its checks. -/
theorem life_kept (ms : List (Move σ)) {k : Nat} {target : MonitoringTarget} (h : Cancelled view before run c)
    (returned : c.sampler.Returned run) (started : (id, target) ∈ c.startedIn run k) :
    (c.run view.toRowView ms).life id = c.life id :=
  run_same (f := fun c => c.life id)
    (P := fun c => Cancelled view before run c ∧ c.sampler.Returned run ∧ (id, target) ∈ c.startedIn run k)
    (fun m ⟨h, returned, started⟩ =>
      ⟨h.step m, h.right.returned_kept returned m, (h.starts_none [m] k).symm ▸ started⟩)
    (fun m ⟨h, returned, started⟩ =>
      h.right.life_kept (h.leaving started).known (h.checks_over returned started) m) ms ⟨h, returned, started⟩

end Cancelled

omit [SwarmClient κ τ] [SampleStore σ] in
/-- A cycle starts checks for targets that are chosen of those it was given. -/
theorem Tallied.chosen (ht : c.Tallied) {k draw : Nat} {targets : List MonitoringTarget}
    (listed : (draw, targets) ∈ c.listingsOf run k) :
    c.targetsIn run k <+: c.sampler.chosenOf draw targets := by
  have agrees : ∀ {counted : List CheckResult} {cycle : Cycle}, c.Agrees run k counted cycle →
      c.targetsIn run k <+: c.sampler.chosenOf draw targets := by
    rintro counted cycle ⟨draw', targets', hlisting, htally⟩
    rw [hlisting, List.mem_singleton, Prod.mk.injEq] at listed
    obtain ⟨rfl, rfl⟩ := listed
    exact htally.split.elim (fun hs => hs ▸ List.prefix_append ..) (·.2.1)
  rcases Nat.lt_or_ge k (c.sampler.passNo run) with hk | hk
  · have hclosed := ht.past (List.getElem?_eq_getElem hk)
    generalize (c.sampler.passes run)[k].result = result at hclosed
    cases hclosed with
    | barren started =>
      rw [targetsIn, started]
      exact List.nil_prefix
    | counted ha => exact agrees ha
  · by_cases present : k = c.sampler.passNo run ∧ (c.sampler.cycle? run).isSome = true
    · obtain ⟨rfl, hsome⟩ := present
      obtain ⟨cycle, hcycle⟩ := Option.isSome_iff_exists.1 hsome
      obtain ⟨counted, ha⟩ := ht.present hcycle
      exact agrees ha
    · have hidle : k = c.sampler.passNo run → c.sampler.cycle? run = none := fun heq =>
        Option.not_isSome_iff_eq_none.1 fun hsome => present ⟨heq, hsome⟩
      have hnone := (ht.future hk hidle).1
      rw [hnone] at listed
      cases listed

omit [SwarmClient κ τ] in
/-- No row of a cycle is for a chosen target whose check the cycle has not started. -/
theorem Right.skipped (h : Right view before c) (ht : c.Tallied) {k draw : Nat}
    {targets : List MonitoringTarget}
    (listed : (draw, targets) ∈ c.listingsOf run k) {target : MonitoringTarget}
    (chosen : target ∈ c.sampler.chosenOf draw targets) (unstarted : target ∉ c.targetsIn run k)
    {p : Nat × MonitoringTarget} (started : p ∈ c.startedIn run k) {row : ρ} (stored : .stored row ∈ c.life p.1)
    {x : HealthSample} (reads : view.read row = some x) : x.targetId ≠ target.id := by
  intro heq
  have hmem : p.2 ∈ c.targetsIn run k := List.mem_map.2 ⟨p, started, rfl⟩
  have hown : x.targetId = p.2.id := (h.lives p.1).row_target (mem_startedIn.1 started) stored reads
  obtain ⟨hdistinct, -, -⟩ :=
    c.sampler.plan.selection.choose_eligible (c.sampler.chance.shuffle_perm draw) targets
  have hsame : p.2 = target :=
    List.inj_on_of_nodup_map hdistinct ((ht.chosen listed).subset hmem) chosen (hown.symm.trans heq)
  exact unstarted (hsame ▸ hmem)

/-- What is so after a run has been cancelled. -/
structure Stopped (view : SampleView σ ρ) (before : List ρ) (run : Nat) (c c' : Chronicle κ τ σ ρ) : Prop where
  kept : Kept view before c'
  queries : c'.sampler.client.queries = c'.journal.filterMap Entry.question?
  /-- No check is started, and none asks anything. -/
  starts : ∀ k, c'.startedIn run k = c.startedIn run k
  asks : ∀ k, ∀ p ∈ c.startedIn run k, c'.questionsOf p.1 = c.questionsOf p.1
  /-- No row is for a chosen target whose check was not started. -/
  skipped : ∀ k draw targets, (draw, targets) ∈ c'.listingsOf run k →
    ∀ target ∈ c'.sampler.chosenOf draw targets, target ∉ c.targetsIn run k →
      ∀ p ∈ c'.startedIn run k, ∀ row, .stored row ∈ c'.life p.1 →
        ∀ x, view.read row = some x → x.targetId ≠ target.id
  /-- Once the run is over, each of its checks has its row. -/
  wound : c'.sampler.Returned run → ∀ k, ∀ p ∈ c.startedIn run k,
    Wound view ⟨run, k, p.2⟩ (c.life p.1) (c'.life p.1)
  /-- Once the run is over, nothing more is told of it. -/
  silent : c'.sampler.Returned run → ∀ more k,
    (c'.run view.toRowView more).startedIn run k = c'.startedIn run k ∧
      ∀ p ∈ c'.startedIn run k, (c'.run view.toRowView more).life p.1 = c'.life p.1

/-- **A cancelled run stops gracefully.** Whenever a run is cancelled, by itself or with all others: no
check of it is started any more and none asks anything; each check that was started has one row, with its
own result if that had settled and with the error of a cancelled check otherwise, and chosen targets whose
checks were not started have none; and once the run is over, nothing more comes from it. It is over after
four rounds of turns at the latest. The store has to take what it is given, and the client must not break
down. -/
theorem graceful_stop (view : SampleView σ ρ) {settings : Settings} {chance : Chance} {source : TargetSource σ}
    {client : κ} {store : σ} {s : Sampler (Observed κ) (Nat × τ) σ}
    (opens : ofSettings settings chance source (Observed.of client) store = .ok s) (ms : List (Move σ))
    {stop : Move σ} (cancels : stop = .cancel ∨ stop = .cancelRun run)
    (known : run < ((opened s).run view.toRowView ms : Chronicle κ τ σ ρ).sampler.runs.length)
    (later : List (Move σ)) :
    let c := (opened s).run view.toRowView ms
    let c' := (c.step view.toRowView stop).run view.toRowView later
    c'.Accepting → c'.Unbroken run →
      Stopped view (view.rows s.store) run c c' ∧
        (Rounds run 4 (c.step view.toRowView stop).sampler later → c'.sampler.Returned run) := by
  intro c c' accepting unbroken
  have hnew := new_of_ofSettings opens
  have hright : Right view (view.rows s.store) c := (right_opened view hnew).run ms
  have hhalted : (c.step view.toRowView stop).sampler.runHalted run = true :=
    (hright.runHalted stop run).2 (.inr (cancels.imp_right fun hs => ⟨hs, known⟩))
  have hc : Cancelled view (view.rows s.store) run (c.step view.toRowView stop) :=
    ⟨hright.step stop, hhalted, hright.known_kept known stop⟩
  have hc' : Cancelled view (view.rows s.store) run c' := hc.steps later
  have htallied : c'.Tallied :=
    (((tallied_opened hnew).steps ms (right_opened view hnew)).step hright stop).steps later hc.right
  have hquiet := accepting.earlier later
  have hunrefused : (c.step view.toRowView stop).sampler.writer.Unrefused :=
    hright.unrefused_step ((right_opened view hnew).unrefused ms hnew.unrefused (hquiet.earlier [stop]))
      stop hquiet
  -- The cancellation itself tells nothing.
  have hjournal : (c.step view.toRowView stop).journal = c.journal := by
    obtain rfl | rfl := cancels <;> exact List.append_nil _
  have hstarted : ∀ k, (c.step view.toRowView stop).startedIn run k = c.startedIn run k := fun k => by
    rw [startedIn, hjournal, startedIn]
  have hlife : ∀ id, (c.step view.toRowView stop).life id = c.life id := fun id => by rw [life, hjournal, life]
  have hleaving : ∀ {k p}, p ∈ c.startedIn run k →
      Leaving view (view.rows s.store) run p.1 (c.step view.toRowView stop) := fun {k p} hp =>
    hc.leaving (hstarted k ▸ hp)
  have hstarts : ∀ k, c'.startedIn run k = c.startedIn run k := fun k =>
    (hc.starts_none later k).trans (hstarted k)
  refine ⟨⟨hc'.right.kept, hc'.right.queries, hstarts, fun k p hp => ?_,
    fun k draw targets hl target ht hn p hp row hr x hx => ?_, fun hover k p hp => ?_,
    fun hover more k => ⟨?_, fun p hp => ?_⟩⟩, fun rounds => ?_⟩
  · have hasked := (hleaving hp).asks_nothing later
    rw [questionsOf, questionsOf, hlife] at hasked
    exact hasked
  · refine hc'.right.skipped htallied hl ht ?_ hp hr hx
    rw [targetsIn, hstarts]
    exact hn
  · have hstart : CheckEvent.started ⟨run, k, p.2⟩ ∈ (c.step view.toRowView stop).life p.1 :=
      (hlife p.1).symm ▸ mem_startedIn.1 hp
    have hwound := (hleaving hp).wound hstart (hc.right.unrefused later hunrefused accepting) unbroken
      (hc'.checks_over hover (hstarts k ▸ hp))
    rwa [hlife] at hwound
  · exact hc'.starts_none more k
  · exact hc'.life_kept more hover hp
  · exact hc.returns hunrefused rounds accepting

/-! ## A run that is cancelled while it checks -/

def stoppedSettings : Settings := { Settings.standard with concurrency := 2 }

def stoppedTargets : List MonitoringTarget :=
  [⟨"a", "", "", "A", true⟩, ⟨"b", "", "", "B", true⟩, ⟨"c", "", "", "C", true⟩]

/-- A sampler that checks two targets at a time, with a client that takes a second for each answer. -/
def stopped : Sampler (Observed ScriptedClient) (Nat × Unit) FaultyStore where
  plan := ⟨⟨3, .ofMillis 60000, .ofMillis 10000, .ofMillis 16000⟩, .all, .ofMillis 300000, 10⟩
  chance := .still
  drawn := 0
  now := 0
  source := .ofList stoppedTargets
  client := .of ⟨[], .ok ⟨2, 1⟩, 1000000000, [], []⟩
  store := ⟨⟨[], none, false, false⟩, 0, []⟩
  writer := .start stoppedSettings.writer
  pool := .full 2
  checks := []
  started := 0
  runs := []
  reports := []
  halted := false

/-- Two checks have been started, and the first of them has settled. -/
def stoppedMoves : List (Move FaultyStore) :=
  [.addRun true, .run 0, .check 0, .check 1, .clock 1000000000, .check 0]

/-- The run is cancelled then. The first check keeps its result, the second is cut, and the third target
is not checked. -/
theorem graceful_stop_halfway :
    let c := (opened stopped).run FaultyStore.sampleView.toRowView stoppedMoves
    let c₁ := c.step FaultyStore.sampleView.toRowView (.cancelRun 0)
    let c' := c₁.run FaultyStore.sampleView.toRowView (roundsOf 0 4 c₁.sampler)
    (c.startedIn 0 0).map (·.1) = [0, 1] ∧ Stopped FaultyStore.sampleView [] 0 c c' ∧ c'.sampler.Returned 0 ∧
      c'.sampler.store.rows.map (fun x => (x.targetId, x.outcome, x.reason)) =
        [("a", .ok, none), ("b", .error, some "cancelled")] := by
  intro c c₁ c'
  have opens : ofSettings stoppedSettings .still (.ofList stoppedTargets)
      (Observed.of (⟨[], .ok ⟨2, 1⟩, 1000000000, [], []⟩ : ScriptedClient)) stopped.store = .ok stopped := rfl
  have known : 0 < c.sampler.runs.length := by decide +kernel
  have accepting : c'.Accepting := by decide +kernel
  have unbroken : c'.Unbroken 0 := by decide +kernel
  obtain ⟨hstopped, hreturned⟩ := graceful_stop FaultyStore.sampleView opens stoppedMoves (.inr rfl) known
    (roundsOf 0 4 c₁.sampler) accepting unbroken
  refine ⟨by decide +kernel, hstopped, hreturned (roundsOf_rounds 0 4 c₁.sampler), by decide +kernel⟩

end Chronicle

end SwarmSampler
