import SwarmSampler.Sampler.Task

/-
What the turns of a sampler's tasks do, said once. A check's turn lets it wait
on, hands its sample to the writer, or ends it; a run's turn ends it, begins a
cycle or goes on with one, which starts checks for the first of the targets
that are left. Whatever is said of a sampler that moves follows from these.
-/

namespace SwarmSampler.Sampler

variable {κ τ σ : Type} {s : Sampler κ τ σ} {id : Nat} {c : CheckTask τ}

theorem mem_of_check? (h : s.check? id = some c) : c ∈ s.checks ∧ c.id = id :=
  ⟨List.mem_of_find?_eq_some h, by simpa using List.find?_some h⟩

/-! ## Checks -/

/-- The request for the sample of a settled check. -/
def requestOf [SampleStore σ] (s : Sampler κ τ σ) (c : CheckTask τ) (o : CheckOutcome) :
    AppendRequest :=
  let sample := s.sampleOf c.target o
  ⟨c.id, sample, trendToStore sample (trendWith s.plan.historyDepth sample s.store)⟩

/-- The sampler with the sample of a settled check in the writer's queue. -/
def queued [SampleStore σ] (s : Sampler κ τ σ) (client : κ) (c : CheckTask τ) (o : CheckOutcome) :
    Sampler κ τ σ :=
  { s with
    client := client
    drawn := s.drawn + 1
    writer := { s.writer with pending := s.writer.pending ++ [s.requestOf c o] } }.withStage c.id
    (.storing (trendWith s.plan.historyDepth (s.sampleOf c.target o) s.store))

/-- The sampler without a check that is over. -/
def ended (s : Sampler κ τ σ) (client : κ) (c : CheckTask τ) (new : List CheckReport)
    (result : CheckResult) : Sampler κ τ σ :=
  { s with client := client, reports := s.reports ++ new }.endCheck c result

/-- How a check may end: with a client, with new reports, and with a result. -/
inductive Ending [SwarmClient κ τ] (s : Sampler κ τ σ) (c : CheckTask τ) :
    κ → List CheckReport → CheckResult → Prop
  | crashes {p : Probe τ} {client' : κ} (stage : c.stage = .probing p)
      (turn : p.resume s.now (s.checksHalted c.run) s.client = (.crashed, client')) :
      Ending s c client' [] .crashed
  | reports {metrics : MetricsReading} {stored : HealthSample} (stage : c.stage = .storing metrics)
      (answer : s.writer.answer? c.id = some (.ok stored)) :
      Ending s c s.client [.ofSample c.target metrics stored] (.reported (.ofSample c.target metrics stored))
  | fails {metrics : MetricsReading} {f : Failure} (stage : c.stage = .storing metrics)
      (answer : s.writer.answer? c.id = some (.error f)) : Ending s c s.client [] (.failed f)

/-- What a check's turn comes to. -/
inductive CheckTurn [SwarmClient κ τ] [SampleStore σ] (s : Sampler κ τ σ) (id : Nat) :
    Sampler κ τ σ → Prop
  | absent (gone : s.check? id = none) : CheckTurn s id s
  /-- The writer has not answered. -/
  | stands {c : CheckTask τ} {metrics : MetricsReading} (task : s.check? id = some c)
      (stage : c.stage = .storing metrics) (answer : s.writer.answer? id = none) : CheckTurn s id s
  | waits {c : CheckTask τ} {p p' : Probe τ} {client' : κ} (task : s.check? id = some c)
      (stage : c.stage = .probing p)
      (turn : p.resume s.now (s.checksHalted c.run) s.client = (.waiting p', client')) :
      CheckTurn s id ({ s with client := client' }.withStage id (.probing p'))
  | settles {c : CheckTask τ} {p : Probe τ} {o : CheckOutcome} {client' : κ}
      (task : s.check? id = some c) (stage : c.stage = .probing p)
      (turn : p.resume s.now (s.checksHalted c.run) s.client = (.settled o, client')) :
      CheckTurn s id (s.queued client' c o)
  | ends {c : CheckTask τ} {client' : κ} {new : List CheckReport} {result : CheckResult}
      (task : s.check? id = some c) (ending : Ending s c client' new result) :
      CheckTurn s id (s.ended client' c new result)

/-- A settled check whose number has no answer waits for one. -/
theorem submit_eq [SampleStore σ] (hs : s.writer.stopped = false)
    (ha : s.writer.answer? c.id = none) (client : κ) (o : CheckOutcome) :
    { s with client := client }.submit c o = s.queued client c o := by
  have hsend : ∀ r, s.writer.send r = { s.writer with pending := s.writer.pending ++ [r] } :=
    fun r => if_neg (by rw [hs]; exact Bool.false_ne_true)
  have ha' : ∀ pending, Writer.answer? { s.writer with pending := pending } c.id = none := fun _ => ha
  simp only [submit, collect, withStage, hsend, ha']
  rfl

theorem endCheck_eq (s : Sampler κ τ σ) (client : κ) (c : CheckTask τ) (result : CheckResult) :
    { s with client := client }.endCheck c result = s.ended client c [] result := by
  rw [ended, List.append_nil]

/-- A check's turn comes to one of these, unless the number of a probing check has an answer. -/
theorem resumeCheck_turn [SwarmClient κ τ] [SampleStore σ] (hs : s.writer.stopped = false)
    (ha : ∀ c p, s.check? id = some c → c.stage = .probing p → s.writer.answer? id = none) :
    CheckTurn s id (s.resumeCheck id) := by
  unfold resumeCheck
  split
  · next h => exact .absent h
  · next c hc =>
    obtain rfl := (mem_of_check? hc).2
    split
    · next metrics hm =>
      unfold collect
      split
      · next h => exact .stands hc hm h
      · next stored h => exact .ends hc (.reports hm h)
      · next f h =>
        have he := endCheck_eq s s.client c (.failed f)
        exact he ▸ .ends hc (.fails hm h)
    · next p hp =>
      split
      · next h => exact .waits hc hp h
      · next o client' h =>
        rw [submit_eq hs (ha c p hc hp)]
        exact .settles hc hp h
      · next h =>
        rw [endCheck_eq]
        exact .ends hc (.crashes hp h)

/-! ## Runs -/

/-- The tasks of checks that are started one after another. -/
def newTasks (run first : Nat) (policy : RetryPolicy) : List MonitoringTarget → List (CheckTask τ)
  | [] => []
  | t :: ts => ⟨first, run, t, .probing (.start t.magnet policy)⟩ :: newTasks run (first + 1) policy ts

/-- The sampler with some checks started, and with some pool. -/
def begun (s : Sampler κ τ σ) (run : Nat) (targets : List MonitoringTarget) (pool : Pool) :
    Sampler κ τ σ :=
  { s with
    pool := pool
    started := s.started + targets.length
    checks := s.checks ++ newTasks run s.started s.plan.policy targets }

/-- The first of the targets that are left get their checks. The others stay, unless the cycle is
cancelled: then none is left. -/
structure Starting (s : Sampler κ τ σ) (run : Nat) (left : List MonitoringTarget) (cycle : Cycle)
    (first rest : List MonitoringTarget) (x : Cycle × Sampler κ τ σ) : Prop where
  split : left = first ++ rest
  state : ∃ pool, x.2 = s.begun run first pool
  kept : x.1 = { cycle with left := x.1.left, uncounted := cycle.uncounted + first.length }
  left : x.1.left = rest ∨ x.1.left = [] ∧ (s.runHalted run || cycle.halted) = true
  /-- A cancelled cycle starts nothing. -/
  halted : (s.runHalted run || cycle.halted) = true → first = [] ∧ x.1.left = []

theorem startChecks_starting (run : Nat) (left : List MonitoringTarget) :
    ∀ (cycle : Cycle) (s : Sampler κ τ σ),
      ∃ first rest, Starting s run left cycle first rest (startChecks run left cycle s) := by
  -- Cycle and sampler change with each check that is started, so the claim is about all of them.
  induction left with
  | nil =>
    intro cycle s
    refine ⟨[], [], rfl, ⟨s.pool, ?_⟩, rfl, .inl rfl, fun _ => ⟨rfl, rfl⟩⟩
    simp [startChecks, begun, newTasks]
  | cons target left ih =>
    intro cycle s
    unfold startChecks
    split
    · next h => exact ⟨[], target :: left, rfl, ⟨s.pool.withdraw run, by simp [begun, newTasks]⟩, rfl,
        .inr ⟨rfl, h⟩, fun _ => ⟨rfl, rfl⟩⟩
    · next h =>
      split
      · exact ⟨[], target :: left, rfl, ⟨s.pool.enqueue run, by simp [begun, newTasks]⟩, rfl, .inl rfl,
          fun h' => absurd h' h⟩
      · next pool _ =>
        obtain ⟨first, rest, hs, ⟨pool', hp⟩, hc, hl, -⟩ :=
          ih { cycle with uncounted := cycle.uncounted + 1 } ({ s with pool := pool }.startCheck run target)
        refine ⟨target :: first, rest, by rw [hs]; rfl, ⟨pool', ?_⟩, ?_, hl, fun h' => absurd h' h⟩
        · rw [hp]
          simp [begun, startCheck, newTasks, Nat.add_assoc, Nat.add_comm 1]
        · rw [hc]
          simp [Nat.add_assoc, Nat.add_comm 1]

/-- Where a cycle stands after it has started checks. -/
inductive CycleTurn (run began : Nat) (cycle : Cycle) (s : Sampler κ τ σ) : Sampler κ τ σ → Prop
  /-- Targets are left. -/
  | starts (left : cycle.left ≠ []) : CycleTurn run began cycle s (s.withPhase run (.cycling began cycle))
  /-- Checks are on their way. -/
  | counts (left : cycle.left = []) (open' : cycle.takeArrived.uncounted ≠ 0) :
      CycleTurn run began cycle s (s.withPhase run (.cycling began cycle.takeArrived))
  | ends (left : cycle.left = []) (done : cycle.takeArrived.uncounted = 0) :
      CycleTurn run began cycle s (s.endCycle run began
        (match cycle.takeArrived.fatal with
        | some f => .error f
        | none => .ok cycle.takeArrived.summary))

/-- A cycle that goes on starts checks and then stands somewhere. -/
theorem goOnCycle_started (s : Sampler κ τ σ) (run began : Nat) (cycle : Cycle) :
    let x := startChecks run cycle.left cycle s
    CycleTurn run began x.1 x.2 (s.goOnCycle run began cycle) := by
  unfold goOnCycle
  generalize startChecks run cycle.left cycle s = x
  dsimp only
  cases hl : x.1.left with
  | cons t ts =>
    have hne : x.1.left ≠ [] := by rw [hl]; exact List.cons_ne_nil t ts
    exact .starts hne
  | nil =>
    simp only [List.isEmpty_nil, Bool.not_true, Bool.false_eq_true, ↓reduceIte]
    split
    · next h => exact .counts hl h
    · next h =>
      have hend : CycleTurn run began x.1 x.2 _ := .ends hl (Classical.not_not.1 h)
      split
      · next f hf =>
        rw [hf] at hend
        exact hend
      · next hf =>
        rw [hf] at hend
        exact hend

theorem goOnCycle_turn (s : Sampler κ τ σ) (run began : Nat) (cycle : Cycle) :
    ∃ first rest x, Starting s run cycle.left cycle first rest x ∧
      CycleTurn run began x.1 x.2 (s.goOnCycle run began cycle) := by
  obtain ⟨first, rest, hx⟩ := startChecks_starting run cycle.left cycle s
  exact ⟨first, rest, _, hx, goOnCycle_started s run began cycle⟩

/-- What a run's turn comes to. -/
inductive RunTurn [SampleStore σ] (s : Sampler κ τ σ) (run : Nat) : Sampler κ τ σ → Prop
  /-- There is nothing to do, or no such run. -/
  | rests (idle : s.cycle? run = none)
      (ended : s.runHalted run = true → run < s.runs.length → (s.result? run).isSome = true) :
      RunTurn s run s
  /-- A cancelled run does not begin a cycle. -/
  | ends (idle : s.cycle? run = none) (halted : s.runHalted run = true) :
      RunTurn s run (s.withPhase run (.over (.ok ())))
  /-- The targets cannot be listed or registered. -/
  | barren {f : Failure} {store : σ} {drawn : Nat} (idle : s.cycle? run = none) (known : run < s.runs.length)
      (cause : store = s.store ∧ drawn = s.drawn ∨ ∃ targets,
        SampleStore.register (s.chance.wall s.drawn) s.source.name (eligibleOnce targets) s.store =
          (.error f, store) ∧ drawn = s.drawn + 1) :
      RunTurn s run ({ s with store := store, drawn := drawn }.endCycle run s.now (.error f))
  | begins {targets : List MonitoringTarget} {n : Nat} {store : σ} (idle : s.cycle? run = none)
      (known : run < s.runs.length) (listed : s.source.targets s.store = .ok targets)
      (registered : SampleStore.register (s.chance.wall s.drawn) s.source.name (eligibleOnce targets)
        s.store = (.ok n, store)) :
      RunTurn s run (({ s with store := store, drawn := s.drawn + 1 } : Sampler κ τ σ).goOnCycle run s.now
        ⟨.start (s.plan.selection.choose (s.chance.shuffle s.drawn) (eligibleOnce targets)).length
          (ineligibleCount targets),
          s.plan.selection.choose (s.chance.shuffle s.drawn) (eligibleOnce targets), 0, [], false, none⟩)
  | goesOn {began : Nat} {cycle : Cycle} {r : Run} (busy : s.runs[run]? = some r)
      (phase : r.phase = .cycling began cycle) : RunTurn s run (s.goOnCycle run began cycle)

theorem beginCycle_turn [SampleStore σ] {run : Nat} (idle : s.cycle? run = none)
    (known : run < s.runs.length) : RunTurn s run (s.beginCycle run) := by
  unfold beginCycle
  split
  · next f _ =>
    have h : RunTurn s run ({ s with store := s.store, drawn := s.drawn }.endCycle run s.now (.error f)) :=
      .barren idle known (.inl ⟨rfl, rfl⟩)
    exact h
  · next targets hl =>
    dsimp only
    cases hr : SampleStore.register (s.chance.wall s.drawn) s.source.name (eligibleOnce targets) s.store with
    | mk registered store =>
      cases registered with
      | error f => exact .barren idle known (.inr ⟨targets, hr, rfl⟩)
      | ok n => exact .begins idle known hl hr

theorem resumeRun_turn [SampleStore σ] (s : Sampler κ τ σ) (run : Nat) :
    RunTurn s run (s.resumeRun run) := by
  unfold resumeRun
  split
  · next h =>
    exact .rests (by simp only [cycle?, h]) fun _ hlt => absurd (List.getElem?_eq_none_iff.1 h) (by omega)
  · next r hr =>
    have known : run < s.runs.length := (List.getElem?_eq_some_iff.1 hr).1
    obtain ⟨repeats, halted, phase, passes⟩ := r
    split
    · next hp =>
      obtain rfl : phase = .starting := hp
      have idle : s.cycle? run = none := by simp only [cycle?, hr]
      split
      · next h => exact .ends idle (Bool.and_eq_true_iff.1 h).2
      · exact beginCycle_turn idle known
    · next hp => exact .goesOn hr hp
    · next wakeAt hp =>
      obtain rfl : phase = .pausing wakeAt := hp
      have idle : s.cycle? run = none := by simp only [cycle?, hr]
      split
      · next h => exact .ends idle h
      · next h =>
        split
        · exact beginCycle_turn idle known
        · exact .rests idle fun h' => absurd h' h
    · next result hp =>
      obtain rfl : phase = .over result := hp
      exact .rests (by simp only [cycle?, hr]) fun _ _ => by simp only [result?, hr, Option.isSome_some]

end SwarmSampler.Sampler
