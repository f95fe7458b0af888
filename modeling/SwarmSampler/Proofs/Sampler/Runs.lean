import SwarmSampler.Proofs.Sampler.Turns

/-
A sampler's runs, each by its number, and what turns leave of them: a turn of a
check may hand a result to the cycle of its run, a turn of a run starts checks
and changes no other run, and neither changes a run's past or cancels it.
-/

namespace SwarmSampler

/-- The cycle of a run that is in one. -/
def Run.cycle? (r : Run) : Option Cycle :=
  match r.phase with
  | .cycling _ cycle => some cycle
  | _ => none

/-- After a cycle a run is over or pauses, and a cancelled run does not pause. -/
theorem Run.phaseAfter_cases (r : Run) (cancelled : Bool) (wakeAt : Nat)
    (result : Except Failure CycleSummary) :
    (∃ e, r.phaseAfter cancelled wakeAt result = .over e) ∨
      cancelled = false ∧ r.phaseAfter cancelled wakeAt result = .pausing wakeAt := by
  unfold Run.phaseAfter
  cases result with
  | error f =>
    dsimp only
    split
    · exact .inl ⟨_, rfl⟩
    · cases cancelled with
      | true => exact .inl ⟨_, rfl⟩
      | false => exact .inr ⟨rfl, rfl⟩
  | ok summary =>
    dsimp only
    split
    · exact .inl ⟨_, rfl⟩
    · next h =>
      cases cancelled with
      | true => simp at h
      | false => exact .inr ⟨rfl, rfl⟩

namespace Sampler

variable {κ τ σ : Type} {s s' : Sampler κ τ σ}

/-! ## Runs -/

/-- The cycles a run has been through. -/
def passes (s : Sampler κ τ σ) (run : Nat) : List Pass := ((s.runs[run]?).map (·.passes)).getD []

def passNo (s : Sampler κ τ σ) (run : Nat) : Nat := (s.passes run).length

theorem cycle?_eq (s : Sampler κ τ σ) (run : Nat) : s.cycle? run = (s.runs[run]?).bind Run.cycle? := by
  unfold cycle?
  cases h : s.runs[run]? with
  | none => rfl
  | some r =>
    obtain ⟨repeats, halted, phase, passes⟩ := r
    cases phase <;> rfl

theorem cycle?_of_phase {run began : Nat} {cycle : Cycle} {r : Run} (busy : s.runs[run]? = some r)
    (phase : r.phase = .cycling began cycle) : s.cycle? run = some cycle := by
  rw [cycle?_eq, busy, Option.bind_some, Run.cycle?, phase]

theorem runs_withRun (s : Sampler κ τ σ) (run r : Nat) (f : Run → Run) :
    (s.withRun run f).runs[r]? = if r = run then (s.runs[r]?).map f else s.runs[r]? := by
  simp only [withRun, List.getElem?_modify, eq_comm (a := run)]
  split
  · rfl
  · cases s.runs[r]? <;> rfl

theorem cycle?_congr {run : Nat} (h : s'.runs[run]? = s.runs[run]?) : s'.cycle? run = s.cycle? run := by
  rw [cycle?_eq, cycle?_eq, h]

theorem passes_congr {run : Nat} (h : s'.runs[run]? = s.runs[run]?) : s'.passes run = s.passes run := by
  rw [passes, passes, h]

theorem passes_withRun {f : Run → Run} (h : ∀ r, (f r).passes = r.passes) (run r : Nat) :
    (s.withRun run f).passes r = s.passes r := by
  rw [passes, passes, runs_withRun]
  split
  · cases s.runs[r]? with
    | none => rfl
    | some x => simp only [Option.map_some, h]
  · rfl

theorem runHalted_withRun {f : Run → Run} (h : ∀ r, (f r).halted = r.halted) (run r : Nat) :
    (s.withRun run f).runHalted r = s.runHalted r := by
  rw [runHalted, runHalted, runs_withRun]
  split
  · cases s.runs[r]? with
    | none => rfl
    | some x => simp only [Option.map_some, Option.any_some, h]; rfl
  · rfl

theorem runHalted_withPhase (s : Sampler κ τ σ) (run : Nat) (phase : RunPhase) (r : Nat) :
    (s.withPhase run phase).runHalted r = s.runHalted r :=
  runHalted_withRun (f := fun x => { x with phase := phase }) (fun _ => rfl) run r

theorem runHalted_endCycle (s : Sampler κ τ σ) (run began : Nat) (result : Except Failure CycleSummary)
    (r : Nat) : (s.endCycle run began result).runHalted r = s.runHalted r :=
  runHalted_withRun (f := fun x => { x with
    passes := x.passes ++ [⟨began, s.now, result⟩]
    phase := x.phaseAfter (s.runHalted run) (s.now + s.plan.cycleInterval.wait) result }) (fun _ => rfl) run r

theorem passes_withPhase (s : Sampler κ τ σ) (run : Nat) (phase : RunPhase) (r : Nat) :
    (s.withPhase run phase).passes r = s.passes r :=
  passes_withRun (f := fun r => { r with phase := phase }) (fun _ => rfl) run r

theorem passes_deliver (s : Sampler κ τ σ) (run : Nat) (result : CheckResult) (r : Nat) :
    (s.deliver run result).passes r = s.passes r :=
  passes_withRun (fun x => by cases hp : x.phase <;> simp only) run r

theorem cycle?_withPhase {run : Nat} (known : run < s.runs.length) (phase : RunPhase) :
    (s.withPhase run phase).cycle? run = Run.cycle? ⟨false, false, phase, []⟩ := by
  rw [cycle?_eq, withPhase, runs_withRun, if_pos rfl, List.getElem?_eq_getElem known]
  cases phase <;> rfl

/-- The end of a run that is in no cycle. -/
theorem cycle?_over {run : Nat} (idle : s.cycle? run = none) (result : Except Failure Unit) (r : Nat) :
    (s.withPhase run (.over result)).cycle? r = s.cycle? r := by
  by_cases hr : r = run
  · subst hr
    rw [idle, cycle?_eq, withPhase, runs_withRun, if_pos rfl]
    cases s.runs[r]? <;> rfl
  · exact cycle?_congr ((runs_withRun ..).trans (if_neg hr))

theorem cycle?_endCycle (run began : Nat) (result : Except Failure CycleSummary) :
    (s.endCycle run began result).cycle? run = none := by
  rw [cycle?_eq, endCycle, runs_withRun, if_pos rfl]
  cases s.runs[run]? with
  | none => rfl
  | some r =>
    simp only [Option.map_some, Option.bind_some, Run.cycle?]
    obtain ⟨e, he⟩ | ⟨-, hp⟩ :=
      r.phaseAfter_cases (s.runHalted run) (s.now + s.plan.cycleInterval.wait) result
    · rw [he]
    · rw [hp]

theorem passes_endCycle {run : Nat} (known : run < s.runs.length) (began : Nat)
    (result : Except Failure CycleSummary) :
    (s.endCycle run began result).passes run = s.passes run ++ [⟨began, s.now, result⟩] := by
  rw [passes, passes, endCycle, runs_withRun, if_pos rfl, List.getElem?_eq_getElem known]
  rfl

theorem passes_endCycle_grows (s : Sampler κ τ σ) (run began : Nat) (result : Except Failure CycleSummary) :
    s.passes run <+: (s.endCycle run began result).passes run := by
  rcases Nat.lt_or_ge run s.runs.length with known | unknown
  · exact passes_endCycle known began result ▸ List.prefix_append ..
  · rw [passes, List.getElem?_eq_none_iff.2 unknown]
    exact List.nil_prefix

theorem cycle?_deliver (run : Nat) (result : CheckResult) :
    (s.deliver run result).cycle? run =
      (s.cycle? run).map fun c => { c with arrived := c.arrived ++ [result] } := by
  rw [cycle?_eq, cycle?_eq, deliver, runs_withRun, if_pos rfl]
  cases s.runs[run]? with
  | none => rfl
  | some r =>
    obtain ⟨repeats, halted, phase, passes⟩ := r
    cases phase <;> rfl

theorem cycle?_cancelRun (s : Sampler κ τ σ) (run r : Nat) : (s.cancelRun run).cycle? r = s.cycle? r := by
  rw [cycle?_eq, cycle?_eq, cancelRun, runs_withRun]
  split
  · cases s.runs[r]? <;> rfl
  · rfl

theorem passes_cancelRun (s : Sampler κ τ σ) (run r : Nat) : (s.cancelRun run).passes r = s.passes r :=
  passes_withRun (f := fun r => { r with halted := true }) (fun _ => rfl) run r

theorem runHalted_cancelRun (s : Sampler κ τ σ) (run r : Nat) :
    (s.cancelRun run).runHalted r = true ↔ s.runHalted r = true ∨ r = run ∧ r < s.runs.length := by
  rw [runHalted, runHalted, cancelRun, runs_withRun]
  by_cases hr : r = run
  · subst hr
    rw [if_pos rfl]
    cases h : s.runs[r]? with
    | none =>
      have hge := List.getElem?_eq_none_iff.1 h
      simp [withRun, Nat.not_lt.2 hge]
    | some x => simp [withRun, (List.getElem?_eq_some_iff.1 h).1]
  · simp [withRun, hr]

theorem runHalted_addRun (s : Sampler κ τ σ) (repeats : Bool) (r : Nat) :
    (s.addRun repeats).runHalted r = s.runHalted r := by
  rw [runHalted, runHalted, addRun, List.getElem?_append]
  split
  · rfl
  · next h =>
    rw [List.getElem?_eq_none_iff.2 (by omega : s.runs.length ≤ r)]
    cases (r - s.runs.length) <;> rfl

/-- A new run is in no cycle and has been through none. -/
theorem addRun_eq (s : Sampler κ τ σ) (repeats : Bool) (r : Nat) :
    (s.addRun repeats).cycle? r = s.cycle? r ∧ (s.addRun repeats).passes r = s.passes r := by
  rw [cycle?_eq, cycle?_eq, passes, passes, addRun, List.getElem?_append]
  split
  · exact ⟨rfl, rfl⟩
  · next h =>
    rw [List.getElem?_eq_none_iff.2 (by omega : s.runs.length ≤ r)]
    cases (r - s.runs.length) <;> exact ⟨rfl, rfl⟩

theorem cycle?_endCheck_self {c : CheckTask τ} {cycle : Cycle} (h : s.cycle? c.run = some cycle)
    (result : CheckResult) :
    (s.endCheck c result).cycle? c.run = some { cycle with arrived := cycle.arrived ++ [result] } := by
  have hd := cycle?_deliver (s := { s with
    checks := s.checks.filter (·.id ≠ c.id), pool := s.pool.release }) c.run result
  rw [show ({ s with checks := s.checks.filter (·.id ≠ c.id), pool := s.pool.release } :
    Sampler κ τ σ).cycle? c.run = s.cycle? c.run from rfl, h] at hd
  exact hd

/-! ## Turns of checks -/

section

variable [SwarmClient κ τ] [SampleStore σ] {id : Nat} (h : CheckTurn s id s')
include h

/-- A turn of a check brings no new tasks. -/
theorem CheckTurn.mem_checks {t : CheckTask τ} (ht : t ∈ s'.checks) :
    ∃ u ∈ s.checks, u.id = t.id ∧ u.run = t.run ∧ u.target = t.target := by
  have hstage : ∀ {i : Nat} {stage : CheckStage τ} {s : Sampler κ τ σ}, t ∈ (s.withStage i stage).checks →
      ∃ u ∈ s.checks, u.id = t.id ∧ u.run = t.run ∧ u.target = t.target := by
    intro i stage s ht
    obtain ⟨u, hu, rfl⟩ := List.mem_map.1 ht
    refine ⟨u, hu, ?_⟩
    split <;> exact ⟨rfl, rfl, rfl⟩
  cases h with
  | absent | stands => exact ⟨t, ht, rfl, rfl, rfl⟩
  | waits => exact hstage ht
  | settles => exact hstage ht
  | ends => exact ⟨t, (List.mem_filter.1 ht).1, rfl, rfl, rfl⟩

theorem CheckTurn.distinct (hd : (s.checks.map (·.id)).Nodup) : (s'.checks.map (·.id)).Nodup := by
  have hstage : ∀ {i : Nat} {stage : CheckStage τ} {s : Sampler κ τ σ},
      (s.checks.map (·.id)).Nodup → ((s.withStage i stage).checks.map (·.id)).Nodup := by
    intro i stage s hd
    have hids : (s.withStage i stage).checks.map (·.id) = s.checks.map (·.id) := by
      simp only [withStage, List.map_map]
      refine List.map_congr_left fun c _ => ?_
      simp only [Function.comp_apply]
      split <;> rfl
    rwa [hids]
  cases h with
  | absent | stands => exact hd
  | waits | settles => exact hstage hd
  | ends => exact hd.sublist (List.filter_sublist.map _)

theorem CheckTurn.passes (run : Nat) : s'.passes run = s.passes run := by
  cases h with
  | absent | stands | waits | settles => rfl
  | ends => exact passes_deliver ..

theorem CheckTurn.started : s'.started = s.started := by cases h <;> rfl

theorem CheckTurn.store : s'.store = s.store := by cases h <;> rfl

theorem CheckTurn.plan : s'.plan = s.plan := by cases h <;> rfl

theorem CheckTurn.chance : s'.chance = s.chance := by cases h <;> rfl

theorem CheckTurn.runHalted (run : Nat) : s'.runHalted run = s.runHalted run := by
  cases h with
  | absent | stands | waits | settles => rfl
  | ends => exact runHalted_withRun (fun x => by cases hp : x.phase <;> simp only) _ run

/-- A turn of a check publishes no more than its own report. -/
theorem CheckTurn.reports : s.reports <+: s'.reports := by
  cases h with
  | absent | stands | waits | settles => exact List.prefix_rfl
  | ends => exact List.prefix_append ..

end

/-! ## Turns of runs -/

/-- A cycle that goes on touches nothing but its run. -/
theorem CycleTurn.others {run began r : Nat} {cycle : Cycle} (h : CycleTurn run began cycle s s')
    (hr : r ≠ run) : s'.runs[r]? = s.runs[r]? := by
  cases h <;> exact (runs_withRun ..).trans (if_neg hr)

theorem CycleTurn.checks {run began : Nat} {cycle : Cycle} (h : CycleTurn run began cycle s s') :
    s'.checks = s.checks := by cases h <;> rfl

theorem CycleTurn.same {run began : Nat} {cycle : Cycle} (h : CycleTurn run began cycle s s') :
    s' = { s with runs := s'.runs } := by cases h <;> rfl

theorem CycleTurn.passes {run began : Nat} {cycle : Cycle} (h : CycleTurn run began cycle s s') :
    s'.passes run = s.passes run ∨ s'.cycle? run = none := by
  cases h with
  | starts | counts => exact .inl (passes_withPhase ..)
  | ends => exact .inr (cycle?_endCycle ..)

/-- What a run has been through stays. -/
theorem CycleTurn.past {run began : Nat} {cycle : Cycle} (h : CycleTurn run began cycle s s') :
    s.passes run <+: s'.passes run := by
  cases h with
  | starts | counts => exact (passes_withPhase ..).symm ▸ List.prefix_rfl
  | ends => exact passes_endCycle_grows ..

/-- A turn of a run starts checks for some targets, registers targets, and changes nothing of other
runs. -/
structure Ran [SampleStore σ] (run : Nat) (first : List MonitoringTarget) (s s' : Sampler κ τ σ) :
    Prop where
  same : s' = { s with
    checks := s.checks ++ newTasks run s.started s.plan.policy first
    started := s.started + first.length
    pool := s'.pool
    runs := s'.runs
    store := s'.store
    drawn := s'.drawn }
  store : s'.store = s.store ∨
    ∃ now source targets, s'.store = (SampleStore.register now source targets s.store).2
  others : ∀ r, r ≠ run → s'.runs[r]? = s.runs[r]?
  /-- The run's past stays, unless it has come to the end of a cycle. -/
  passes : s'.passes run = s.passes run ∨ s'.cycle? run = none
  past : s.passes run <+: s'.passes run
  halted : ∀ r, s'.runHalted r = s.runHalted r
  /-- A run whose checks are cancelled starts none. -/
  cancelled : s.checksHalted run = true → first = []

section

variable [SampleStore σ] {run : Nat} {first : List MonitoringTarget} (h : Ran run first s s')
include h

theorem Ran.writer : s'.writer = s.writer := by rw [h.same]

theorem Ran.checks : s'.checks = s.checks ++ newTasks run s.started s.plan.policy first := by rw [h.same]

theorem Ran.started : s'.started = s.started + first.length := by rw [h.same]

theorem Ran.reports : s'.reports = s.reports := by rw [h.same]

theorem Ran.client : s'.client = s.client := by rw [h.same]

theorem Ran.plan : s'.plan = s.plan := by rw [h.same]

theorem Ran.chance : s'.chance = s.chance := by rw [h.same]

end

theorem CycleTurn.runHalted {run began : Nat} {cycle : Cycle} (h : CycleTurn run began cycle s s')
    (r : Nat) : s'.runHalted r = s.runHalted r := by
  cases h with
  | starts | counts => exact runHalted_withPhase ..
  | ends => exact runHalted_endCycle ..

/-- A cycle that goes on calls neither on the store nor on chance. -/
theorem goOnCycle_kept (s : Sampler κ τ σ) (run began : Nat) (cycle : Cycle) :
    (s.goOnCycle run began cycle).store = s.store ∧ (s.goOnCycle run began cycle).drawn = s.drawn := by
  obtain ⟨first, rest, x, hx, ht⟩ := goOnCycle_turn s run began cycle
  obtain ⟨pool, hp⟩ := hx.state
  rw [ht.same, hp]
  exact ⟨rfl, rfl⟩

theorem Starting.ran [SampleStore σ] {run began : Nat} {left first rest : List MonitoringTarget}
    {cycle : Cycle} {x : Cycle × Sampler κ τ σ} (hx : Starting s run left cycle first rest x)
    (ht : CycleTurn run began x.1 x.2 s')
    (halts : s.checksHalted run = true → (s.runHalted run || cycle.halted) = true) : Ran run first s s' := by
  obtain ⟨pool, hp⟩ := hx.state
  rw [hp] at ht
  have hsame := ht.same
  refine ⟨?_, .inl ?_, fun r hr => ht.others hr, ht.passes, ht.past, ht.runHalted, fun hh => ?_⟩
  · rw [hsame]
    rfl
  · rw [hsame]
    rfl
  · exact (hx.halted (halts hh)).1

theorem goOnCycle_ran [SampleStore σ] (s : Sampler κ τ σ) (run began : Nat) (cycle : Cycle)
    (halts : s.checksHalted run = true → (s.runHalted run || cycle.halted) = true) :
    ∃ first, Ran run first s (s.goOnCycle run began cycle) := by
  obtain ⟨first, rest, x, hx, ht⟩ := goOnCycle_turn s run began cycle
  exact ⟨first, hx.ran ht halts⟩

/-- A turn that registers targets on the way. -/
theorem Ran.registered [SampleStore σ] {run drawn : Nat} {first : List MonitoringTarget} {store : σ}
    (h : Ran run first { s with store := store, drawn := drawn } s') (kept : s'.store = store)
    (cause : ∃ now source targets, store = (SampleStore.register now source targets s.store).2) :
    Ran run first s s' where
  same := h.same
  store := kept ▸ .inr cause
  others := h.others
  passes := h.passes
  past := h.past
  halted := h.halted
  cancelled := h.cancelled

theorem Ran.of_nothing [SampleStore σ] {run : Nat} (same : s' = { s with
      runs := s'.runs, store := s'.store, drawn := s'.drawn })
    (store : s'.store = s.store ∨
      ∃ now source targets, s'.store = (SampleStore.register now source targets s.store).2)
    (others : ∀ r, r ≠ run → s'.runs[r]? = s.runs[r]?)
    (passes : s'.passes run = s.passes run ∨ s'.cycle? run = none) (past : s.passes run <+: s'.passes run)
    (halted : ∀ r, s'.runHalted r = s.runHalted r) : Ran run [] s s' where
  same := by
    rw [same]
    simp only [newTasks, List.append_nil, List.length_nil, Nat.add_zero]
  store := store
  others := others
  passes := passes
  past := past
  halted := halted
  cancelled _ := rfl

/-- The checks of a run that is in no cycle are cancelled only if the run is. -/
theorem checksHalted_of_idle {run : Nat} (idle : s.cycle? run = none) :
    s.checksHalted run = s.runHalted run := by
  rw [checksHalted, idle]
  exact Bool.or_false _

theorem RunTurn.ran [SampleStore σ] {run : Nat} (h : RunTurn s run s') : ∃ first, Ran run first s s' := by
  cases h with
  | rests _ _ =>
    exact ⟨[], .of_nothing rfl (.inl rfl) (fun _ _ => rfl) (.inl rfl) List.prefix_rfl fun _ => rfl⟩
  | ends _ _ =>
    exact ⟨[], .of_nothing rfl (.inl rfl) (fun r hr => (runs_withRun ..).trans (if_neg hr))
      (.inl (passes_withPhase ..)) ((passes_withPhase ..).symm ▸ List.prefix_rfl) (runHalted_withPhase s run _)⟩
  | barren _ _ cause =>
    refine ⟨[], .of_nothing rfl ?_ (fun r hr => (runs_withRun ..).trans (if_neg hr))
      (.inr (cycle?_endCycle ..)) (passes_endCycle_grows _ run _ _) (runHalted_endCycle _ run _ _)⟩
    obtain ⟨h, -⟩ | ⟨targets, h, -⟩ := cause
    · exact .inl h
    · exact .inr ⟨_, _, _, (congrArg Prod.snd h).symm⟩
  | @begins targets n store idle _ _ registered =>
    have halts := checksHalted_of_idle (s := { s with store := store, drawn := s.drawn + 1 }) idle
    obtain ⟨first, hr⟩ := goOnCycle_ran ({ s with store := store, drawn := s.drawn + 1 } : Sampler κ τ σ) run
      s.now ⟨.start (s.plan.selection.choose (s.chance.shuffle s.drawn) (eligibleOnce targets)).length
        (ineligibleCount targets),
        s.plan.selection.choose (s.chance.shuffle s.drawn) (eligibleOnce targets), 0, [], false, none⟩
      fun hh => by rw [← halts, hh, Bool.true_or]
    exact ⟨first, hr.registered (goOnCycle_kept ..).1 ⟨_, _, _, (congrArg Prod.snd registered).symm⟩⟩
  | @goesOn began cycle r busy phase =>
    refine goOnCycle_ran s run began cycle fun hh => ?_
    rwa [checksHalted, cycle?_of_phase busy phase] at hh

end Sampler

end SwarmSampler
