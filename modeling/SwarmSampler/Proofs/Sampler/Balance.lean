import SwarmSampler.Proofs.Sampler.Runs
import SwarmSampler.Proofs.Sampler.Tally

/-
The tasks of checks and the cycles they belong to. A cycle counts the checks it
has started and not counted: those are on their way, or their results have
arrived. So a cycle that has nothing left to count leaves no check behind, and
a run that is in no cycle has none.
-/

namespace SwarmSampler.Sampler

variable {κ τ σ : Type} {s s' : Sampler κ τ σ}

/-- What a run's cycle has started and not counted. -/
def uncounted (s : Sampler κ τ σ) (run : Nat) : Nat := ((s.cycle? run).map (·.uncounted)).getD 0

/-- The results that a run's cycle has still to count. -/
def arrived (s : Sampler κ τ σ) (run : Nat) : List CheckResult := ((s.cycle? run).map (·.arrived)).getD []

/-- How many checks of a run are on their way. -/
def openChecks (s : Sampler κ τ σ) (run : Nat) : Nat := s.checks.countP (·.run = run)

/-- A run's cycle has still to count the checks that are on their way and those that have arrived.
A run in no cycle has none. -/
def Balanced (s : Sampler κ τ σ) : Prop :=
  ∀ run, s.uncounted run = s.openChecks run + (s.arrived run).length

theorem countP_filter_ne {checks : List (CheckTask τ)} {c : CheckTask τ} (p : CheckTask τ → Bool)
    (hd : (checks.map (·.id)).Nodup) (hc : c ∈ checks) :
    checks.countP p = (checks.filter (·.id ≠ c.id)).countP p + if p c then 1 else 0 := by
  induction checks with
  | nil => cases hc
  | cons x xs ih =>
    obtain ⟨hx, hd⟩ := List.nodup_cons.1 hd
    rcases List.mem_cons.1 hc with rfl | hc
    · have hself : xs.filter (·.id ≠ c.id) = xs := List.filter_eq_self.2 fun y hy => by
        simpa using fun h : y.id = c.id => hx (List.mem_map.2 ⟨y, hy, h⟩)
      rw [List.filter_cons_of_neg (by simp), hself, List.countP_cons]
    · have hne : x.id ≠ c.id := fun h => hx (List.mem_map.2 ⟨c, hc, h.symm⟩)
      rw [List.filter_cons_of_pos (by simpa using hne), List.countP_cons, List.countP_cons, ih hd hc]
      omega

theorem Balanced.cycle?_isSome (h : s.Balanced) {c : CheckTask τ} (hc : c ∈ s.checks) :
    (s.cycle? c.run).isSome = true := by
  have hpos : 0 < s.openChecks c.run := List.countP_pos_iff.2 ⟨c, hc, by simp⟩
  have hb := h c.run
  unfold uncounted at hb
  cases hcy : s.cycle? c.run with
  | some cycle => rfl
  | none =>
    rw [hcy] at hb
    simp only [Option.map_none, Option.getD_none] at hb
    omega

theorem Balanced.openChecks_eq_zero (h : s.Balanced) {run : Nat} (hr : s.cycle? run = none) :
    s.openChecks run = 0 := by
  have hb := h run
  simp only [uncounted, hr, Option.map_none, Option.getD_none] at hb
  omega

theorem Balanced.congr (h : s.Balanced) (hr : ∀ run, s'.cycle? run = s.cycle? run)
    (hc : s'.checks.map (·.run) = s.checks.map (·.run)) : s'.Balanced := by
  intro run
  have ho : ∀ s : Sampler κ τ σ, s.openChecks run = (s.checks.map (·.run)).countP (· = run) :=
    fun s => by rw [List.countP_map]; rfl
  have hb := h run
  rw [ho] at hb ⊢
  rw [hc]
  simpa only [uncounted, arrived, hr] using hb

theorem withStage_runs (id : Nat) (stage : CheckStage τ) :
    (s.withStage id stage).checks.map (·.run) = s.checks.map (·.run) := by
  simp only [withStage, List.map_map]
  refine List.map_congr_left fun c _ => ?_
  simp only [Function.comp_apply]
  split <;> rfl

theorem arrived_endCheck_self {c : CheckTask τ} (h : (s.cycle? c.run).isSome = true)
    (result : CheckResult) : (s.endCheck c result).arrived c.run = s.arrived c.run ++ [result] := by
  obtain ⟨cycle, hcy⟩ := Option.isSome_iff_exists.1 h
  simp only [arrived, hcy, cycle?_endCheck_self hcy, Option.map_some, Option.getD_some]

theorem endCheck_balanced (h : s.Balanced) (hd : (s.checks.map (·.id)).Nodup) {c : CheckTask τ}
    (hc : c ∈ s.checks) (result : CheckResult) : (s.endCheck c result).Balanced := by
  intro run
  have hcount := countP_filter_ne (fun x => decide (x.run = run)) hd hc
  have hb := h run
  rw [show (s.endCheck c result).openChecks run =
    (s.checks.filter (·.id ≠ c.id)).countP (·.run = run) from rfl]
  by_cases hr : c.run = run
  · -- One check less is on its way, and one result more has arrived.
    subst hr
    obtain ⟨cycle, hcy⟩ := Option.isSome_iff_exists.1 (h.cycle?_isSome hc)
    simp only [uncounted, arrived, hcy, cycle?_endCheck_self hcy, Option.map_some, Option.getD_some,
      List.length_append, List.length_singleton] at hb ⊢
    simp only [decide_true, ↓reduceIte] at hcount
    simp only [openChecks] at hb
    omega
  · have hcy' : (s.endCheck c result).cycle? run = s.cycle? run :=
      cycle?_congr ((runs_withRun ..).trans (if_neg (Ne.symm hr)))
    simp only [uncounted, arrived, hcy'] at hb ⊢
    simp only [hr, decide_false, Bool.false_eq_true, ↓reduceIte] at hcount
    simp only [openChecks] at hb
    omega

theorem CheckTurn.balanced [SwarmClient κ τ] [SampleStore σ] {id : Nat} (h : CheckTurn s id s')
    (hb : s.Balanced) (hd : (s.checks.map (·.id)).Nodup) : s'.Balanced := by
  cases h with
  | absent | stands => exact hb
  | waits | settles => exact hb.congr (fun _ => rfl) (withStage_runs ..)
  | @ends c client' new result task ending =>
    exact endCheck_balanced (s := { s with client := client', reports := s.reports ++ new }) hb hd
      (mem_of_check? task).1 result

/-- The turn of a check leaves the cycles, or hands a result to that of its run. -/
theorem CheckTurn.cycles [SwarmClient κ τ] [SampleStore σ] {id : Nat} (h : CheckTurn s id s')
    (hb : s.Balanced) :
    (∀ run, s'.cycle? run = s.cycle? run) ∨
      ∃ t result cycle, s.check? id = some t ∧ s.cycle? t.run = some cycle ∧
        s'.cycle? t.run = some { cycle with arrived := cycle.arrived ++ [result] } ∧
        ∀ run, run ≠ t.run → s'.runs[run]? = s.runs[run]? := by
  cases h with
  | absent | stands | waits | settles => exact .inl fun _ => rfl
  | @ends t client' new result task ending =>
    obtain ⟨cycle, hcy⟩ := Option.isSome_iff_exists.1 (hb.cycle?_isSome (mem_of_check? task).1)
    refine .inr ⟨t, result, cycle, task, hcy, ?_, fun run hr => ?_⟩
    · exact cycle?_endCheck_self (s := { s with client := client', reports := s.reports ++ new }) hcy result
    · exact (runs_withRun ..).trans (if_neg hr)

/-! ## Turns of runs -/

theorem newTasks_countP (run first : Nat) (policy : RetryPolicy) (targets : List MonitoringTarget)
    (r : Nat) : (newTasks (τ := τ) run first policy targets).countP (·.run = r) =
      if r = run then targets.length else 0 := by
  induction targets generalizing first with
  | nil => simp [newTasks]
  | cons t ts ih =>
    rw [newTasks, List.countP_cons, ih]
    by_cases h : r = run
    · simp [h]
    · simp [h, Ne.symm h]

theorem begun_openChecks (run : Nat) (targets : List MonitoringTarget) (pool : Pool) (r : Nat) :
    (s.begun run targets pool).openChecks r =
      s.openChecks r + if r = run then targets.length else 0 := by
  rw [openChecks, begun, List.countP_append, newTasks_countP]
  rfl

theorem CycleTurn.balanced {run began : Nat} {cycle : Cycle} (h : CycleTurn run began cycle s s')
    (known : run < s.runs.length)
    (others : ∀ r ≠ run, s.uncounted r = s.openChecks r + (s.arrived r).length)
    (own : cycle.uncounted = s.openChecks run + cycle.arrived.length) : s'.Balanced := by
  intro r
  have hopen : s'.openChecks r = s.openChecks r := by rw [openChecks, h.checks, openChecks]
  by_cases hr : r = run
  · subst hr
    have htake := cycle.takeArrived_eq
    have huncounted : cycle.takeArrived.uncounted = s.openChecks r := by rw [htake]; simp only; omega
    rw [hopen, uncounted, arrived]
    cases h with
    | starts left =>
      rw [cycle?_withPhase known]
      exact own
    | counts left busy =>
      rw [cycle?_withPhase known]
      show cycle.takeArrived.uncounted = s.openChecks r + cycle.takeArrived.arrived.length
      rw [huncounted, htake]
      rfl
    | ends left done =>
      rw [cycle?_endCycle]
      show 0 = s.openChecks r + 0
      omega
  · have hcy := cycle?_congr (h.others hr)
    rw [hopen, uncounted, arrived, hcy]
    exact others r hr

theorem goOnCycle_balanced {run began : Nat} {cycle : Cycle} (known : run < s.runs.length)
    (others : ∀ r ≠ run, s.uncounted r = s.openChecks r + (s.arrived r).length)
    (own : cycle.uncounted = s.openChecks run + cycle.arrived.length) :
    (s.goOnCycle run began cycle).Balanced := by
  obtain ⟨first, rest, x, hx, ht⟩ := goOnCycle_turn s run began cycle
  obtain ⟨pool, hp⟩ := hx.state
  rw [hp] at ht
  refine ht.balanced known (fun r hr => ?_) ?_
  · rw [begun_openChecks, if_neg hr]
    exact others r hr
  · rw [begun_openChecks, if_pos rfl, hx.kept]
    simp only
    omega

theorem RunTurn.balanced [SampleStore σ] {run : Nat} (h : RunTurn s run s') (hb : s.Balanced) :
    s'.Balanced := by
  have ends : ∀ {began : Nat} {result : Except Failure CycleSummary} {store : σ} {drawn : Nat},
      s.cycle? run = none →
        (({ s with store := store, drawn := drawn } : Sampler κ τ σ).endCycle run began result).Balanced := by
    intro began result store drawn idle
    refine hb.congr (fun r => ?_) rfl
    by_cases hr : r = run
    · rw [hr, cycle?_endCycle, idle]
    · exact cycle?_congr ((runs_withRun ..).trans (if_neg hr))
  cases h with
  | rests _ _ => exact hb
  | ends idle _ => exact hb.congr (cycle?_over idle _) rfl
  | barren idle known _ => exact ends idle
  | begins idle known _ _ =>
    exact goOnCycle_balanced known (fun r _ => hb r) (hb.openChecks_eq_zero idle).symm
  | @goesOn began cycle r busy phase =>
    have hr := hb run
    rw [uncounted, arrived, cycle?_of_phase busy phase] at hr
    exact goOnCycle_balanced (List.getElem?_eq_some_iff.1 busy).1 (fun r _ => hb r) hr

end SwarmSampler.Sampler
